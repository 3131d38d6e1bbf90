import Xv6.CopyUser
import Xv6.ExecModel
import Xv6.FileContents

/-! The image that `exec` loads: the segments of the file in header order, over zeroed
memory. -/

namespace Xv6

open Kern List

def ProgHdr.memEnd (ph : ProgHdr) : Nat := ph.vaddr + ph.memsz

def applySeg (file : List UInt8) (mem : Nat → UInt8) (ph : ProgHdr) (a : Nat) : UInt8 :=
  if ph.vaddr ≤ a ∧ a < ph.vaddr + ph.filesz then
    file.getD (ph.off % 2 ^ 32 + (a - ph.vaddr)) 0 else mem a

def imageOf (file : List UInt8) (phs : List ProgHdr) : Nat → UInt8 :=
  phs.foldl (applySeg file) fun _ => 0

/-- The end of the last segment. -/
def imageSz (phs : List ProgHdr) : Nat := (phs.map ProgHdr.memEnd).foldl max 0

def pagePerm (phs : List ProgHdr) (v : Nat) : Nat :=
  match phs.find? fun ph => v < npages ph.memEnd with
  | some ph => flags2perm ph.flags
  | none => 0

def fileHdrs (file : List UInt8) : Nat → UInt32 → List ProgHdr
  | 0, _ => []
  | count + 1, off =>
    ProgHdr.decode ((file.drop off.toNat).take proghdrSize) :: fileHdrs file count
      (off + .ofNat proghdrSize)

/-- The program headers that are loaded. -/
def loadHdrs (file : List UInt8) : List ProgHdr :=
  let elf := ElfHdr.decode (file.take elfhdrSize)
  (fileHdrs file elf.phnum (.ofNat elf.phoff)).filter fun ph => ph.type = elfProgLoad

section

variable {file : List UInt8} {phs : List ProgHdr} {ph : ProgHdr} {v a : Nat}

lemma imageOf_snoc : imageOf file (phs ++ [ph]) = applySeg file (imageOf file phs) ph := by
  rw [imageOf, foldl_append]
  rfl

lemma imageSz_snoc : imageSz (phs ++ [ph]) = max (imageSz phs) ph.memEnd := by
  simp [imageSz, foldl_append]

lemma memEnd_le_imageSz (h : ph ∈ phs) : ph.memEnd ≤ imageSz phs := by
  induction phs using List.reverseRecOn with
  | nil => cases h
  | append_singleton phs ph' ih =>
    rw [imageSz_snoc]
    rcases mem_append.mp h with h | h
    · exact (ih h).trans (Nat.le_max_left _ _)
    · rw [mem_singleton.mp h]
      exact Nat.le_max_right _ _

lemma exists_memEnd (h : imageSz phs ≠ 0) : ∃ ph ∈ phs, ph.memEnd = imageSz phs := by
  induction phs using List.reverseRecOn with
  | nil => exact absurd rfl h
  | append_singleton phs ph ih =>
    rw [imageSz_snoc] at h ⊢
    by_cases hle : imageSz phs ≤ ph.memEnd
    · exact ⟨ph, by simp, (Nat.max_eq_right hle).symm⟩
    · obtain ⟨ph', hmem, he⟩ := ih (by omega)
      exact ⟨ph', mem_append_left _ hmem, by omega⟩

lemma imageOf_zero (hfit : ∀ ph ∈ phs, ph.filesz ≤ ph.memsz)
    (ha : imageSz phs ≤ a) : imageOf file phs a = 0 := by
  induction phs using List.reverseRecOn with
  | nil => rfl
  | append_singleton phs ph ih =>
    have hend := memEnd_le_imageSz (show ph ∈ phs ++ [ph] by simp)
    have hsz := hfit ph (by simp)
    rw [imageOf_snoc, applySeg, if_neg]
    · rw [imageSz_snoc] at ha
      exact ih (fun x hx => hfit x (mem_append_left _ hx)) (by omega)
    · unfold ProgHdr.memEnd at hend
      omega

lemma pagePerm_snoc_old (hv : v < npages (imageSz phs)) :
    pagePerm (phs ++ [ph]) v = pagePerm phs v := by
  have hne : imageSz phs ≠ 0 := by
    intro h0
    rw [h0] at hv
    exact absurd hv (by simp [npages, pgSize])
  obtain ⟨ph', hmem, he⟩ := exists_memEnd hne
  have hsome : (phs.find? fun ph => decide (v < npages ph.memEnd)).isSome = true := by
    rw [List.find?_isSome]
    exact ⟨ph', hmem, by rw [he]; exact decide_eq_true hv⟩
  obtain ⟨x, hx⟩ := Option.isSome_iff_exists.mp hsome
  rw [pagePerm, pagePerm, List.find?_append, hx]
  rfl

lemma pagePerm_snoc_new (hv : npages (imageSz phs) ≤ v) (hnew : v < npages ph.memEnd) :
    pagePerm (phs ++ [ph]) v = flags2perm ph.flags := by
  have hnone : (phs.find? fun ph => decide (v < npages ph.memEnd)) = none := by
    refine List.find?_eq_none.mpr fun x hx => ?_
    have hle : npages x.memEnd ≤ npages (imageSz phs) :=
      Nat.div_le_div_right (Nat.add_le_add_right (memEnd_le_imageSz hx) _)
    rw [decide_eq_true_eq]
    omega
  rw [pagePerm, List.find?_append, hnone]
  simp [hnew]

lemma flags2perm_lt (flags : Nat) : flags2perm flags < 1024 := by
  unfold flags2perm
  cases has flags 1 <;> cases has flags 2 <;> decide

end

/-- The inode in slot `ip` has the bytes of `file`. -/
structure FileAt (fs : Fs) (ip : Nat) (file : List UInt8) : Prop where
  read : ∀ off n, readi ip kernelDst off n fs =
    .ok (((readLen file.length off n : Nat),
      (file.drop off.toNat).take (readLen file.length off n)), fs)
  small : file.length ≤ maxfile * bsize

lemma FsInv.fileAt {fs : Fs} {ip : Nat} {node : FileNode} (hi : FsInv fs) (hip : Loaded ip fs)
    (hn : fs.node (fs.itable ip).inum = some node) : FileAt fs ip node.bytes := by
  obtain ⟨-, -, hsz⟩ := hi.node_type hip hn
  refine ⟨fun off n => ?_, ?_⟩
  · rw [FileNode.bytes_length]
    exact readi_node hi hip hn off n rfl fun _ _ => rfl
  · rw [FileNode.bytes_length, ← hsz]
    exact (hi.solid_of_loaded hip).size_le

lemma readLen_le (size : Nat) (off n : UInt32) : readLen size off n ≤ n.toNat := by
  unfold readLen
  split_ifs <;> omega

lemma readLen_full {size : Nat} {off n : UInt32} (h : readLen size off n = n.toNat)
    (hn : 0 < n.toNat) : off.toNat + n.toNat ≤ size := by
  unfold readLen at h
  split_ifs at h <;> omega

namespace ExecSys

section

variable {K : KernelImage} {L : List Nat} {s : ExecSys} {root tf n g va sz ip : Nat}
  {t : Radix Nat 2} {file : List UInt8} {offset : UInt32} {E : String → Prop}

lemma sat_onMem {α : Type} {k : Kern Mem α} {Q : α → ExecSys → Prop} :
    (onMem k).Sat s E Q ↔ k.Sat s.mem E fun a m => Q a { s with mem := m } :=
  sat_zoom

lemma sat_read {off n : UInt32} {Q : Int × List UInt8 → ExecSys → Prop} (hf : FileAt s.fs ip file) :
    (read ip off n).Sat s E Q ↔
      Q ((readLen file.length off n : Nat),
        (file.drop off.toNat).take (readLen file.length off n)) s := by
  rw [read, sat_zoom, sat_of_eq (hf.read off n)]

lemma userStored_move {m m' : Mem} {a b : Nat} (h : UserStored t m a [] m') :
    UserStored t m b [] m' := by
  refine ⟨h.kernel, fun x hx => ?_, h.freelist⟩
  rw [h.bytes x hx, length_nil, if_neg (by omega), if_neg (by omega)]

lemma userStored_pieces {m m1 m2 : Mem} {a i k len : Nat} (hk : k ≤ len)
    (hlen : (file.drop i).length ≥ k) (hlast : k < pgSize → len = k) (hle : k ≤ pgSize)
    (h1 : UserStored t m a ((file.drop i).take k) m1)
    (h2 : UserStored t m1 (a + pgSize) ((file.drop (i + pgSize)).take (len - pgSize)) m2) :
    UserStored t m a ((file.drop i).take len) m2 := by
  have hlen1 : ((file.drop i).take k).length = k := by
    rw [length_take]
    omega
  by_cases hlt : k < pgSize
  · have hz : len - pgSize = 0 := by
      have := hlast hlt
      omega
    rw [hz, take_zero] at h2
    have happ := h1.append (userStored_move h2)
    rw [append_nil, ← hlast hlt] at happ
    exact happ
  · have hkp : k = pgSize := by omega
    subst hkp
    have hadd : len = pgSize + (len - pgSize) := by omega
    rw [hadd, take_add, drop_drop]
    refine h1.append ?_
    rw [hlen1]
    exact h2

lemma loadsegLoop_sat (hf : FileAt s.fs ip file) (h : Space K L s.mem root tf n g t) (hg : n ≤ g)
    (hva : va % pgSize = 0)
    (hfit : va + sz ≤ n * pgSize) (c : Nat) {k : Nat} (hk : k + c = npages sz)
    (hoff : k = 0 ∨ c = 0 ∨ offset.toNat + k * pgSize ≤ file.length) :
    (loadsegLoop root va ip offset sz ((List.range' k c).map fun i => i * pgSize)).Sat s E fun r s' =>
      s'.fs = s.fs ∧ Space K L s'.mem root tf n g t ∧ Keeps L s.mem s'.mem ∧ (r = 0 ∨ r = -1) ∧
      (r = 0 → (sz ≤ k * pgSize ∨ offset.toNat + sz ≤ file.length) ∧
        UserStored t s.mem (va + k * pgSize)
        ((file.drop (offset.toNat + k * pgSize)).take (sz - k * pgSize)) s'.mem) := by
  have hn := h.n_le
  have hsmall : file.length ≤ 274432 := hf.small
  induction c generalizing k s with
  | zero =>
    have hz : sz - k * pgSize = 0 := by
      unfold npages pgSize at *
      omega
    refine sat_pure.mpr ⟨rfl, h, Keeps.refl _ _, .inl rfl, fun _ => ⟨.inl (by omega), ?_⟩⟩
    rw [hz, take_zero]
    exact userStored_nil _ _ _
  | succ c ih =>
    rw [List.range'_succ, map_cons]
    have hlt : k * pgSize < sz := by
      unfold npages pgSize at *
      omega
    have hpage : (va + k * pgSize) / pgSize < n := by
      unfold pgSize at *
      omega
    have hmod : (va + k * pgSize) % pgSize = 0 := by
      unfold pgSize at *
      omega
    have hu : UserAt t (va + k * pgSize) := h.userAt hpage (by omega)
    have hu64 : u64 (va + k * pgSize) = va + k * pgSize := by
      refine u64_of_lt ?_
      unfold pgSize at *
      omega
    have hsz : sz ≤ 2 ^ 27 := by
      unfold pgSize at *
      omega
    unfold loadsegLoop
    have hwalk : walkaddr root (va + k * pgSize) s.mem = _ := walkaddr_eq h.userTable.toWalkable
    rw [if_pos (show userPage t _ = true from hu)] at hwalk
    rw [sat_bind, sat_onMem, hu64, sat_of_eq hwalk, if_neg (h.userTable.pos _ hu)]
    -- The bytes of this page.
    generalize hcnt : (if sz - k * pgSize < pgSize then sz - k * pgSize else pgSize) = cnt
    have hcnt0 :
      0 < cnt ∧ cnt ≤ pgSize ∧ cnt ≤ sz - k * pgSize ∧ (cnt < pgSize → sz - k * pgSize = cnt) := by
      unfold pgSize at *
      split_ifs at hcnt <;> omega
    have hcnt32 : (UInt32.ofNat cnt).toNat = cnt := by
      rw [UInt32.toNat_ofNat']
      unfold pgSize at *
      omega
    have hoff32 : (offset + .ofNat (k * pgSize)).toNat = offset.toNat + k * pgSize := by
      have hlt32 := offset.toNat_lt
      rw [UInt32.toNat_add, UInt32.toNat_ofNat']
      rcases hoff with h0 | h0 | h0
      · subst h0
        omega
      · cases h0
      · unfold pgSize at *
        omega
    simp only [sat_bind, sat_read hf]
    rw [hoff32]
    generalize hr : readLen file.length (offset + .ofNat (k * pgSize)) (.ofNat cnt) = r
    rw [sat_onMem, sat_modifyState]
    have hrle : r ≤ cnt := hr ▸ (readLen_le _ _ _).trans_eq hcnt32
    have hdata :
      ((file.drop (offset.toNat + k * pgSize)).take r).length ≤
      pgSize - (va + k * pgSize) % pgSize := by
      rw [hmod, length_take]
      omega
    have hstore := h.userTable.store ((file.drop (offset.toNat + k * pgSize)).take r) hu hdata
    rw [hmod] at hstore
    have hmem : physPage t ((va + k * pgSize) / pgSize) ∈ users t 0 n := mem_users hpage
    obtain ⟨h1, hk1⟩ :=
      h.write_user hmem ((s.mem.page (physPage t ((va + k * pgSize) / pgSize))).patch 0
      ((file.drop (offset.toNat + k * pgSize)).take r))
    generalize s.mem.setPage (physPage t ((va + k * pgSize) / pgSize)) _ = m1 at hstore h1 hk1 ⊢
    by_cases hfull : r = cnt
    · subst hfull
      have hend := readLen_full (hr.trans hcnt32.symm) (by omega)
      rw [hoff32, hcnt32] at hend
      simp only [ne_eq, not_true_eq_false, if_false]
      refine (ih (s := ⟨s.fs, m1⟩) hf h1 (by omega) ?_).imp ?_
      · by_cases hlast : r < pgSize
        · have hr' := hcnt0.2.2.2 hlast
          refine .inr (.inl ?_)
          unfold npages pgSize at *
          omega
        · refine .inr (.inr ?_)
          rw [Nat.add_mul]
          omega
      · rintro e s' ⟨hfs, h', hk', he, hok⟩
        refine ⟨hfs, h', hk1.trans hk', he, fun h0 => ?_⟩
        obtain ⟨hbound, hst⟩ := hok h0
        have hnext : ∀ x, x + (k + 1) * pgSize = x + k * pgSize + pgSize :=
          fun x => by rw [Nat.add_mul, Nat.one_mul, Nat.add_assoc]
        have hrest : sz - (k + 1) * pgSize = sz - k * pgSize - pgSize := by
          rw [Nat.add_mul, Nat.one_mul, Nat.sub_add_eq]
        rw [hnext, hnext, hrest] at hst
        refine ⟨.inr ?_, userStored_pieces hcnt0.2.2.1 ?_ hcnt0.2.2.2 hcnt0.2.1 hstore hst⟩
        · rcases hbound with hb | hb
          · by_cases hlast : r < pgSize
            · have hr' := hcnt0.2.2.2 hlast
              omega
            · rw [Nat.add_mul] at hb
              omega
          · exact hb
        · rw [length_drop]
          omega
    · have hne : ((r : Nat) : Int) ≠ (cnt : Nat) := by omega
      simp only [ne_eq, hne, not_false_eq_true, if_true]
      exact sat_pure.mpr ⟨rfl, h1, hk1, .inr rfl, fun h0 => absurd h0 (by decide)⟩

lemma loadseg_sat {size : UInt32} (hf : FileAt s.fs ip file)
    (h : Space K L s.mem root tf n g t) (hg : n ≤ g) (hva : va % pgSize = 0)
    (hfit : va + size.toNat ≤ n * pgSize) : (loadseg root va ip offset size).Sat s E fun r s' =>
      s'.fs = s.fs ∧ Space K L s'.mem root tf n g t ∧ Keeps L s.mem s'.mem ∧ (r = 0 ∨ r = -1) ∧
      (r = 0 → (size.toNat = 0 ∨ offset.toNat + size.toNat ≤ file.length) ∧
        UserStored t s.mem va ((file.drop offset.toNat).take size.toNat) s'.mem) := by
  have hpages := pagesFrom_sz 0 size.toNat
  rw [Nat.zero_mul, Nat.sub_zero] at hpages
  unfold loadseg
  rw [hpages]
  refine (loadsegLoop_sat hf h hg hva hfit (npages size.toNat) (Nat.zero_add _) (.inl rfl)).imp ?_
  rintro r s' ⟨hfs, h', hk, hr, hok⟩
  refine ⟨hfs, h', hk, hr, fun h0 => ?_⟩
  obtain ⟨hb, hst⟩ := hok h0
  simp only [Nat.zero_mul, Nat.add_zero, Nat.sub_zero] at hb hst
  exact ⟨by omega, hst⟩

end

/-- The loaded part of a program, after the headers `phs`. -/
structure Image (K : KernelImage) (L : List Nat) (m₀ : Mem) (root tf g : Nat) (file : List UInt8)
    (phs : List ProgHdr) (sz : Nat) (m : Mem) (t : Radix Nat 2) : Prop where
  space : Space K L m root tf (npages sz) g t
  keeps : Keeps L m₀ m
  size : sz = imageSz phs
  fits : ∀ ph ∈ phs, ph.filesz ≤ ph.memsz
  bytes : ∀ a, a / pgSize < npages sz → m.user t a = imageOf file phs a
  flags : ∀ v < npages sz, pteFlags (t.val sv39 v) = pteR ||| pteU ||| pagePerm phs v ||| pteV

section

variable {K : KernelImage} {L : List Nat} {s : ExecSys} {m₀ m m' : Mem}
  {root tf g sz sz' ip r : Nat} {t t' : Radix Nat 2}
  {file : List UInt8} {phs : List ProgHdr} {ph : ProgHdr} {E : String → Prop}

variable {k a : Nat}

lemma user_of_same (h : SameBelow k t m t' m') (ha : a / pgSize < k) : m'.user t' a = m.user t a := by
  rw [Mem.user, Mem.user, h.phys ha, (h _ ha).2]

lemma user_of_zero {xperm : Nat} (h : ZeroPage xperm t m (a / pgSize)) : m.user t a = 0 := by
  have hlt : a % pgSize < 4096 := Nat.mod_lt a (by decide)
  rw [Mem.user, h.2, Bytes.get, dif_pos hlt]
  rfl

lemma le_of_npages_le (h : npages sz ≤ a / pgSize) : sz ≤ a := by
  unfold npages pgSize at h
  omega

lemma Image.grow (h : Image K L m₀ root tf g file phs sz m t)
    (hg : Grown K L m root tf g sz ph.memEnd (flags2perm ph.flags) t r m' sz' t') (hr : r ≠ 0) :
    sz' = r ∧ r = imageSz (phs ++ [ph]) ∧
    (∀ a, a / pgSize < npages r → m'.user t' a = imageOf file phs a) ∧ ∀ v < npages r,
    pteFlags (t'.val sv39 v) = pteR ||| pteU ||| pagePerm (phs ++ [ph]) v ||| pteV := by
  obtain ⟨rfl, hmax⟩ := hg.grown hr
  refine ⟨rfl, ?_, fun a ha => ?_, fun v hv => ?_⟩
  · rw [imageSz_snoc, ← h.size, hmax]
  · by_cases hold : a / pgSize < npages sz
    · rw [user_of_same hg.same hold, h.bytes a hold]
    · rw [user_of_zero (hg.zero _ (by omega) ha),
        imageOf_zero h.fits (h.size ▸ le_of_npages_le (by omega))]
  · by_cases hold : v < npages sz
    · rw [(hg.same v hold).1, h.flags v hold, pagePerm_snoc_old (h.size ▸ hold)]
    · have hnew : v < npages ph.memEnd := by
        by_cases hle : sz ≤ ph.memEnd
        · rwa [hmax, Nat.max_eq_right hle] at hv
        · rw [hmax, Nat.max_eq_left (by omega)] at hv
          omega
      rw [(hg.zero v (by omega) hv).1, pagePerm_snoc_new (h.size ▸ (by omega)) hnew]

lemma getD_take_drop {file : List UInt8} {i j : Nat} (hj : j < k) :
    ((file.drop i).take k).getD j 0 = file.getD (i + j) 0 := by
  rw [getD_eq_getElem?_getD, List.getElem?_take_of_lt hj, List.getElem?_drop, getD_eq_getElem?_getD]

lemma user_of_stored {n : Nat} (hs : Space K L m root tf n g t) (hng : n ≤ g)
    (hlen : ph.filesz = 0 ∨ ph.off % 2 ^ 32 + ph.filesz ≤ file.length)
    (hst : UserStored t m ph.vaddr ((file.drop (ph.off % 2 ^ 32)).take ph.filesz) m')
    (hold : ∀ a, a / pgSize < n → m.user t a = imageOf file phs a) (ha : a / pgSize < n) :
    m'.user t a = imageOf file (phs ++ [ph]) a := by
  have hu : UserAt t a := hs.userAt ha (by omega)
  have hl : ((file.drop (ph.off % 2 ^ 32)).take ph.filesz).length = ph.filesz := by
    rw [length_take, length_drop]
    omega
  rw [hst.bytes a hu, hl, imageOf_snoc, applySeg]
  by_cases hin : ph.vaddr ≤ a ∧ a < ph.vaddr + ph.filesz
  · rw [if_pos hin, if_pos hin, getD_take_drop (by omega)]
  · rw [if_neg hin, if_neg hin, hold a ha]

lemma leField_lt (b : List UInt8) (off k : Nat) : leField b off k < 256 ^ k := by
  have hlt := Bytes.leNat_lt ((b.drop off).take k)
  refine hlt.trans_le (Nat.pow_le_pow_right (by decide) ?_)
  rw [length_take]
  omega

/-- The loop over the program headers, by induction on how many are left. -/
lemma loadSegments_sat (count : Nat) {off : UInt32} (hf : FileAt s.fs ip file) (hgd : 32768 ≤ g)
    (h : Image K L m₀ root tf g file phs sz s.mem t) :
    (loadSegments K root ip count off sz).Sat s E fun r s' => s'.fs = s.fs ∧ Keeps L m₀ s'.mem ∧ ∃ t',
      Space K L s'.mem root tf (npages r.2) g t' ∧ (r.1 = true → Image K L m₀ root tf g file
        (phs ++ (fileHdrs file count off).filter fun ph => ph.type = elfProgLoad) r.2 s'.mem t') := by
  induction count generalizing off sz phs s t with
  | zero =>
    refine sat_pure.mpr ⟨rfl, h.keeps, t, h.space, fun _ => ?_⟩
    rw [fileHdrs, filter_nil, append_nil]
    exact h
  | succ count ih =>
    unfold loadSegments
    rw [sat_bind, sat_read hf]
    have hstop : ∀ {s' : ExecSys} {t' : Radix Nat 2} {sz' : Nat}, s'.fs = s.fs → Keeps L m₀ s'.mem →
      Space K L s'.mem root tf (npages sz') g t' →
      (pure (false, sz') : Kern ExecSys (Bool × Nat)).Sat s' E fun r s' => s'.fs = s.fs ∧
      Keeps L m₀ s'.mem ∧ ∃ t',
          Space K L s'.mem root tf (npages r.2) g t' ∧ (r.1 = true → Image K L m₀ root tf g file
            (phs ++ (fileHdrs file (count + 1) off).filter fun ph =>
              ph.type = elfProgLoad) r.2 s'.mem t') :=
      fun hfs hk hs => sat_pure.mpr ⟨hfs, hk, _, hs, nofun⟩
    generalize hlen : readLen file.length off (.ofNat proghdrSize) = len
    by_cases hfull : len = proghdrSize
    · subst hfull
      simp only [ne_eq, not_true_eq_false, if_false]
      generalize hph : ProgHdr.decode ((file.drop off.toNat).take proghdrSize) = ph
      have hhdrs :
        fileHdrs file (count + 1) off = ph :: fileHdrs file count (off + .ofNat proghdrSize) := by
        rw [fileHdrs, hph]
      by_cases htype : ph.type = elfProgLoad
      · rw [if_neg (not_not.mpr htype)]
        by_cases hmem : ph.memsz < ph.filesz
        · rw [if_pos hmem]
          exact hstop rfl h.keeps h.space
        rw [if_neg hmem]
        by_cases hwrap : u64 (ph.vaddr + ph.memsz) < ph.vaddr
        · rw [if_pos hwrap]
          exact hstop rfl h.keeps h.space
        rw [if_neg hwrap]
        by_cases halign : ph.vaddr % pgSize ≠ 0
        · rw [if_pos halign]
          exact hstop rfl h.keeps h.space
        rw [if_neg halign, sat_bind, sat_onMem]
        have hend : u64 (ph.vaddr + ph.memsz) = ph.memEnd := by
          have hv : ph.vaddr < 2 ^ 64 := hph ▸ leField_lt _ 16 8
          have hm : ph.memsz < 2 ^ 64 := hph ▸ leField_lt _ 40 8
          unfold u64 ProgHdr.memEnd at *
          omega
        rw [hend]
        refine (uvmalloc_sat h.space (flags2perm_lt _)).imp ?_
        rintro r m1 ⟨sz1, t1, hgr⟩
        by_cases hr : r = 0
        · rw [if_pos hr]
          have hs := hgr.space
          rw [hgr.failed hr] at hs
          exact hstop rfl (h.keeps.trans hgr.keeps) hs
        rw [if_neg hr]
        obtain ⟨rfl, hsz, hbytes, hflags⟩ := h.grow hgr hr
        have hs1 := hgr.space
        have hle := hs1.n_le
        have hfile : ph.vaddr + ph.filesz ≤ sz1 := by
          have hle := memEnd_le_imageSz (show ph ∈ phs ++ [ph] by simp)
          unfold ProgHdr.memEnd at hle
          omega
        have hpages : sz1 ≤ npages sz1 * pgSize := by
          unfold npages pgSize
          omega
        have hsize : (UInt32.ofNat ph.filesz).toNat = ph.filesz := by
          rw [UInt32.toNat_ofNat']
          unfold pgSize at hpages
          omega
        have hoff : (UInt32.ofNat ph.off).toNat = ph.off % 2 ^ 32 := UInt32.toNat_ofNat'
        rw [sat_bind]
        refine (loadseg_sat (s := ⟨s.fs, m1⟩) hf hs1 (by omega) (not_not.mp halign) (by omega)).imp ?_
        rintro e s2 ⟨hfs, h2, hk2, he, hok⟩
        have hkeep := (h.keeps.trans hgr.keeps).trans hk2
        rcases he with rfl | rfl
        · obtain ⟨hb, hst⟩ := hok rfl
          rw [hsize, hoff] at hb hst
          have hfits : ∀ x ∈ phs ++ [ph], x.filesz ≤ x.memsz := by
            intro x hx
            rcases mem_append.mp hx with hx | hx
            · exact h.fits x hx
            · rw [mem_singleton.mp hx]
              omega
          have himg : Image K L m₀ root tf g file (phs ++ [ph]) sz1 s2.mem t1 :=
            ⟨h2, hkeep, hsz, hfits, fun a ha => user_of_stored hs1 (by omega) hb hst hbytes ha, hflags⟩
          have hfil :
            (fileHdrs file (count + 1) off).filter (fun ph => decide (ph.type = elfProgLoad)) =
            ph :: (fileHdrs file count (off + .ofNat proghdrSize)).filter fun ph =>
            ph.type = elfProgLoad := by
            rw [hhdrs, filter_cons_of_pos (by simpa using htype)]
          rw [if_neg (by decide), hfil, append_cons, ← hfs]
          exact ih (hfs ▸ hf) himg
        · rw [if_pos (by decide)]
          exact hstop hfs hkeep h2
      · rw [if_pos htype]
        have hfil : (fileHdrs file (count + 1) off).filter (fun ph => decide (ph.type = elfProgLoad)) =
          (fileHdrs file count (off + .ofNat proghdrSize)).filter fun ph =>
          ph.type = elfProgLoad := by
          rw [hhdrs, filter_cons_of_neg (by simpa using htype)]
        rw [hfil]
        exact ih hf h
    · have hne : ((len : Nat) : Int) ≠ (proghdrSize : Nat) := by omega
      simp only [ne_eq, hne, not_false_eq_true, if_true]
      exact hstop rfl h.keeps h.space

def noGuard : Nat := 2 ^ 26

lemma npages_pgRoundUp (h : npages sz ≤ 32768) : npages (pgRoundUp sz) = npages sz ∧
    pgRoundUp sz = npages sz * pgSize := by
  have hsz := sz_lt_of_npages h
  have hup : pgRoundUp sz = npages sz * pgSize := pgRoundUp_eq (by unfold pgSize at hsz; omega)
  exact ⟨by rw [hup, npages_vpn], hup⟩

structure Program (K : KernelImage) (L : List Nat) (m₀ : Mem) (tf : Nat) (file : List UInt8)
    (root sz : Nat) (m : Mem) (t : Radix Nat 2) : Prop where
  space : Space K L m root tf (npages (imageSz (loadHdrs file)) + 2)
    (npages (imageSz (loadHdrs file))) t
  keeps : Keeps L m₀ m
  size : sz = (npages (imageSz (loadHdrs file)) + 2) * pgSize
  bytes : ∀ a, a / pgSize < npages (imageSz (loadHdrs file)) →
    m.user t a = imageOf file (loadHdrs file) a
  flags : ∀ v < npages (imageSz (loadHdrs file)),
    pteFlags (t.val sv39 v) = pteR ||| pteU ||| pagePerm (loadHdrs file) v ||| pteV

lemma stackPages_sat {phs : List ProgHdr} (h : Image K L m₀ root tf noGuard file phs sz m t) :
    (stackPages K root (pgRoundUp sz)).Sat m E fun r m' => Keeps L m₀ m' ∧
      (r = 0 → ∃ t', Space K L m' root tf (npages sz) noGuard t') ∧
      (r ≠ 0 → r = (npages sz + 2) * pgSize ∧ ∃ t',
        Space K L m' root tf (npages sz + 2) (npages sz) t' ∧
        (∀ a, a / pgSize < npages sz → m'.user t' a = imageOf file phs a) ∧
        ∀ v < npages sz, pteFlags (t'.val sv39 v) = pteR ||| pteU ||| pagePerm phs v ||| pteV) := by
  have hn := h.space.n_le
  obtain ⟨hnp, hup⟩ := npages_pgRoundUp hn
  have hnew : u64 (pgRoundUp sz + 2 * pgSize) = (npages sz + 2) * pgSize := by
    rw [hup, ← Nat.add_mul]
    refine u64_of_lt ?_
    unfold pgSize
    omega
  have hmax : max (pgRoundUp sz) ((npages sz + 2) * pgSize) = (npages sz + 2) * pgSize := by
    rw [hup]
    exact Nat.max_eq_right (Nat.mul_le_mul_right _ (by omega))
  have hs := h.space
  rw [← hnp] at hs
  unfold stackPages
  rw [hnew]
  refine (uvmalloc_sat hs (by decide)).bind ?_
  rintro r m1 ⟨sz1, t1, hg⟩
  by_cases hr : r = 0
  · have hs1 := hg.space
    rw [hg.failed hr, hnp] at hs1
    rw [if_pos hr]
    exact sat_pure.mpr ⟨h.keeps.trans hg.keeps, fun _ => ⟨t1, hs1⟩, fun h0 => absurd rfl h0⟩
  obtain ⟨rfl, he⟩ := hg.grown hr
  rw [hmax] at he
  have hs1 := hg.space
  rw [he, npages_vpn] at hs1
  have hguard : sz1 - 2 * pgSize = npages sz * pgSize := by
    rw [he, Nat.add_mul, Nat.add_sub_cancel]
  rw [if_neg hr, hguard]
  refine (uvmclear_sat hs1 (by have := hs1.n_le; unfold noGuard; omega) (by omega)).bind ?_
  rintro _ m2 ⟨t2, hs2, hk2, hval⟩
  have hkeep := (h.keeps.trans hg.keeps).trans (hk2.mono (subset_append_right _ _))
  have hsame : SameBelow (npages sz) t m t2 m2 := by
    have h1 : SameBelow (npages sz) t m t1 m1 := hnp ▸ hg.same
    refine h1.trans (Keeps.sameBelow (hk2.mono fun q hq => mem_append_left _ ?_) fun v hv =>
      hval v (by omega) (by omega))
    rw [users_add]
    exact mem_append_left _ hq
  refine sat_pure.mpr
    ⟨hkeep, fun h0 => absurd h0 hr, fun _ => ⟨he, t2, hs2, fun a ha => ?_, fun v hv => ?_⟩⟩
  · rw [user_of_same hsame ha, h.bytes a ha]
  · rw [(hsame v hv).1, h.flags v hv]

lemma load_sat (hf : FileAt s.fs ip file) (ha : Acct K s.mem L) (htf : tf < physTop) :
    (load K tf ip).Sat s E fun r s' => s'.fs = s.fs ∧ Keeps L s.mem s'.mem ∧
      match r with
      | none => Acct K s'.mem L
      | some (entry, root, sz) => entry = (ElfHdr.decode (file.take elfhdrSize)).entry ∧
        ∃ t, Program K L s.mem tf file root sz s'.mem t := by
  unfold load
  rw [sat_bind, sat_read hf]
  generalize hlen : readLen file.length 0 (.ofNat elfhdrSize) = len
  by_cases hfull : len = elfhdrSize
  · subst hfull
    have hdrop : (file.drop (0 : UInt32).toNat).take elfhdrSize = file.take elfhdrSize := rfl
    simp only [ne_eq, not_true_eq_false, if_false, hdrop]
    by_cases hmagic : (ElfHdr.decode (file.take elfhdrSize)).magic = elfMagic
    · simp only [hmagic, not_true_eq_false, if_false]
      rw [sat_bind, sat_onMem]
      refine (procPagetable_sat (g := noGuard) ha htf).imp ?_
      rintro r m1 ⟨hk1, -, hr⟩
      cases r with
      | none => exact sat_pure.mpr ⟨rfl, hk1, hr⟩
      | some root =>
        obtain ⟨t1, hs1⟩ := hr
        have himg : Image K L s.mem root tf noGuard file [] 0 m1 t1 := by
          refine ⟨hs1, hk1, rfl, nofun, fun a ha => ?_, fun v hv => ?_⟩
          · exact absurd ha (Nat.not_lt_zero _)
          · exact absurd hv (Nat.not_lt_zero _)
        rw [sat_bind]
        refine (loadSegments_sat (s := ⟨s.fs, m1⟩) _ hf (by decide) himg).imp ?_
        rintro ⟨ok, sz⟩ s2 ⟨hfs, hk2, t2, hs2, hok⟩
        cases ok with
        | false =>
          simp only [if_true]
          rw [sat_bind, sat_onMem]
          refine (procFreepagetable_sat hs2).imp ?_
          rintro _ m3 ⟨ha3, hk3⟩
          exact sat_pure.mpr ⟨hfs, hk2.trans hk3, ha3⟩
        | true =>
          have h2 := hok rfl
          rw [nil_append] at h2
          simp only [Bool.true_eq_false, if_false]
          rw [sat_bind, sat_onMem]
          refine (stackPages_sat h2).imp ?_
          rintro r m3 ⟨hk3, hfail, hgood⟩
          by_cases hr : r = 0
          · obtain ⟨t3, hs3⟩ := hfail hr
            rw [← (npages_pgRoundUp h2.space.n_le).1] at hs3
            rw [if_pos hr, sat_bind, sat_onMem]
            refine (procFreepagetable_sat hs3).imp ?_
            rintro _ m4 ⟨ha4, hk4⟩
            exact sat_pure.mpr ⟨hfs, hk3.trans hk4, ha4⟩
          · obtain ⟨hsz, t3, hs3, hbytes, hflags⟩ := hgood hr
            have hsz2 : sz = imageSz (loadHdrs file) := h2.size
            subst hsz2
            rw [if_neg hr]
            exact sat_pure.mpr ⟨hfs, hk3, rfl, t3, hs3, hk3, hsz, hbytes, hflags⟩
    · simp only [hmagic, not_false_eq_true, if_true]
      exact sat_pure.mpr ⟨rfl, Keeps.refl _ _, ha⟩
  · have hne : ((len : Nat) : Int) ≠ (elfhdrSize : Nat) := by omega
    simp only [ne_eq, hne, not_false_eq_true, if_true]
    exact sat_pure.mpr ⟨rfl, Keeps.refl _ _, ha⟩

end

end ExecSys

end Xv6
