import Xv6.FileMap

/-! File contents: what `readi` returns, what `writei` leaves behind, and `itrunc`. -/

namespace Xv6

open Kern List
open Function (comp_def update update_eq_self update_of_ne update_self)

/-- The byte at `off` of a file; 0 in a hole. -/
def fileByte (disk : Disk) (d : Dinode) (x : Nat) : UInt8 :=
  ((fileBlock disk d (x / bsize)).getD (Bytes.fill bsize 0)).get (x % bsize)

def fileSlice (disk : Disk) (d : Dinode) (off n : Nat) : List UInt8 :=
  (List.range n).map fun j => fileByte disk d (off + j)

/-- Every block below the size of the file is mapped. -/
structure Solid (disk : Disk) (d : Dinode) : Prop where
  size_le : d.size ≤ maxfile * bsize
  mapped : ∀ bn, bn * bsize < d.size → fileBlock disk d bn ≠ none

variable {x off m : Nat}

lemma Solid.at {disk : Disk} {d : Dinode} (h : Solid disk d) (hx : x < d.size) :
    fileBlock disk d (x / bsize) ≠ none :=
  h.mapped _ (Nat.lt_of_le_of_lt (Nat.div_mul_le_self x bsize) hx)

lemma fileSlice_append (disk : Disk) (d : Dinode) (off m n : Nat) :
    fileSlice disk d off (m + n) = fileSlice disk d off m ++ fileSlice disk d (off + m) n := by
  unfold fileSlice
  rw [range_add, map_append, map_map]
  simp [comp_def, Nat.add_assoc]

lemma chunk_pos {rem : Nat} (off : Nat) (h : rem ≠ 0) : 0 < min rem (bsize - off % bsize) := by
  have hm : off % bsize < bsize := Nat.mod_lt _ (by decide)
  omega

lemma chunk_div (hm : m ≤ bsize - off % bsize) (h1 : off ≤ x) (h2 : x < off + m) :
    x / bsize = off / bsize ∧ x % bsize = off % bsize + (x - off) := by
  have hpos : 0 < bsize := by decide
  have hlt : off % bsize < bsize := Nat.mod_lt _ hpos
  have hoff := Nat.div_add_mod off bsize
  have hx : x = bsize * (off / bsize) + (off % bsize + (x - off)) := by omega
  have hsmall : off % bsize + (x - off) < bsize := by omega
  constructor
  · conv_lhs => rw [hx]
    rw [Nat.mul_add_div hpos, Nat.div_eq_of_lt hsmall, Nat.add_zero]
  · conv_lhs => rw [hx]
    rw [Nat.mul_add_mod, Nat.mod_eq_of_lt hsmall]

lemma fileSlice_chunk {disk : Disk} {d : Dinode} {a : Nat} (hm : m ≤ bsize - off % bsize)
    (ha : slotAddr disk d (slotOf (off / bsize)) = a) (ha0 : a ≠ 0) :
    fileSlice disk d off m = (disk a).slice (off % bsize) m := by
  unfold fileSlice Bytes.slice
  apply map_congr_left
  intro j hj
  rw [mem_range] at hj
  obtain ⟨hdiv, hmod⟩ := chunk_div (x := off + j) hm (by omega) (by omega)
  rw [fileByte, hdiv, hmod, fileBlock_of_addr ha ha0, Nat.add_sub_cancel_left]
  rfl

section

variable {ip : Nat} {s : Fs} {E : String → Prop}

lemma bmap_mapped {bn : Nat} (hbn : bn < maxfile)
    (h : fileBlock s.disk (s.itable ip).din bn ≠ none) : Sat (bmap ip bn) s E fun a s' =>
      s' = s ∧ a ≠ 0 ∧ slotAddr s.disk (s.itable ip).din (slotOf bn) = a := by
  have hne : slotAddr s.disk (s.itable ip).din (slotOf bn) ≠ 0 := fun hz => h (fileBlock_eq_none.mpr hz)
  unfold bmap
  by_cases hd : bn < ndirect
  · have hslot : slotOf bn = bn := if_pos hd
    rw [hslot, slotAddr_of_le (Nat.le_of_lt hd)] at hne ⊢
    rw [if_pos hd, bmapAddr, sat_bind, sat_getState, if_neg hne, sat_pure]
    exact ⟨rfl, hne, rfl⟩
  · have hj : bn - ndirect < nindirect := by
      simp only [maxfile] at hbn
      omega
    have hslot : slotOf bn = ndirect + 1 + (bn - ndirect) := by
      rw [slotOf, if_neg hd]
      omega
    have hind : (s.itable ip).din.addrs ndirect ≠ 0 := by
      intro hz
      rw [hslot, slotAddr, if_neg (by omega), if_pos (Or.inl hz)] at hne
      exact hne rfl
    rw [hslot, slotAddr_word _ hind hj] at hne ⊢
    rw [if_neg hd, if_pos hj, sat_bind, bmapAddr, sat_bind, sat_getState, if_neg hind, sat_pure,
      if_neg hind, bmapWord, sat_bind, sat_getState, if_neg hne, sat_pure]
    exact ⟨rfl, hne, rfl⟩

lemma eitherCopyout_eq (dst : Dst) (pos : Nat) (l : List UInt8) :
    (eitherCopyout dst pos l = l ∧ ∀ j < l.length, dst (pos + j) = true) ∨
      ∃ k < l.length, eitherCopyout dst pos l = l.take k ∧ dst (pos + k) = false ∧
        ∀ j < k, dst (pos + j) = true := by
  induction l generalizing pos with
  | nil => exact .inl ⟨rfl, fun j hj => absurd hj (Nat.not_lt_zero j)⟩
  | cons v l ih =>
    by_cases hd : dst pos = true
    · have hstep :
        ∀ k, (∀ j < k, dst (pos + 1 + j) = true) → ∀ j < k + 1, dst (pos + j) = true := by
        intro k hall j hj
        cases j with
        | zero => exact hd
        | succ j =>
          have h1 := hall j (by omega)
          rwa [Nat.add_right_comm] at h1
      rw [eitherCopyout, if_pos hd]
      rcases ih (pos + 1) with ⟨he, hall⟩ | ⟨k, hk, he, hf, hall⟩
      · exact .inl ⟨by rw [he], hstep _ hall⟩
      · refine .inr ⟨k + 1, by simpa using hk, by rw [he, take_succ_cons], ?_, hstep _ hall⟩
        rwa [Nat.add_right_comm] at hf
    · rw [eitherCopyout, if_neg hd]
      exact .inr ⟨0, by simp, rfl, by simpa using hd, fun j hj => absurd hj (Nat.not_lt_zero j)⟩

/-- What the loop of `readi` returns: all it was asked for, or -1 after the bytes before one
that cannot be stored. -/
lemma readLoop_any (dst : Dst) (rem off tot : Nat) (out : List UInt8)
    (hoff : off + rem ≤ maxfile * bsize)
    (hmap : ∀ x, off ≤ x → x < off + rem → fileBlock s.disk (s.itable ip).din (x / bsize) ≠ none) :
    Sat (readLoop ip dst rem off tot out) s E fun r s' => s' = s ∧
      ((r = (((tot + rem : Nat) : Int), out ++ fileSlice s.disk (s.itable ip).din off rem) ∧
          ∀ j < rem, dst (tot + j) = true) ∨
        r.1 = -1 ∧ ∃ k < rem, r.2 = out ++ fileSlice s.disk (s.itable ip).din off k ∧
          dst (tot + k) = false ∧ ∀ j < k, dst (tot + j) = true) := by
  induction rem using Nat.strong_induction_on generalizing off tot out with
  | h rem ih =>
    rw [readLoop]
    by_cases hrem : rem = 0
    · subst hrem
      rw [dif_pos rfl, sat_pure]
      exact ⟨rfl, .inl ⟨by simp [fileSlice], fun j hj => absurd hj (Nat.not_lt_zero j)⟩⟩
    · have hbn : off / bsize < maxfile := Nat.div_lt_of_lt_mul (by rw [Nat.mul_comm]; omega)
      have hpos := chunk_pos off hrem
      rw [dif_neg hrem]
      refine (bmap_mapped hbn (hmap off le_rfl (by omega))).bind ?_
      rintro a s1 ⟨rfl, ha0, ha⟩
      rw [if_neg ha0, sat_bind, sat_getState]
      set m := min rem (bsize - off % bsize) with hm
      have hchunk := fileSlice_chunk (m := m) (by omega) ha ha0
      dsimp only
      rw [← hchunk]
      have hlen : (fileSlice s1.disk (s1.itable ip).din off m).length = m := by simp [fileSlice]
      have htake : ∀ k ≤ m, (fileSlice s1.disk (s1.itable ip).din off m).take k =
          fileSlice s1.disk (s1.itable ip).din off k := by
        intro k hk
        rw [fileSlice, ← map_take, take_range, Nat.min_eq_left hk, fileSlice]
      rcases eitherCopyout_eq dst tot (fileSlice s1.disk (s1.itable ip).din off m) with
        ⟨he, hall⟩ | ⟨k, hk, he, hf, hall⟩
      · have hstep : ∀ k, (∀ j < k, dst (tot + m + j) = true) → ∀ j < m + k,
          dst (tot + j) = true := by
          intro k hnext j hj
          by_cases hjm : j < m
          · exact hall j (by omega)
          · have h1 := hnext (j - m) (by omega)
            rwa [Nat.add_assoc, Nat.add_sub_cancel' (by omega)] at h1
        rw [he, if_neg (by omega)]
        refine (ih (rem - m) (by omega) (off + m) (tot + m) _ (by omega) fun x h1 h2 =>
          hmap x (by omega) (by omega)).imp ?_
        rintro r s' ⟨rfl, hr⟩
        refine ⟨rfl, ?_⟩
        rcases hr with ⟨rfl, hnext⟩ | ⟨hr1, k, hk, hr2, hf, hnext⟩
        · refine .inl ⟨?_, fun j hj => hstep _ hnext j (by omega)⟩
          have hsplit := fileSlice_append s'.disk (s'.itable ip).din off m (rem - m)
          rw [Nat.add_sub_cancel' (by omega)] at hsplit
          rw [hsplit, append_assoc]
          congr 2
          omega
        · refine .inr ⟨hr1, m + k, by omega, ?_, ?_, hstep k hnext⟩
          · rw [hr2, fileSlice_append, append_assoc]
          · rwa [← Nat.add_assoc]
      · rw [hlen] at hk
        rw [he, length_take, hlen, Nat.min_eq_left (Nat.le_of_lt hk), if_pos hk, sat_pure]
        refine ⟨rfl, .inr ⟨rfl, k, by omega, ?_, hf, hall⟩⟩
        rw [htake k (Nat.le_of_lt hk)]

/-- How many bytes `readi` reads. -/
def readLen (size : Nat) (off n : UInt32) : Nat :=
  if off.toNat > size ∨ off + n < off then 0 else min n.toNat (size - off.toNat)

def ReadResult (disk : Disk) (d : Dinode) (dst : Dst) (off k : Nat) (r : Int × List UInt8) : Prop :=
  (r = ((k : Int), fileSlice disk d off k) ∧ ∀ j < k, dst j = true) ∨
    r.1 = -1 ∧ ∃ j < k, r.2 = fileSlice disk d off j ∧ dst j = false ∧ ∀ i < j, dst i = true

lemma add_toNat_of_not_lt {off n : UInt32} (h : ¬ off + n < off) :
    (off + n).toNat = off.toNat + n.toNat := by
  rw [UInt32.lt_iff_toNat_lt, UInt32.toNat_add] at h
  rw [UInt32.toNat_add]
  have h1 := off.toNat_lt
  have h2 := n.toNat_lt
  omega

lemma readi_mapped (hsize : (s.itable ip).din.size ≤ maxfile * bsize) (dst : Dst) (off n : UInt32)
    (hmap : ∀ x, off.toNat ≤ x → x < off.toNat + readLen (s.itable ip).din.size off n →
      fileBlock s.disk (s.itable ip).din (x / bsize) ≠ none) :
    Sat (readi ip dst off n) s E fun r s' => s' = s ∧
      ReadResult s.disk
      (s.itable ip).din dst off.toNat (readLen (s.itable ip).din.size off n) r := by
  unfold readi
  rw [sat_bind, sat_getState]
  by_cases hc : off.toNat > (s.itable ip).din.size ∨ off + n < off
  · rw [if_pos hc, sat_pure, readLen, if_pos hc]
    exact ⟨rfl, .inl ⟨rfl, fun j hj => absurd hj (Nat.not_lt_zero j)⟩⟩
  · rw [if_neg hc]
    obtain ⟨h1, h2⟩ := not_or.mp hc
    have hsum := add_toNat_of_not_lt h2
    have hlen :
      readLen (s.itable ip).din.size off n = min n.toNat ((s.itable ip).din.size - off.toNat) :=
      if_neg hc
    have hloop : ∀ k, k = readLen (s.itable ip).din.size off n →
        Sat (readLoop ip dst k off.toNat 0 []) s E fun r s' => s' = s ∧
          ReadResult s.disk
          (s.itable ip).din dst off.toNat (readLen (s.itable ip).din.size off n) r := by
      rintro k rfl
      refine (readLoop_any dst _ _ 0 [] (by omega) hmap).imp fun r s' h => ⟨h.1, ?_⟩
      simpa [ReadResult] using h.2
    by_cases hbig : (off + n).toNat > (s.itable ip).din.size
    · rw [if_pos hbig]
      exact hloop _ (by omega)
    · rw [if_neg hbig]
      exact hloop _ (by omega)

lemma readi_any (hs : Solid s.disk (s.itable ip).din) (dst : Dst) (off n : UInt32) :
    Sat (readi ip dst off n) s E fun r s' => s' = s ∧
      ReadResult s.disk
      (s.itable ip).din dst off.toNat (readLen (s.itable ip).din.size off n) r := by
  refine readi_mapped hs.size_le dst off n fun x h1 h2 => hs.at ?_
  rw [readLen] at h2
  split at h2
  · omega
  · omega

lemma readi_sat (hs : Solid s.disk (s.itable ip).din) (dst : Dst) (off n : UInt32) :
    Sat (readi ip dst off n) s E fun r s' => s' = s ∧
      (dst = kernelDst → r = ((readLen (s.itable ip).din.size off n : Int),
        fileSlice s.disk (s.itable ip).din off.toNat (readLen (s.itable ip).din.size off n))) := by
  refine (readi_any hs dst off n).imp fun r s' h => ⟨h.1, fun hd => ?_⟩
  subst hd
  exact (h.2.resolve_right fun ⟨_, _, _, _, hf, _⟩ => Bool.noConfusion hf).1

end

section

variable {I : Nat → Dinode} {L : List Nat} {ip : Nat} {s s' s'' : Fs} {E : Panics} {src : Src}
  {k tot rem : Nat}

lemma eitherCopyin_length_le (src : Src) (pos len : Nat) : (eitherCopyin src pos len).length ≤ len := by
  induction len generalizing pos with
  | zero => simp [eitherCopyin]
  | succ len ih =>
    cases hsrc : src pos with
    | none => simp [eitherCopyin, hsrc]
    | some v =>
      simp only [eitherCopyin, hsrc, length_cons]
      have hlen := ih (pos + 1)
      omega

lemma eitherCopyin_getD (src : Src) (pos len : Nat) {j : Nat}
    (hj : j < (eitherCopyin src pos len).length) :
    (eitherCopyin src pos len).getD j 0 = (src (pos + j)).getD 0 := by
  induction len generalizing pos j with
  | zero => simp [eitherCopyin] at hj
  | succ len ih =>
    cases hsrc : src pos with
    | none => simp [eitherCopyin, hsrc] at hj
    | some v =>
      simp only [eitherCopyin, hsrc, length_cons] at hj ⊢
      cases j with
      | zero => simp [hsrc]
      | succ j =>
        rw [getD_cons_succ, ih (pos + 1) (by omega)]
        congr 2
        omega

lemma eitherCopyin_length {pos len : Nat} (h : ∀ j, pos ≤ j → j < pos + len → src j ≠ none) :
    (eitherCopyin src pos len).length = len := by
  induction len generalizing pos with
  | zero => rfl
  | succ len ih =>
    cases hsrc : src pos with
    | none => exact absurd hsrc (h pos (Nat.le_refl _) (by omega))
    | some v =>
      simp only [eitherCopyin, hsrc, length_cons]
      rw [ih fun j h1 h2 => h j (by omega) (by omega)]

lemma Editing.slotAddr_put (he : Editing I L ip s) {bn a : Nat}
    (ha : slotAddr s.disk (s.itable ip).din (slotOf bn) = a) (ha0 : a ≠ 0) (v : Block) (k : Nat) :
    slotAddr (update s.disk a v) (s.itable ip).din k = slotAddr s.disk (s.itable ip).din k := by
  refine slotAddr_congr (fun hne => update_of_ne (fun heq => slotOf_ne bn ?_) _ _) k
  exact he.slot_inj ha ((slotAddr_of_le (Nat.le_refl _)).trans heq) ha0

lemma Editing.writeData (he : Editing I L ip s) {bn a : Nat}
    (ha : slotAddr s.disk (s.itable ip).din (slotOf bn) = a) (ha0 : a ≠ 0) (v : Block) (lg : List Nat) :
    OnInode I L ip s { s with disk := update s.disk a v, logged := lg } ∧
    ∀ bn', fileBlock (update s.disk a v) (s.itable ip).din bn' =
      if bn' = bn then some v else fileBlock s.disk (s.itable ip).din bn' := by
  have hown := he.owns ha ha0
  have hpool := he.own.owned_pool hown
  obtain ⟨hown', -⟩ := he.own.setData he.layout v (.inr ⟨_, hown, slotOf_ne bn⟩)
  have hupd : update I (s.itable ip).inum (s.itable ip).din = I := by
    rw [← he.view, update_eq_self]
  have hslot := he.slotAddr_put ha ha0 v
  refine ⟨⟨rfl, rfl, fun _ _ => rfl, rfl, ?_, rfl, ?_, ?_⟩, fun bn' => ?_⟩
  · show Own s.sb _ (update I (s.itable ip).inum (s.itable ip).din) L
    rw [hupd]
    exact hown'
  · intro o x ho hne
    refine update_of_ne (fun heq => hne ?_) _ _
    rw [heq] at ho
    exact congrArg Prod.fst (he.own.ledger.single _ _ _ ho hown)
  · intro x hx
    have hb := he.layout.bmap_lt hpool.2
    have hge := hpool.1
    exact update_of_ne (by omega) _ _
  · by_cases hbn : bn' = bn
    · subst hbn
      rw [if_pos rfl, fileBlock_of_addr ((hslot _).trans ha) ha0, update_self]
    · rw [if_neg hbn]
      exact fileBlock_congr (hslot _) fun hk => update_of_ne (fun heq =>
        hbn (slotOf_inj (he.slot_inj heq ha ha0))) _ _

lemma Mapped.patched {s1 : Fs} {bn a : Nat} (h : Mapped I L ip bn s s1 a) (he : Editing I L ip s)
    (ha0 : a ≠ 0) (x : Nat) (data : List UInt8) (bn' : Nat) :
    fileBlock (update s1.disk a ((s1.disk a).patch x data)) (s1.itable ip).din bn' = if bn' = bn then
      some (((fileBlock s.disk (s.itable ip).din bn).getD (Bytes.fill bsize 0)).patch x data)
    else fileBlock s.disk (s.itable ip).din bn' := by
  have hcont := h.blocks ha0 bn
  rw [if_pos rfl, fileBlock_of_addr (h.addr ha0) ha0] at hcont
  rw [((h.on.editing he).writeData (h.addr ha0) ha0 _ []).2 bn', Option.some.inj hcont]
  by_cases hb : bn' = bn
  · rw [if_pos hb, if_pos hb]
  · rw [if_neg hb, if_neg hb, h.blocks ha0, if_neg hb]

lemma fileByte_patch {disk disk' : Disk} {d d' : Dinode} {off : Nat} {data : List UInt8}
    (hlen : data.length ≤ bsize - off % bsize)
    (h : ∀ bn, fileBlock disk' d' bn = if bn = off / bsize then
      some (((fileBlock disk d (off / bsize)).getD (Bytes.fill bsize 0)).patch (off % bsize) data)
      else fileBlock disk d bn) (x : Nat) : fileByte disk' d' x =
      if off ≤ x ∧ x < off + data.length then data.getD (x - off) 0 else fileByte disk d x := by
  have hmod : x % bsize < bsize := Nat.mod_lt _ (by decide)
  unfold fileByte
  rw [h]
  by_cases hx : off ≤ x ∧ x < off + data.length
  · obtain ⟨hdiv, hm⟩ := chunk_div hlen hx.1 hx.2
    rw [if_pos hdiv, if_pos hx, Option.getD_some, Bytes.get_patch _ _ _ hmod, if_pos (by omega), hm,
      Nat.add_sub_cancel_left]
  · rw [if_neg hx]
    by_cases hdiv : x / bsize = off / bsize
    · have h1 := Nat.div_add_mod x bsize
      have h2 := Nat.div_add_mod off bsize
      rw [hdiv] at h1
      rw [if_pos hdiv, hdiv, Option.getD_some, Bytes.get_patch_of_not_mem _ (by omega)]
    · rw [if_neg hdiv]

lemma eitherCopyin_readable (pos len : Nat) :
    ∀ j < (eitherCopyin src pos len).length, src (pos + j) ≠ none := by
  induction len generalizing pos with
  | zero => exact fun j hj => absurd hj (Nat.not_lt_zero j)
  | succ len ih =>
    cases hsrc : src pos with
    | none => simp [eitherCopyin, hsrc]
    | some v =>
      intro j hj
      cases j with
      | zero => simp [hsrc]
      | succ j =>
        have hlt : j < (eitherCopyin src (pos + 1) len).length := by
          simpa [eitherCopyin, hsrc] using hj
        have h1 := ih (pos + 1) j hlt
        rwa [Nat.add_right_comm] at h1

structure Counted (ip off w : Nat) (s s' : Fs) : Prop where
  recorded : Recorded s s'
  outside : ∀ x, ¬ (off ≤ x ∧ x < off + w) →
    fileByte s'.disk (s'.itable ip).din x = fileByte s.disk (s.itable ip).din x

def lastCopy (src : Src) (off tot w rem : Nat) : List UInt8 :=
  eitherCopyin src (tot + w) (min (rem - w) (bsize - (off + w) % bsize))

structure Faulted (ip : Nat) (src : Src) (rem off tot w : Nat) (s s₁ s' : Fs) : Prop where
  lt : w < rem
  start : w = 0 ∨ (off + w) % bsize = 0
  read : ∀ j < w, src (tot + j) ≠ none
  short : (lastCopy src off tot w rem).length < min (rem - w) (bsize - (off + w) % bsize)
  counted : Counted ip off w s s₁
  mapped : slotAddr s₁.disk (s₁.itable ip).din (slotOf ((off + w) / bsize)) ≠ 0
  pool : InPool s₁.sb (slotAddr s₁.disk (s₁.itable ip).din (slotOf ((off + w) / bsize)))
  fresh : slotAddr s.disk (s.itable ip).din (slotOf ((off + w) / bsize)) = 0 →
    slotAddr s₁.disk (s₁.itable ip).din (slotOf ((off + w) / bsize)) ∈ s₁.logged
  kept : BlockKept ip ((off + w) / bsize) s s₁
  stored : s' = s₁.setBlock (slotAddr s₁.disk (s₁.itable ip).din (slotOf ((off + w) / bsize)))
    ((s₁.disk (slotAddr s₁.disk (s₁.itable ip).din (slotOf ((off + w) / bsize)))).patch
      ((off + w) % bsize) (lastCopy src off tot w rem))
  bytes : ∀ x, fileByte s'.disk (s'.itable ip).din x =
    if off + w ≤ x ∧ x < off + w + (lastCopy src off tot w rem).length then
      (lastCopy src off tot w rem).getD (x - (off + w)) 0
    else fileByte s₁.disk (s₁.itable ip).din x

lemma Counted.trans {w : Nat} (h : Counted ip off k s s') (h' : Counted ip (off + k) w s' s'') :
    Counted ip off (k + w) s s'' := by
  refine ⟨h.recorded.trans h'.recorded, fun x hx => ?_⟩
  rw [h'.outside x (by omega), h.outside x (by omega)]

lemma lastCopy_shift (src : Src) (off tot w rem k : Nat) :
    lastCopy src (off + k) (tot + k) w (rem - k) = lastCopy src off tot (k + w) rem := by
  rw [lastCopy, lastCopy, Nat.add_assoc, Nat.add_assoc, Nat.sub_sub]

lemma Faulted.shift {w : Nat} {s₀ s₁ : Fs} (hc : Counted ip off k s₀ s) (hk : (off + k) % bsize = 0)
    (hread : ∀ j < k, src (tot + j) ≠ none)
    (h0 : slotAddr s₀.disk (s₀.itable ip).din (slotOf ((off + k + w) / bsize)) = 0 →
      slotAddr s.disk (s.itable ip).din (slotOf ((off + k + w) / bsize)) = 0)
    (hkept : BlockKept ip ((off + k + w) / bsize) s₀ s)
    (h : Faulted ip src (rem - k) (off + k) (tot + k) w s s₁ s') :
    Faulted ip src rem off tot (k + w) s₀ s₁ s' := by
  have hlt := h.lt
  have hshort := h.short
  have hmapped := h.mapped
  have hpool := h.pool
  have hfresh := h.fresh
  have hk' := h.kept
  have hstored := h.stored
  have hbytes := h.bytes
  have hstart := h.start
  rw [lastCopy_shift, Nat.sub_sub] at hshort
  simp only [lastCopy_shift] at hstored hbytes
  rw [Nat.add_assoc] at hshort hmapped hpool hfresh hk' hstored h0 hkept hstart
  refine ⟨by omega, ?_, fun j hj => ?_, hshort, hc.trans h.counted, hmapped, hpool,
    fun hz => hfresh (h0 hz), hkept.trans hk', hstored, fun x => ?_⟩
  · rcases hstart with rfl | hstart
    · exact .inr hk
    · exact .inr hstart
  · by_cases hjk : j < k
    · exact hread j hjk
    · have hr := h.read (j - k) (by omega)
      rwa [Nat.add_assoc, Nat.add_sub_cancel' (by omega)] at hr
  · have hx := hbytes x
    rwa [Nat.add_assoc] at hx

lemma BlockKept.put (he : Editing I L ip s) {bn bn' a : Nat}
    (ha : slotAddr s.disk (s.itable ip).din (slotOf bn) = a) (ha0 : a ≠ 0) (v : Block)
    (hne : bn' ≠ bn) :
    BlockKept ip bn' s { s with disk := update s.disk a v, logged := logAbsorb s.logged a } := by
  intro h0
  refine ⟨he.slotAddr_put ha ha0 v _, fun hmem => (mem_logAbsorb.mp hmem).resolve_right
    fun heq => hne (slotOf_inj (he.slot_inj heq ha ha0))⟩

/-- What the loop of `writei` has done when it has written `w` bytes at `off`. A copy
that faults leaves up to one chunk of changed bytes behind, `w' - w` of them. -/
structure Wrote (I : Nat → Dinode) (L : List Nat) (ip : Nat) (src : Src)
    (rem off tot : Nat) (s s' : Fs) (w : Nat) : Prop where
  on : OnInode I L ip s s'
  head : (s'.itable ip).din.head = (s.itable ip).din.head
  le : w ≤ rem
  mapped : ∀ bn, fileBlock s.disk (s.itable ip).din bn ≠ none →
    fileBlock s'.disk (s'.itable ip).din bn ≠ none
  filled : ∀ x, off ≤ x → x < off + w → fileBlock s'.disk (s'.itable ip).din (x / bsize) ≠ none
  bytes : ∃ w' ≥ w, ((∀ j, src j ≠ none) → w' = w) ∧ ∀ x, fileByte s'.disk (s'.itable ip).din x =
    if off ≤ x ∧ x < off + w' then (src (tot + (x - off))).getD 0
      else fileByte s.disk (s.itable ip).din x
  done : (∀ j, src j ≠ none) → (∀ x, off ≤ x → x < off + rem →
    fileBlock s.disk (s.itable ip).din (x / bsize) ≠ none) → w = rem
  room : (∀ j, src j ≠ none) → off % bsize + rem ≤ bsize → off / bsize < ndirect →
    (∃ c < s.sb.size, s.bit c = false) → w = rem
  chunk : off % bsize + rem ≤ bsize → w = 0 ∨ w = rem

def Ended (ip : Nat) (src : Src) (rem off tot w : Nat) (s s' : Fs) : Prop :=
  (Counted ip off w s s' ∧ (w < rem → s'.Full ∧
    slotAddr s'.disk (s'.itable ip).din (slotOf ((off + w) / bsize)) = 0)) ∨
  ∃ s₁, Faulted ip src rem off tot w s s₁ s'

lemma writeLoop_sat (he : Editing I L ip s) (rem off tot : Nat) (hoff : off + rem ≤ maxfile * bsize) :
    Sat (writeLoop ip src rem off tot) s E fun r s' => ∃ w, r = (tot + w, off + w) ∧
      Wrote I L ip src rem off tot s s' w ∧ Ended ip src rem off tot w s s' := by
  induction rem using Nat.strong_induction_on generalizing I s off tot with
  | h rem ih =>
    rw [writeLoop]
    by_cases hrem : rem = 0
    · subst hrem
      rw [dif_pos rfl, sat_pure]
      refine ⟨0, rfl, ⟨OnInode.refl he, rfl, Nat.le_refl _, fun _ h => h, fun x h1 h2 => by omega,
        ⟨0, Nat.le_refl _, fun _ => rfl, fun x => ?_⟩, fun _ _ => rfl, fun _ _ _ _ => rfl,
        fun _ => .inl rfl⟩,
        .inl ⟨⟨.refl s, fun _ _ => rfl⟩, fun h => absurd h (Nat.lt_irrefl _)⟩⟩
      rw [if_neg (by omega)]
    · have hpos := chunk_pos off hrem
      have hbn : off / bsize < maxfile := Nat.div_lt_of_lt_mul (by rw [Nat.mul_comm]; omega)
      rw [dif_neg hrem]
      refine (bmap_sat he hbn).bind ?_
      intro a s1 hmap
      by_cases ha0 : a = 0
      · rw [if_pos ha0, sat_pure]
        have hsame := hmap.full ha0
        have hbyte : ∀ x, fileByte s1.disk (s1.itable ip).din x =
            fileByte s.disk (s.itable ip).din x := fun x => by rw [fileByte, hsame, fileByte]
        refine ⟨0, rfl, ⟨hmap.on, hmap.head, Nat.zero_le _, fun bn h => by rw [hsame]; exact h,
          fun x h1 h2 => by omega, ⟨0, Nat.le_refl _, fun _ => rfl, fun x => ?_⟩, fun _ hall => ?_,
          fun _ _ hd ⟨c, hc, hfree⟩ => ?_, fun _ => .inl rfl⟩,
          .inl ⟨⟨hmap.recorded, fun x _ => hbyte x⟩, fun _ => ⟨hmap.noRoom ha0, ?_⟩⟩⟩
        · rw [if_neg (by omega), hbyte]
        · exact absurd ha0 (hmap.same (hall off (Nat.le_refl _) (by omega))).2
        · rw [hmap.room ha0 hd c hc] at hfree
          cases hfree
        · have hnone : fileBlock s.disk (s.itable ip).din (off / bsize) = none := by
            by_contra hne
            exact (hmap.same hne).2 ha0
          exact fileBlock_eq_none.mp ((hsame _).trans hnone)
      · rw [if_neg ha0, sat_bind, sat_modifyState]
        set m := min rem (bsize - off % bsize) with hm
        have hdlen := eitherCopyin_length_le src tot m
        have hnofault : (∀ j, src j ≠ none) → (eitherCopyin src tot m).length = m := fun hf =>
          eitherCopyin_length fun j _ _ => hf j
        have hgetD := fun j => eitherCopyin_getD src tot m (j := j)
        have hread : ∀ j < (eitherCopyin src tot m).length, _ := eitherCopyin_readable tot m
        set data := eitherCopyin src tot m with hdata
        have he1 := hmap.on.editing he
        have haddr := hmap.addr ha0
        have hwd := fun lg => he1.writeData haddr ha0 ((s1.disk a).patch (off % bsize) data) lg
        have hblk := hmap.patched he ha0 (off % bsize) data
        have hbyte := fileByte_patch (by omega) hblk
        have hkeep : ∀ bn, fileBlock s.disk (s.itable ip).din bn ≠ none → fileBlock (update s1.disk a
            ((s1.disk a).patch (off % bsize) data)) (s1.itable ip).din bn ≠ none := by
          intro bn h
          rw [hblk]
          split
          · simp
          · exact h
        by_cases hfault : data.length < m
        · rw [if_pos hfault, sat_pure]
          have hbyte1 : ∀ x, fileByte s1.disk (s1.itable ip).din x =
              fileByte s.disk (s.itable ip).din x := by
            intro x
            rw [fileByte, hmap.blocks ha0, fileByte]
            split
            next hx =>
              rw [hx]
              rfl
            next => rfl
          have hslot : slotAddr s1.disk (s1.itable ip).din (slotOf ((off + 0) / bsize)) = a := haddr
          refine ⟨0, rfl, ⟨hmap.on.trans (hwd s1.logged).1, hmap.head, Nat.zero_le _, hkeep,
            fun x h1 h2 => by omega, ⟨data.length, Nat.zero_le _, fun hf => ?_, fun x => ?_⟩,
            fun hf _ => ?_, fun hf _ _ _ => ?_, fun _ => .inl rfl⟩, .inr ⟨s1, by omega, .inl rfl,
            fun j hj => absurd hj (Nat.not_lt_zero j), hfault,
            ⟨hmap.recorded, fun x _ => hbyte1 x⟩, by rwa [hslot], ?_, fun h0 => ?_, hmap.kept _,
            ?_, fun x => ?_⟩⟩
          · have hl := hnofault hf
            omega
          · rw [show fileByte (s1.setBlock a _).disk ((s1.setBlock a _).itable ip).din x =
              _ from hbyte x]
            by_cases hx : off ≤ x ∧ x < off + data.length
            · rw [if_pos hx, if_pos hx]
              exact hgetD _ (by omega)
            · rw [if_neg hx, if_neg hx]
          · have hl := hnofault hf
            omega
          · have hl := hnofault hf
            omega
          · rw [hslot]
            exact (he1.own.owned_pool (he1.owns haddr ha0))
          · rw [hslot]
            exact hmap.fresh h0 ha0
          · rw [hslot]
            rfl
          · rw [hbyte1]
            exact hbyte x
        · have hlen : data.length = m := by omega
          rw [if_neg hfault]
          refine Sat.bind (logWrite_sat (by rw [Fs.setBlock]; exact he1.txn) a) ?_
          rintro _ s2 rfl
          obtain ⟨hon2, -⟩ := hwd (logAbsorb s1.logged a)
          have he2 := hon2.editing he1
          have hc : Counted ip off m s { s1 with
              disk := update s1.disk a ((s1.disk a).patch (off % bsize) data)
              logged := logAbsorb s1.logged a } := by
            refine ⟨hmap.recorded.trans (.put ..), fun x hx => (hbyte x).trans (if_neg ?_)⟩
            omega
          refine (ih (rem - m) (by omega) he2 (off + m) (tot + m) (by omega)).imp ?_
          rintro r s' ⟨w, rfl, hw, hend⟩
          have hle := hw.le
          refine ⟨m + w, by simp only [Nat.add_assoc], ⟨hmap.on.trans (hon2.trans hw.on),
            hw.head.trans hmap.head,
            by omega, fun bn h => hw.mapped bn (hkeep bn h), fun x h1 h2 => ?_, ?_,
            fun hf hall => ?_, fun _ _ _ _ => by omega, fun _ => by omega⟩, ?_⟩
          · by_cases hx : x < off + m
            · refine hw.mapped _ ?_
              rw [(chunk_div (by omega) h1 hx).1]
              show fileBlock (update s1.disk a _) (s1.itable ip).din (off / bsize) ≠ none
              rw [hblk, if_pos rfl]
              simp
            · exact hw.filled x (by omega) (by omega)
          · obtain ⟨w', hge, heq, hb⟩ := hw.bytes
            refine ⟨m + w', by omega, fun hf => by rw [heq hf], fun x => ?_⟩
            rw [hb x]
            by_cases hx : off + m ≤ x ∧ x < off + m + w'
            · rw [if_pos hx, if_pos (by omega)]
              congr 2
              omega
            · rw [if_neg hx]
              refine (hbyte x).trans ?_
              by_cases hx' : off ≤ x ∧ x < off + data.length
              · rw [if_pos hx', if_pos (by omega)]
                exact hgetD _ (by omega)
              · rw [if_neg hx', if_neg (by omega)]
          · have hrest := hw.done hf fun x h1 h2 => hkeep _ (hall x (by omega) (by omega))
            omega
          · rcases hend with ⟨hcount, hstop⟩ | ⟨s₁, hf⟩
            · refine .inl ⟨hc.trans hcount, fun hlt => ?_⟩
              rw [← Nat.add_assoc]
              exact hstop (by omega)
            · have hlt := hf.lt
              have hb : bsize = 1024 := rfl
              have hend : (off + m) % bsize = 0 := by
                rw [hb] at hm ⊢
                omega
              have hnext : (off + m + w) / bsize ≠ off / bsize := by
                rw [hb] at hm hend ⊢
                omega
              refine .inr ⟨s₁, hf.shift hc hend (fun j hj => hread j (by omega)) (fun h0 => ?_) ?_⟩
              · refine fileBlock_eq_none.mp ((hblk _).trans ?_)
                rw [if_neg hnext]
                exact fileBlock_eq_none.mpr h0
              · exact (hmap.kept _).trans (BlockKept.put he1 haddr ha0 _ hnext)

end

end Xv6
