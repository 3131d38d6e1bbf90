import Xv6.MkfsImage
import Xv6.DirMap

/-! What `mkfs` has written, read by the kernel. `iappend` extends a file by the bytes it
is given and leaves the others alone; `dirlookup` finds the entries of the root directory,
and `readi` reads the bytes. -/

namespace Xv6

open Function (update_self update_of_ne update_idem update_eq_self update)

open Kern List

section

variable {s s' s1 : Mkfs} {d d' d1 : Dinode} {i inum off x : Nat} {p : List UInt8}

lemma Mkfs.grow_disk (s : Mkfs) (d : Dinode) (k : Nat) : (s.grow d k).1.disk = s.disk := by
  unfold grow
  split <;> rfl

lemma Mkfs.place_disk {b : Nat} (s : Mkfs) (d : Dinode) (fbn : Nat)
    (hb : b ≠ (s.place d fbn).2.1.addrs ndirect) : (s.place d fbn).1.disk b = s.disk b := by
  unfold place at hb ⊢
  by_cases hdir : fbn < ndirect
  · simp only [if_pos hdir]
    rw [grow_disk]
  · simp only [if_neg hdir] at hb ⊢
    unfold growWord
    split
    · change update (s.grow d ndirect).1.disk _ _ b = _
      rw [update_of_ne hb, grow_disk]
    · rw [grow_disk]

lemma Mkfs.place_mapped {fbn : Nat} (hb : fbn < maxfile)
    (hind : d.addrs ndirect ≠ 0 → d.addrs ndirect ≠ mkfsSb.bmapstart)
    (h : slotAddr s.image d (slotOf fbn) ≠ 0) :
    s.place d fbn = (s, d, slotAddr s.image d (slotOf fbn)) := by
  unfold place
  by_cases hdir : fbn < ndirect
  · have hslot : slotOf fbn = fbn := if_pos hdir
    rw [hslot, slotAddr_of_le (Nat.le_of_lt hdir)] at h ⊢
    simp only [if_pos hdir, grow, if_neg h]
  · have hslot : slotOf fbn = ndirect + 1 + (fbn - ndirect) := by
      unfold slotOf
      rw [if_neg hdir]
      omega
    have hj : fbn - ndirect < nindirect := by
      have hb : fbn < 12 + 256 := hb
      change fbn - 12 < 256
      omega
    have ha : d.addrs ndirect ≠ 0 := by
      intro h0
      refine h ?_
      rw [hslot, slotAddr, if_neg (by omega), if_pos (Or.inl h0)]
    rw [hslot, slotAddr_word _ ha hj, image_of_ne (hind ha)] at h ⊢
    simp only [if_neg hdir, grow, if_neg ha, growWord, if_neg h]

lemma MkOwn.untouched {b : Nat} {o : Nat × Nat} {blk : Block} (h : MkOwn s1 inum d1) {k : Nat}
    (hx : Owns mkfsSb s1.image (update s1.rinode inum d1) (inum, k) x)
    (ho : Owns mkfsSb s1.image (update s1.rinode inum d1) o b) (hne : o ≠ (inum, k))
    (hni : o ≠ (inum, ndirect))
    (hdisk : ∀ b, b ≠ d1.addrs ndirect → s1.disk b = s.disk b) :
    (s1.wsect x blk).image b = s.image b ∧ s1.image b = s.image b := by
  have hbx : b ≠ x := by
    rintro rfl
    exact hne (h.own.ledger.single _ _ _ ho hx)
  have hbi : b ≠ d1.addrs ndirect := by
    intro he
    have hi := h.self_owns (k := ndirect) (by rw [slotAddr_of_le le_rfl, ← he]; exact ho.2.2.2)
    rw [slotAddr_of_le le_rfl, ← he] at hi
    exact hni (h.own.ledger.single _ _ _ ho hi)
  have hpool := mkfs_pool (h.own.owned_pool ho).1
  have hsame : s1.image b = s.image b := by
    rw [Mkfs.image_of_ne hpool, Mkfs.image_of_ne hpool, hdisk b hbi]
  refine ⟨?_, hsame⟩
  rw [Mkfs.image_wsect (mkfs_pool (h.own.owned_pool hx).1), update_of_ne hbx, hsame]

/-- One round of `iappend`: what is before the offset stays, the data follows, and other files
are as before. -/
lemma MkOwn.store (h : MkOwn s inum d) (hm : Maps s.image d off) (hb : off / bsize < maxfile)
    (hp : s.place d (off / bsize) = (s1, d1, x)) (hfit : s1.freeblock ≤ fssize) (data : List UInt8)
    (hlen : off % bsize + data.length ≤ bsize) :
    (∀ y < off, fileByte (s1.wsect x ((s1.disk x).patch (off % bsize) data)).image d1 y =
      fileByte s.image d y) ∧
    (∀ j < data.length, fileByte (s1.wsect x ((s1.disk x).patch (off % bsize) data)).image d1
      (off + j) = data.getD j 0) ∧
    ∀ i < mkfsSb.ninodes, i ≠ inum → (s.rinode i).type ≠ 0 → ∀ bn,
      fileBlock (s1.wsect x ((s1.disk x).patch (off % bsize) data)).image (s.rinode i) bn =
      fileBlock s.image (s.rinode i) bn := by
  have hplace := h.place hb (by rw [hp]; exact hfit)
  have hdisk : ∀ b, b ≠ d1.addrs ndirect → s1.disk b = s.disk b := fun b hb' => by
    have hd := Mkfs.place_disk (b := b) s d (off / bsize)
    rw [hp] at hd
    exact hd hb'
  rw [hp] at hplace
  obtain ⟨h1, hsame, -, hslot, hx0, hrest⟩ := hplace
  simp only at h1 hsame hslot hx0 hrest
  have hown := h1.self_owns (k := slotOf (off / bsize)) (by rw [hslot]; exact hx0)
  rw [hslot] at hown
  have hxpool := mkfs_pool (h1.own.owned_pool hown).1
  have hself : (s1.wsect x ((s1.disk x).patch (off % bsize) data)).image x = (s1.disk x).patch
    (off % bsize) data := by
    rw [Mkfs.image_wsect hxpool, update_self]
  obtain ⟨-, -, hslots⟩ := h1.write (slotOf_ne _) hslot hx0 hfit ((s1.disk x).patch (off % bsize) data)
  have hblock : fileBlock (s1.wsect x ((s1.disk x).patch (off % bsize) data)).image d1 (off / bsize) =
      some ((s1.disk x).patch (off % bsize) data) := by
    rw [fileBlock, hslots, hslot, if_neg hx0, hself]
  have hbs : bsize = 1024 := rfl
  refine ⟨fun y hy => ?_, fun j hj => ?_, fun i hi hne ht bn => ?_⟩
  · by_cases hbn : y / bsize = off / bsize
    · -- the file has the block already, so `place` returns it
      have hmapped : slotAddr s.image d (slotOf (off / bsize)) ≠ 0 :=
        (hm _ hb).mpr (by rw [hbs] at *; omega)
      have hpm := Mkfs.place_mapped hb (fun ha => mkfs_pool (h.indirect_pool ha)) hmapped
      rw [hp, Prod.mk.injEq, Prod.mk.injEq] at hpm
      obtain ⟨rfl, rfl, hxs⟩ := hpm
      rw [fileByte, hbn, hblock, fileByte, hbn, fileBlock, hslot, if_neg hx0, Option.getD_some,
        Option.getD_some,
        Bytes.get_patch_of_not_mem _ (.inl (by rw [hbs] at *; omega)), Mkfs.image_of_ne hxpool]
    · have hfile : fileBlock (s1.wsect x ((s1.disk x).patch (off % bsize) data)).image d1 (y / bsize) =
          fileBlock s.image d (y / bsize) := by
        rw [fileBlock, fileBlock, hslots, hrest _ hbn]
        by_cases h0 : slotAddr s.image d (slotOf (y / bsize)) = 0
        · rw [if_pos h0, if_pos h0]
        · have ho := h1.self_owns (k := slotOf (y / bsize)) (by rw [hrest _ hbn]; exact h0)
          rw [hrest _ hbn] at ho
          rw [if_neg h0, if_neg h0,
            (h1.untouched hown ho (fun he => hbn (slotOf_inj (congrArg Prod.snd he)))
            (fun he => slotOf_ne _ (congrArg Prod.snd he)) hdisk).1]
      rw [fileByte, hfile, fileByte]
  · have hlen' : off % 1024 + data.length ≤ 1024 := hlen
    have hdiv : (off + j) / bsize = off / bsize := show (off + j) / 1024 = off / 1024 by omega
    have hmod : (off + j) % bsize = off % bsize + j := show (off + j) % 1024 = off % 1024 + j by omega
    rw [fileByte, hdiv, hblock, Option.getD_some, hmod, Bytes.get_patch_of_mem _ hlen hj]
  · have hI : update s1.rinode inum d1 i = s.rinode i := by
      rw [update_of_ne hne, hsame.inodes i hi]
    have howns : ∀ k, slotAddr s1.image (s.rinode i) k ≠ 0 →
        Owns mkfsSb s1.image (update s1.rinode inum d1) (i, k) (slotAddr s1.image (s.rinode i) k) := by
      intro k hk
      refine ⟨hi, ?_, ?_, hk⟩
      · change (update s1.rinode inum d1 i).type ≠ 0
        rw [hI]
        exact ht
      · change slotAddr s1.image (update s1.rinode inum d1 i) k = _
        rw [hI]
    have hother : ∀ k k' : Nat, (i, k) ≠ (inum, k') := fun k k' he => hne (congrArg Prod.fst he)
    have hind : (s.rinode i).addrs ndirect ≠ 0 →
        (s1.wsect x ((s1.disk x).patch (off % bsize) data)).image ((s.rinode i).addrs ndirect) =
          s.image ((s.rinode i).addrs ndirect) ∧
          s1.image ((s.rinode i).addrs ndirect) = s.image ((s.rinode i).addrs ndirect) := by
      intro ha
      have ho := howns ndirect (by rw [slotAddr_of_le le_rfl]; exact ha)
      rw [slotAddr_of_le le_rfl] at ho
      exact h1.untouched hown ho (hother _ _) (hother _ _) hdisk
    have hs1 := slotAddr_congr (fun ha => (hind ha).2) (slotOf bn)
    rw [fileBlock, fileBlock, slotAddr_congr (fun ha => (hind ha).1) (slotOf bn)]
    by_cases h0 : slotAddr s.image (s.rinode i) (slotOf bn) = 0
    · rw [if_pos h0, if_pos h0]
    · have ho := howns (slotOf bn) (by rw [hs1]; exact h0)
      rw [hs1] at ho
      rw [if_neg h0, if_neg h0, (h1.untouched hown ho (hother _ _) (hother _ _) hdisk).1]

lemma MkOwn.loop_bytes {fuel off' : Nat} (h : MkOwn s inum d) (hm : Maps s.image d off)
    (hle : off ≤ maxfile * bsize)
    (hl : Mkfs.iappendLoop fuel s d off p = some (s', d', off')) (hfit : s'.freeblock ≤ fssize) :
    (∀ y < off, fileByte s'.image d' y = fileByte s.image d y) ∧
    (∀ j < p.length, fileByte s'.image d' (off + j) = p.getD j 0) ∧
    ∀ i < mkfsSb.ninodes, i ≠ inum → (s.rinode i).type ≠ 0 → ∀ bn,
      fileBlock s'.image (s.rinode i) bn = fileBlock s.image (s.rinode i) bn := by
  have hnil : p = [] → s' = s → d' = d → (∀ y < off, fileByte s'.image d' y = fileByte s.image d y) ∧
      (∀ j < p.length, fileByte s'.image d' (off + j) = p.getD j 0) ∧
      ∀ i < mkfsSb.ninodes, i ≠ inum → (s.rinode i).type ≠ 0 → ∀ bn,
        fileBlock s'.image (s.rinode i) bn = fileBlock s.image (s.rinode i) bn := by
    rintro rfl rfl rfl
    exact ⟨fun _ _ => rfl, fun j hj => absurd hj (Nat.not_lt_zero j), fun _ _ _ _ _ => rfl⟩
  induction fuel generalizing s d off p with
  | zero =>
    rw [Mkfs.iappendLoop] at hl
    split at hl
    next hp =>
      cases hl
      exact hnil hp rfl rfl
    next => cases hl
  | succ fuel ih =>
    rw [Mkfs.iappendLoop] at hl
    split at hl
    next hp =>
      cases hl
      exact hnil hp rfl rfl
    next hp =>
      split at hl
      next hb =>
        have hmono := (Mkfs.iappendLoop_mono hl).1
        obtain ⟨⟨s1, d1, x⟩, hpl⟩ : ∃ r, s.place d (off / bsize) = r := ⟨_, rfl⟩
        simp only [hpl] at hl hmono
        change s1.freeblock ≤ s'.freeblock at hmono
        obtain ⟨n1, hn1⟩ : ∃ n1, n1 = min p.length ((off / bsize + 1) * bsize - off) := ⟨_, rfl⟩
        rw [← hn1] at hl
        have hbs : bsize = 1024 := rfl
        have hmod : off - off / bsize * bsize = off % bsize := by rw [hbs]; omega
        rw [hmod] at hl
        have hn1p : n1 ≤ p.length := by omega
        have hdata : (p.take n1).length = n1 := by rw [length_take]; omega
        obtain ⟨h1, h2, h3, -, h5⟩ := h.round hm hle (length_pos_iff.mpr hp) hb hpl (hmono.trans hfit)
          ((s1.disk x).patch (off % bsize) (p.take n1))
        rw [← hn1] at h2 h5
        obtain ⟨hold, hnew, hothers⟩ := h.store hm hb hpl (hmono.trans hfit) (p.take n1)
          (by rw [hdata, hbs]; rw [hbs] at hn1; omega)
        obtain ⟨hold', hnew', hothers'⟩ := ih h1 h2 h5 hl (by
          rintro hp' rfl rfl
          rw [hp']
          exact ⟨fun _ _ => rfl, fun j hj => absurd hj (Nat.not_lt_zero j), fun _ _ _ _ _ => rfl⟩)
        refine ⟨fun y hy => (hold' y (by omega)).trans (hold y hy), fun j hj => ?_,
          fun i hi hne ht bn => ?_⟩
        · by_cases hj1 : j < n1
          · rw [hold' _ (by omega), hnew j (by omega), getD_eq_getElem?_getD,
              List.getElem?_take_of_lt hj1, ← getD_eq_getElem?_getD]
          · have hrest := hnew' (j - n1) (by rw [length_drop]; omega)
            rw [show off + n1 + (j - n1) = off + j by omega, getD_eq_getElem?_getD,
              List.getElem?_drop, show n1 + (j - n1) = j by omega, ← getD_eq_getElem?_getD] at hrest
            exact hrest
        · have hkeep := hothers' i hi hne (by rw [h3.inodes i hi]; exact ht) bn
          rw [h3.inodes i hi] at hkeep
          exact hkeep.trans (hothers i hi hne ht bn)
      next => cases hl

end

/-- The inode `i` has the bytes `C i`. -/
structure Contents (s : Mkfs) (C : Nat → List UInt8) : Prop where
  size : ∀ i < mkfsSb.ninodes, (s.rinode i).type ≠ 0 → (s.rinode i).size = (C i).length
  bytes : ∀ i < mkfsSb.ninodes, (s.rinode i).type ≠ 0 → ∀ y < (C i).length,
    fileByte s.image (s.rinode i) y = (C i).getD y 0

section

variable {s s' : Mkfs} {C : Nat → List UInt8} {inum n : Nat} {p : List UInt8}

lemma Contents.iappend (hc : Contents s C) (h : MkInv s) (hi : inum < mkfsSb.ninodes)
    (ht : (s.rinode inum).type ≠ 0) (hr : s.iappend inum p = some s')
    (hfit : s'.freeblock ≤ fssize) : Contents s' (update C inum (C inum ++ p)) := by
  have happ := h.iappend hi ht hr hfit
  unfold Mkfs.iappend at hr
  split at hr
  next s1 d1 off1 hl =>
    cases hr
    obtain ⟨hm, hle⟩ := h.maps inum hi ht
    have hown := h.own_self hi ht
    obtain ⟨h1, -, hsame, htype, -⟩ := hown.loop hm hle hl hfit
    obtain ⟨hold, hnew, hothers⟩ := hown.loop_bytes hm hle hl hfit
    obtain ⟨-, hpool⟩ := h1.written off1
    have hself : (s1.winode inum (d1.setSize off1)).rinode inum = d1.setSize off1 := by
      rw [Mkfs.rinode_winode, if_pos rfl]
    have hblock : ∀ bn, fileBlock (s1.winode inum (d1.setSize off1)).image (d1.setSize off1) bn =
      fileBlock s1.image d1 bn := by
      intro bn
      have hb := fileBlock_of_data h1.own hi (by rw [update_self]; exact h1.typed) hpool bn
      rw [update_self] at hb
      exact hb
    refine ⟨fun i hi' ht' => ?_, fun i hi' ht' y hy => ?_⟩
    · by_cases hii : i = inum
      · subst hii
        rw [happ.size, update_self, length_append, hc.size i hi' ht]
      · rw [happ.others i hi' hii] at ht' ⊢
        rw [update_of_ne hii]
        exact hc.size i hi' ht'
    · by_cases hii : i = inum
      · subst hii
        rw [update_self, length_append] at hy
        rw [update_self, hself, fileByte, hblock]
        change fileByte s1.image d1 y = _
        have hsz := hc.size i hi' ht
        by_cases hlt : y < (C i).length
        · rw [hold y (by omega), hc.bytes i hi' ht y hlt, getD_append _ _ _ _ hlt]
        · have hb := hnew (y - (C i).length) (by omega)
          rw [hsz, show (C i).length + (y - (C i).length) = y by omega] at hb
          rw [hb, getD_append_right _ _ _ _ (by omega)]
      · rw [update_of_ne hii] at hy ⊢
        rw [happ.others i hi' hii] at ht' ⊢
        have hb := fileBlock_of_data h1.own hi' (by
          rw [update_of_ne hii, hsame.inodes i hi']
          exact ht') hpool (y / bsize)
        rw [update_of_ne hii, hsame.inodes i hi'] at hb
        rw [fileByte, hb, hothers i hi' hii ht', ← fileByte]
        exact hc.bytes i hi' ht' y hy
  next => cases hr

lemma Contents.ialloc (type : Nat) (hc : Contents s C) (h : MkInv s)
    (hlt : s.freeinode < mkfsSb.ninodes) (ht : type % 2 ^ 16 ≠ 0) :
    Contents (s.ialloc type).1 (update C s.freeinode []) := by
  obtain ⟨-, hkeep, -, hsize⟩ := h.ialloc type hlt ht
  have hblk := mkfsSb_layout.iblock_lt s.freeinode hlt
  have hbm := mkfsSb_layout.bmap_meta
  have hpool : ∀ x, nmeta mkfsSb ≤ x → (s.ialloc type).1.image x = s.image x := by
    intro x hx
    rw [Mkfs.image_of_ne (mkfs_pool hx), Mkfs.image_of_ne (mkfs_pool hx)]
    change update s.disk (iblock mkfsSb s.freeinode) _ x = _
    rw [update_of_ne (by omega)]
  refine ⟨fun i hi hti => ?_, fun i hi hti y hy => ?_⟩
  · by_cases hii : i = s.freeinode
    · rw [hii, hsize, update_self]
      rfl
    · rw [hkeep i hii] at hti ⊢
      rw [update_of_ne hii]
      exact hc.size i hi hti
  · by_cases hii : i = s.freeinode
    · rw [hii, update_self] at hy
      exact absurd hy (Nat.not_lt_zero y)
    · rw [update_of_ne hii] at hy ⊢
      rw [hkeep i hii] at hti ⊢
      rw [fileByte, fileBlock_of_data h.own hi hti hpool, ← fileByte]
      exact hc.bytes i hi hti y hy

lemma Contents.reads {reads : List (List UInt8)} (hc : Contents s C) (h : MkInv s)
    (hi : inum < mkfsSb.ninodes) (ht : (s.rinode inum).type ≠ 0)
    (hr : reads.foldlM (fun s p => s.iappend inum p) s = some s') (hfit : s'.freeblock ≤ fssize) :
    Contents s' (update C inum (C inum ++ reads.flatten)) := by
  induction reads generalizing s C with
  | nil =>
    cases hr
    rw [flatten_nil, append_nil, update_eq_self]
    exact hc
  | cons p ps ih =>
    rw [foldlM_cons] at hr
    obtain ⟨s1, h1, h2⟩ := Option.bind_eq_some_iff.mp hr
    have hfit1 := (reads_mono h2).trans hfit
    have happ := h.iappend hi ht h1 hfit1
    have hc' := ih (hc.iappend h hi ht h1 hfit1) happ.inv (by rw [happ.type]; exact ht) h2
    rw [update_self, update_idem, append_assoc] at hc'
    exact hc'

end

def rootEntry (files : List MkfsFile) : Nat → Nat × List UInt8
  | 0 => (rootino, dot)
  | 1 => (rootino, dotdot)
  | k + 2 => (k + 2, ((files[k]?).map fun f => Mkfs.shortName f.path).getD [])

/-- The files are in the image: their entries in the root directory, and their bytes. -/
structure Laid (s : Mkfs) (files : List MkfsFile) (C : Nat → List UInt8) : Prop where
  root : RootOf s files.length
  contents : Contents s C
  entry : ∀ k < files.length + 2,
    ((C rootino).drop (16 * k)).take 16 = putDirent (rootEntry files k).1 (rootEntry files k).2
  file : ∀ k f, files[k]? = some f → (s.rinode (k + 2)).type = tFile ∧ C (k + 2) = f.reads.flatten

section

variable {s s' : Mkfs} {C : Nat → List UInt8} {files : List MkfsFile} {f : MkfsFile}

lemma Laid.root_length (h : Laid s files C) : (C rootino).length = 16 * (files.length + 2) := by
  rw [← h.contents.size rootino (by decide) (by rw [h.root.type]; decide)]
  exact h.root.size

lemma rootEntry_append {k : Nat} (hk : k < files.length + 2) :
    rootEntry (files ++ [f]) k = rootEntry files k := by
  match k with
  | 0 => rfl
  | 1 => rfl
  | k + 2 => rw [rootEntry, rootEntry, List.getElem?_append_left (by omega)]

lemma Laid.addFile (h : Laid s files C) (hn : files.length + 2 < mkfsSb.ninodes)
    (hr : s.addFile f = some s')
    (hfit : s'.freeblock ≤ fssize) : ∃ C', Laid s' (files ++ [f]) C' := by
  have hroot' := h.root.addFile hn hr hfit
  unfold Mkfs.addFile at hr
  split at hr
  · cases hr
  · obtain ⟨s1, h1, h2⟩ := Option.bind_eq_some_iff.mp hr
    have hfit1 := (reads_mono h2).trans hfit
    have hlt : s.freeinode < mkfsSb.ninodes := by rw [h.root.next]; exact hn
    have hne := h.root.root_ne
    obtain ⟨ha, hkeep, -, -⟩ := h.root.inv.ialloc tFile hlt (by decide)
    have hrt : ((s.ialloc tFile).1.rinode rootino).type ≠ 0 := by
      rw [hkeep rootino hne, h.root.type]
      decide
    have happ1 := ha.iappend (by decide) hrt h1 hfit1
    obtain ⟨hroot1, htype1⟩ := h.root.entry hn h1 hfit1
    have happ2 := hroot1.inv.reads hlt (by rw [htype1]; decide) h2 hfit
    have hc1 := (h.contents.ialloc tFile h.root.inv hlt (by decide)).iappend ha (by decide) hrt h1 hfit1
    have hc2 := hc1.reads hroot1.inv hlt (by rw [htype1]; decide) h2 hfit
    have hlen := h.root_length
    have hnum : (s.ialloc tFile).2 = files.length + 2 := h.root.next
    refine ⟨_, by rw [length_append]; exact hroot', hc2, fun k hk => ?_, fun k g hg => ?_⟩
    · rw [update_of_ne hne, update_self, update_of_ne hne, hnum]
      rw [length_append, length_singleton] at hk
      by_cases hlast : k < files.length + 2
      · rw [rootEntry_append hlast, ← h.entry k hlast, drop_append_of_le_length (by omega),
          take_append_of_le_length (by rw [length_drop]; omega)]
      · have hk' : k = files.length + 2 := by omega
        subst hk'
        have hname : rootEntry (files ++ [f]) (files.length + 2) = (files.length + 2,
          Mkfs.shortName f.path) := by
          rw [rootEntry, List.getElem?_append_right le_rfl, Nat.sub_self]
          rfl
        rw [hname, drop_left' hlen, take_of_length_le (by rw [putDirent_length])]
    · by_cases hlast : k < files.length
      · rw [List.getElem?_append_left hlast] at hg
        obtain ⟨ht, hbytes⟩ := h.file k g hg
        have hk : k + 2 < mkfsSb.ninodes := by omega
        have hkn : k + 2 ≠ s.freeinode := by rw [h.root.next]; omega
        have hkr : k + 2 ≠ rootino := by change k + 2 ≠ 1; omega
        rw [happ2.others _ hk hkn, happ1.others _ hk hkr, hkeep _ hkn, update_of_ne hkn,
          update_of_ne hkr, update_of_ne hkn]
        exact ⟨ht, hbytes⟩
      · have hk : k = files.length := by
          have hlt := (List.getElem?_eq_some_iff.mp hg).1
          rw [length_append, length_singleton] at hlt
          omega
        subst hk
        rw [List.getElem?_append_right le_rfl, Nat.sub_self] at hg
        cases hg
        rw [← h.root.next, happ2.type, htype1, update_self, update_of_ne (Ne.symm hne),
          update_self, nil_append]
        exact ⟨rfl, rfl⟩

lemma Laid.addFiles {fs : List MkfsFile} (h : Laid s files C)
    (hn : files.length + 2 + fs.length ≤ mkfsSb.ninodes) (hr : fs.foldlM Mkfs.addFile s = some s')
    (hfit : s'.freeblock ≤ fssize) : ∃ C', Laid s' (files ++ fs) C' := by
  induction fs generalizing s files C with
  | nil =>
    cases hr
    rw [append_nil]
    exact ⟨C, h⟩
  | cons f fs ih =>
    rw [foldlM_cons] at hr
    obtain ⟨s1, h1, h2⟩ := Option.bind_eq_some_iff.mp hr
    rw [length_cons] at hn
    obtain ⟨C1, h₁⟩ := h.addFile (by omega) h1 ((files_mono h2).trans hfit)
    have hall := ih h₁ (by rw [length_append, length_singleton]; omega) h2
    rwa [append_assoc] at hall

lemma Laid.finish (h : Laid s files C) (hr : s.finish = some s') {i : Nat} (hi : i < mkfsSb.ninodes)
    (ht : (s.rinode i).type ≠ 0) {y : Nat} (hy : y < (C i).length) :
    fileByte s'.disk ((mount mkfsSb s'.disk).dinode i) y = (C i).getD y 0 := by
  have hrt : (s.rinode rootino).type ≠ 0 := by rw [h.root.type]; decide
  have hpool :=
    ((h.root.inv.own_self (by decide) hrt).written
      ((16 * (files.length + 2) / bsize + 1) * bsize)).2
  have hblock := fileBlock_of_data h.root.inv.own hi ht hpool (y / bsize)
  rw [← h.contents.bytes i hi ht y hy, h.root.dinodes hr hi, h.root.finish hr, Mkfs.rinode_winode]
  by_cases hir : i = rootino
  · subst hir
    rw [if_pos rfl, fileByte, fileByte, ← hblock]
    rfl
  · rw [if_neg hir, fileByte, fileByte, ← hblock]

end

section

variable {t : Fs} {dp ip off : Nat} {E : String → Prop} {L : List UInt8}

lemma fileSlice_of_bytes {disk : Disk} {d : Dinode} {n : Nat}
    (h : ∀ y < L.length, fileByte disk d y = L.getD y 0)
    (hn : off + n ≤ L.length) : fileSlice disk d off n = (L.drop off).take n := by
  refine ext_getElem? fun j => ?_
  by_cases hj : j < n
  · rw [List.getElem?_take_of_lt hj, List.getElem?_drop, fileSlice, List.getElem?_map,
      List.getElem?_range hj, Option.map_some,
      h _ (by omega), getD_eq_getElem?_getD, List.getElem?_eq_getElem (by omega)]
    rfl
  · rw [List.getElem?_eq_none (by rw [fileSlice, length_map, length_range]; omega),
      List.getElem?_eq_none (by rw [length_take]; omega)]

lemma bind_of_ok {α β : Type} {m : Kern Fs α} {g : α → Kern Fs β} {a : α} {t' : Fs}
    (h : m t = .ok (a, t')) : (m >>= g) t = g a t' := by
  simp only [bind, h]

lemma readi_entry (hmax : (t.itable dp).din.size ≤ maxfile * bsize) (hal : off % 16 = 0)
    (hend : off + 16 ≤ (t.itable dp).din.size)
    (hmap : fileBlock t.disk (t.itable dp).din (off / bsize) ≠ none) :
    readi dp kernelDst (.ofNat off) 16 t = .ok
    (((16 : Int), fileSlice t.disk (t.itable dp).din off 16), t) := by
  have hbs : maxfile * bsize = 274432 := rfl
  have hoff : (UInt32.ofNat off).toNat = off := by
    rw [UInt32.toNat_ofNat']
    omega
  have hlen : readLen (t.itable dp).din.size (.ofNat off) 16 = 16 := by
    rw [readLen_dirent (by omega), if_neg (by omega)]
    omega
  have hsat : Sat (readi dp kernelDst (.ofNat off) 16) t (fun _ => False) _ :=
    readi_mapped hmax kernelDst (.ofNat off) 16 fun x h1 h2 => by
      rw [hoff] at h1 h2
      rw [hlen] at h2
      have hdiv : x / bsize = off / bsize := by
        simp only [bsize]
        omega
      rw [hdiv]
      exact hmap
  obtain ⟨r, t', hr, rfl, ⟨rfl, -⟩ | ⟨-, k, -, -, hk, -⟩⟩ := hsat.returns
  · rw [hr, hlen, hoff]
    rfl
  · cases hk

lemma dirScan_finds {msg : String} {hit : Dirent → Bool} {pre post : List Nat}
    (hmax : (t.itable dp).din.size ≤ maxfile * bsize)
    (hpre : ∀ o ∈ off :: pre, o % 16 = 0 ∧ o + 16 ≤ (t.itable dp).din.size ∧
      fileBlock t.disk (t.itable dp).din (o / bsize) ≠ none)
    (hmiss : ∀ o ∈ pre, hit (direntAt t.disk (t.itable dp).din o) = false)
    (hhit : hit (direntAt t.disk (t.itable dp).din off) = true) :
    dirScan dp msg hit (pre ++ off :: post) t = .ok
    (some (off, direntAt t.disk (t.itable dp).din off), t) := by
  have hread : ∀ o ∈ off :: pre, ∀ l, dirScan dp msg hit (o :: l) t =
      if hit (direntAt t.disk (t.itable dp).din o) then
        .ok (some (o, direntAt t.disk (t.itable dp).din o), t)
      else dirScan dp msg hit l t := by
    intro o ho l
    obtain ⟨hal, hend, hmap⟩ := hpre o ho
    have hr := readi_entry hmax hal hend hmap
    rw [dirScan, bind_of_ok hr]
    simp only [ne_eq, not_true_eq_false, if_false]
    change (if hit (direntAt t.disk (t.itable dp).din o) = true then
      _ else _ : Kern Fs (Option (Nat × Dirent))) t = _
    split <;> rfl
  induction pre with
  | nil => rw [nil_append, hread off mem_cons_self, if_pos hhit]
  | cons o pre ih =>
    rw [cons_append, hread o (mem_cons_of_mem _ mem_cons_self), hmiss o mem_cons_self,
      if_neg Bool.false_ne_true]
    exact ih (fun x hx => hpre x (by
        rcases mem_cons.mp hx with rfl | hx
        · exact mem_cons_self
        · exact mem_cons_of_mem _ (mem_cons_of_mem _ hx)))
      (fun x hx => hmiss x (mem_cons_of_mem _ hx))
      fun x hx => hread x (by
        rcases mem_cons.mp hx with rfl | hx
        · exact mem_cons_self
        · exact mem_cons_of_mem _ (mem_cons_of_mem _ hx))

end

structure MkfsName (name : List UInt8) : Prop where
  ne : name ≠ []
  len : name.length ≤ dirsiz
  nul : 0 ∉ name
  notDot : name ≠ dot
  notDotdot : name ≠ dotdot

lemma takeWhile_strncpy {a : List UInt8} (hlen : a.length ≤ dirsiz) (h0 : 0 ∉ a) :
    (strncpy a dirsiz).takeWhile (· ≠ 0) = a := by
  have hne : ∀ x ∈ a, decide (x ≠ 0) = true := fun x hx => by
    rw [decide_eq_true_eq]
    rintro rfl
    exact h0 hx
  have hall : a.takeWhile (· ≠ 0) = a := by
    have happ : (a ++ []).takeWhile (· ≠ 0) = _ := takeWhile_append_of_pos hne
    rwa [append_nil, takeWhile_nil, append_nil] at happ
  unfold strncpy
  simp only [hall, take_of_length_le hlen]
  rw [takeWhile_append_of_pos hne, takeWhile_replicate]
  simp

lemma strncpy_inj {a b : List UInt8} (ha : a.length ≤ dirsiz) (ha0 : 0 ∉ a)
    (hb : b.length ≤ dirsiz) (hb0 : 0 ∉ b) (h : strncpy a dirsiz = strncpy b dirsiz) : a = b := by
  rw [← takeWhile_strncpy ha ha0, ← takeWhile_strncpy hb hb0, h]

section

variable {s s1 : Mkfs} {files : List MkfsFile} {C : Nat → List UInt8} {k : Nat} {f : MkfsFile}

lemma Laid.mapped (h : Laid s1 files C) (hr : s1.finish = some s) {i : Nat}
    (hi : i < mkfsSb.ninodes) (ht : (s1.rinode i).type ≠ 0) {y : Nat} (hy : y < (C i).length) :
    fileBlock s.disk ((mount mkfsSb s.disk).dinode i) (y / bsize) ≠ none := by
  have hrt : (s1.rinode rootino).type ≠ 0 := by rw [h.root.type]; decide
  have hpool :=
    ((h.root.inv.own_self (by decide) hrt).written
      ((16 * (files.length + 2) / bsize + 1) * bsize)).2
  have hblock := fileBlock_of_data h.root.inv.own hi ht hpool (y / bsize)
  obtain ⟨hm, hle⟩ := h.root.inv.maps i hi ht
  rw [h.contents.size i hi ht] at hm hle
  have hsome : fileBlock s1.image (s1.rinode i) (y / bsize) ≠ none := by
    have hbn : y / bsize < maxfile := Nat.div_lt_of_lt_mul (by rw [Nat.mul_comm]; omega)
    rw [fileBlock, if_neg ((hm _ hbn).mpr (Nat.lt_of_le_of_lt (Nat.div_mul_le_self y bsize) hy))]
    exact Option.some_ne_none _
  rw [h.root.dinodes hr hi, h.root.finish hr, Mkfs.rinode_winode]
  by_cases hir : i = rootino
  · subst hir
    rw [← hblock] at hsome
    rw [if_pos rfl]
    exact hsome
  · rw [if_neg hir, hblock]
    exact hsome

lemma Laid.dinode (h : Laid s1 files C) (hr : s1.finish = some s)
    (hcount : files.length ≤ mkfsSb.ninodes - 2) (hk : files[k]? = some f) :
    k + 2 < mkfsSb.ninodes ∧ (s1.rinode (k + 2)).type ≠ 0 ∧ C (k + 2) = f.reads.flatten ∧
      ((mount mkfsSb s.disk).dinode (k + 2)).type = tFile ∧
      ((mount mkfsSb s.disk).dinode (k + 2)).size = f.reads.flatten.length := by
  have hlt := (List.getElem?_eq_some_iff.mp hk).1
  have hcount : files.length ≤ 198 := hcount
  have hi : k + 2 < mkfsSb.ninodes := show k + 2 < 200 by omega
  have hkr : k + 2 ≠ rootino := by change k + 2 ≠ 1; omega
  obtain ⟨ht, hC⟩ := h.file k f hk
  have ht0 : (s1.rinode (k + 2)).type ≠ 0 := by rw [ht]; decide
  rw [h.root.dinodes hr hi, Mkfs.rinode_winode, if_neg hkr, h.contents.size _ hi ht0, hC]
  exact ⟨hi, ht0, rfl, ht, rfl⟩

variable {j ip : Nat} {t : Fs} {off n : UInt32}

lemma rootEntry_name (hnames : ∀ f ∈ files, MkfsName (Mkfs.shortName f.path))
    (hj : j < files.length + 2) :
    (rootEntry files j).2.length ≤ dirsiz ∧ 0 ∉ (rootEntry files j).2 := by
  match j with
  | 0 => exact ⟨show dot.length ≤ dirsiz by decide, show 0 ∉ dot by decide⟩
  | 1 => exact ⟨show dotdot.length ≤ dirsiz by decide, show 0 ∉ dotdot by decide⟩
  | j + 2 =>
    have hlt : j < files.length := by omega
    have hname := hnames _ (getElem_mem hlt)
    rw [rootEntry, List.getElem?_eq_getElem hlt]
    exact ⟨hname.len, hname.nul⟩

lemma rootEntry_ne (hnames : ∀ f ∈ files, MkfsName (Mkfs.shortName f.path))
    (hdist : (files.map fun f => Mkfs.shortName f.path).Nodup) (hk : files[k]? = some f)
    (hj : j < k + 2) :
    Mkfs.shortName f.path ≠ (rootEntry files j).2 := by
  have hname := hnames f (mem_of_getElem? hk)
  have hlt := (List.getElem?_eq_some_iff.mp hk).1
  match j with
  | 0 => exact hname.notDot
  | 1 => exact hname.notDotdot
  | j + 2 =>
    have hjl : j < files.length := by omega
    rw [rootEntry, List.getElem?_eq_getElem hjl]
    intro he
    have hkn : (files.map fun f => Mkfs.shortName f.path)[k]? = some (Mkfs.shortName f.path) := by
      rw [List.getElem?_map, hk]
      rfl
    have hjn : (files.map fun f => Mkfs.shortName f.path)[j]? = some (Mkfs.shortName f.path) := by
      rw [List.getElem?_map, List.getElem?_eq_getElem hjl, he]
      rfl
    have heq := (nodup_iff_getElem?_ne_getElem?.mp hdist) j k (by omega) (by rw [length_map]; exact hlt)
    exact heq (hjn.trans hkn.symm)

lemma Laid.dirlookup {dp : Nat} {E : String → Prop} (h : Laid s1 files C) (hr : s1.finish = some s)
    (hcount : files.length ≤ mkfsSb.ninodes - 2)
    (hnames : ∀ f ∈ files, MkfsName (Mkfs.shortName f.path))
    (hdist : (files.map fun f => Mkfs.shortName f.path).Nodup) (hk : files[k]? = some f)
    (hdisk : t.disk = s.disk)
    (hdp : (t.itable dp).din = (mount mkfsSb s.disk).dinode rootino)
    (hE : E "iget: no inodes" ∨ ∃ x < ninode, (t.itable x).ref = 0) :
    Sat (Xv6.dirlookup dp (Mkfs.shortName f.path)) t E fun r t' => ∃ ip,
    r = some (ip, 16 * (k + 2)) ∧ Got (k + 2) t t' ip := by
  have hcount : files.length ≤ 198 := hcount
  have hlt := (List.getElem?_eq_some_iff.mp hk).1
  have hrt : (s1.rinode rootino).type ≠ 0 := by rw [h.root.type]; decide
  obtain ⟨-, hsz, htd⟩ := h.root.rootMaps hr (show files.length + 2 ≤ 200 by omega)
  rw [← hdp] at hsz htd
  have hlen := h.root_length
  have hbytes :
    ∀ y < (C rootino).length, fileByte t.disk (t.itable dp).din y = (C rootino).getD y 0 := by
    rw [hdp, hdisk]
    exact fun y hy => h.finish hr (by decide) hrt hy
  have hentry : ∀ j < files.length + 2, direntAt t.disk (t.itable dp).din (16 * j) =
      ⟨(rootEntry files j).1, strncpy (rootEntry files j).2 dirsiz⟩ := by
    intro j hj
    have hnum : (rootEntry files j).1 < 2 ^ 16 := by
      match j with
      | 0 => exact show rootino < 2 ^ 16 by decide
      | 1 => exact show rootino < 2 ^ 16 by decide
      | j + 2 =>
        rw [rootEntry]
        omega
    rw [direntAt, fileSlice_of_bytes hbytes (by omega), h.entry j hj, getDirent_putDirent hnum]
  have hmine : rootEntry files (k + 2) = (k + 2, Mkfs.shortName f.path) := by
    rw [rootEntry, hk]
    rfl
  have hmax : (t.itable dp).din.size ≤ maxfile * bsize := by
    rw [hsz]
    simp only [bsize, maxfile, ndirect, nindirect]
    omega
  have hge : 16 * (files.length + 2) ≤ (t.itable dp).din.size := by
    rw [hsz]
    simp only [bsize]
    omega
  obtain ⟨post, hoffs⟩ : ∃ post, dirOffs 0 (t.itable dp).din.size = (List.range (k + 2)).map
    (16 * ·) ++ 16 * (k + 2) :: post := by
    obtain ⟨r, hr⟩ : ∃ r, ((t.itable dp).din.size - 0 + 15) / 16 = k + 2 + (r + 1) :=
      ⟨((t.itable dp).din.size - 0 + 15) / 16 - (k + 3), by omega⟩
    have htail : (List.range (r + 1)).map (k + 2 + ·) = (k + 2) :: ((List.range r).map Nat.succ).map
      (k + 2 + ·) := by
      rw [range_succ_eq_map, map_cons, Nat.add_zero]
    rw [dirOffs, hr, range_add, htail, map_append, map_cons]
    simp only [Nat.zero_add]
    exact ⟨_, rfl⟩
  have hscan :
    dirScan dp "dirlookup read" (fun de => de.inum ≠ 0 &&
      namecmp (Mkfs.shortName f.path) de.name = 0)
      ((List.range (k + 2)).map (16 * ·) ++ 16 * (k + 2) :: post) t =
        .ok (some (16 * (k + 2), direntAt t.disk (t.itable dp).din (16 * (k + 2))), t) := by
    refine dirScan_finds hmax (fun o ho => ?_) (fun o ho => ?_) ?_
    · obtain ⟨j, hj, rfl⟩ : ∃ j < files.length + 2, 16 * j = o := by
        rcases mem_cons.mp ho with rfl | ho
        · exact ⟨k + 2, by omega, rfl⟩
        · obtain ⟨j, hj, rfl⟩ := mem_map.mp ho
          have hj := mem_range.mp hj
          exact ⟨j, by omega, rfl⟩
      refine ⟨by omega, by omega, ?_⟩
      rw [hdp, hdisk]
      exact h.mapped hr (by decide) hrt (by omega)
    · obtain ⟨j, hj, rfl⟩ := mem_map.mp ho
      have hj := mem_range.mp hj
      obtain ⟨hl, hz⟩ := rootEntry_name hnames (show j < files.length + 2 by omega)
      have hname := hnames f (mem_of_getElem? hk)
      rw [hentry j (by omega)]
      have hne : namecmp (Mkfs.shortName f.path) (strncpy (rootEntry files j).2 dirsiz) ≠ 0 := by
        rw [ne_eq, namecmp_eq_zero, sameName_strncpy]
        exact fun he => rootEntry_ne hnames hdist hk hj (strncpy_inj hname.len hname.nul hl hz he)
      simp [hne]
    · have hsame : namecmp (Mkfs.shortName f.path) (strncpy (Mkfs.shortName f.path) dirsiz) = 0 :=
        namecmp_eq_zero.mpr (sameName_strncpy.mpr rfl)
      rw [hentry _ (by omega), hmine]
      simp [hsame]
  unfold Xv6.dirlookup
  rw [sat_bind, sat_getState, if_neg (not_not_intro htd), sat_bind, hoffs, sat_of_eq hscan,
    hentry _ (by omega), hmine]
  refine (iget_sat hE).bind ?_
  intro ip t' hgot
  rw [sat_pure]
  exact ⟨ip, rfl, hgot⟩

lemma Laid.readi {dst : Dst} (h : Laid s1 files C) (hfin : s1.finish = some s)
    (hcount : files.length ≤ mkfsSb.ninodes - 2) (hk : files[k]? = some f) (hdisk : t.disk = s.disk)
    (hip : (t.itable ip).din = (mount mkfsSb s.disk).dinode (k + 2))
    (hdst : ∀ j < n.toNat, dst j = true)
    (hwrap : off.toNat + n.toNat < 2 ^ 32 ∨ f.reads.flatten.length ≤ off.toNat) :
    Xv6.readi ip dst off n t = .ok (((((f.reads.flatten.drop off.toNat).take n.toNat).length : Int),
      (f.reads.flatten.drop off.toNat).take n.toNat), t) := by
  obtain ⟨hi, ht, hC, -, hsize⟩ := h.dinode hfin hcount hk
  obtain ⟨L, hL⟩ : ∃ L, L = f.reads.flatten := ⟨_, rfl⟩
  rw [← hL] at hC hsize hwrap ⊢
  have hsz : (t.itable ip).din.size = L.length := by rw [hip]; exact hsize
  have hbytes : ∀ y < L.length, fileByte t.disk (t.itable ip).din y = L.getD y 0 := by
    rw [hip, hdisk, ← hC]
    exact fun y hy => h.finish hfin hi ht hy
  have hmax : (t.itable ip).din.size ≤ maxfile * bsize := by
    rw [hsz, ← hC, ← h.contents.size _ hi ht]
    exact (h.root.inv.maps _ hi ht).2
  have hlen : readLen (t.itable ip).din.size off n = ((L.drop off.toNat).take n.toNat).length := by
    rw [readLen, hsz, length_take, length_drop]
    split
    next hc =>
      rcases hc with hc | hc
      · omega
      · rw [UInt32.lt_iff_toNat_lt, UInt32.toNat_add] at hc
        omega
    next => rfl
  have hle : off.toNat ≤ L.length → off.toNat + readLen (t.itable ip).din.size off n ≤ L.length := by
    intro ho
    rw [hlen, length_take, length_drop]
    omega
  have hslice : fileSlice t.disk (t.itable ip).din off.toNat (readLen (t.itable ip).din.size off n) =
      (L.drop off.toNat).take n.toNat := by
    by_cases ho : off.toNat ≤ L.length
    · rw [fileSlice_of_bytes hbytes (hle ho), hlen, take_eq_take_iff, length_take]
      omega
    · have hnil : L.drop off.toNat = [] := drop_eq_nil_of_le (by omega)
      rw [hlen, hnil, take_nil]
      rfl
  have hsat : Sat (Xv6.readi ip dst off n) t (fun _ => False) _ :=
    readi_mapped hmax dst off n fun x h1 h2 => by
    by_cases ho : off.toNat ≤ L.length
    · have hx := hle ho
      rw [hip, hdisk]
      exact h.mapped hfin hi ht (by rw [hC]; omega)
    · rw [hlen, drop_eq_nil_of_le (by omega), take_nil, length_nil] at h2
      omega
  obtain ⟨r, t', hrun, rfl, ⟨rfl, -⟩ | ⟨-, j, hj, -, hf, -⟩⟩ := hsat.returns
  · rw [hrun, hslice, hlen]
  · rw [hlen, length_take] at hj
    rw [hdst j (by omega)] at hf
    cases hf

end

end Xv6
