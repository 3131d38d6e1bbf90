import Xv6.FileData

/-! The invariant of the inode layer: blocks have one owner, files have no holes,
directory entries name inodes that exist, and a valid entry of the inode table is
equal to the dinode on disk. -/

namespace Xv6

open Function (update_self update_of_ne update_idem update)

open Kern List

def direntAt (disk : Disk) (d : Dinode) (off : Nat) : Dirent := getDirent (fileSlice disk d off 16)

/-- The entries of a directory have inode numbers. -/
def DirOk (sb : Superblock) (disk : Disk) (d : Dinode) : Prop :=
  d.type = tDir → ∀ k, 16 * k + 16 ≤ d.size → (direntAt disk d (16 * k)).inum < sb.ninodes

structure DiskInv (s : Fs) : Prop where
  layout : Layout s.sb
  own : Own s.sb s.disk s.dinode []
  solid : ∀ i < s.sb.ninodes, (s.dinode i).type ≠ 0 → Solid s.disk (s.dinode i)
  dirs : ∀ i < s.sb.ninodes, DirOk s.sb s.disk (s.dinode i)

structure TableInv (s : Fs) : Prop where
  inum : ∀ ip < ninode, 0 < (s.itable ip).ref → (s.itable ip).inum < s.sb.ninodes
  unique : ∀ a < ninode, ∀ b < ninode, 0 < (s.itable a).ref → 0 < (s.itable b).ref →
    (s.itable a).inum = (s.itable b).inum → a = b
  coherent : ∀ ip < ninode, 0 < (s.itable ip).ref → (s.itable ip).valid = true →
    (s.itable ip).din = s.dinode (s.itable ip).inum ∧ (s.itable ip).din.type ≠ 0

/-- The invariant of the file system. -/
structure FsInv (s : Fs) : Prop extends DiskInv s, TableInv s

structure Saved (ip : Nat) (s s' : Fs) : Prop where
  sb : s'.sb = s.sb
  outstanding : s'.outstanding = s.outstanding
  slots : ∀ x, x ≠ ip → s'.itable x = s.itable x
  slot : s'.itable ip = { s.itable ip with din := (s'.itable ip).din }
  self : s'.dinode (s.itable ip).inum = (s'.itable ip).din
  other : ∀ j < s.sb.ninodes, j ≠ (s.itable ip).inum → s'.dinode j = s.dinode j
  files : ∀ j < s.sb.ninodes, j ≠ (s.itable ip).inum → (s.dinode j).type ≠ 0 → ∀ bn,
    fileBlock s'.disk (s.dinode j) bn = fileBlock s.disk (s.dinode j) bn

section

variable {ip : Nat} {s s₁ s' : Fs} {E : Panics} {I : Nat → Dinode} {L : List Nat}

variable {disk disk' : Disk} {d : Dinode} {sb : Superblock}

lemma fileByte_congr
    (h : ∀ bn, fileBlock disk' d bn = fileBlock disk d bn)
    (x : Nat) : fileByte disk' d x = fileByte disk d x := by
  rw [fileByte, h, fileByte]

lemma direntAt_congr {d' : Dinode} {off : Nat}
    (h : ∀ x, off ≤ x → x < off + 16 → fileByte disk' d' x = fileByte disk d x) :
    direntAt disk' d' off = direntAt disk d off := by
  unfold direntAt fileSlice
  congr 1
  apply map_congr_left
  intro j hj
  rw [mem_range] at hj
  exact h _ (by omega) (by omega)

lemma Solid.congr (h : Solid disk d)
    (hb : ∀ bn, fileBlock disk' d bn = fileBlock disk d bn) : Solid disk' d :=
  ⟨h.size_le, fun bn hbn => by rw [hb]; exact h.mapped bn hbn⟩

lemma DirOk.congr (h : DirOk sb disk d)
    (hb : ∀ bn, fileBlock disk' d bn = fileBlock disk d bn) : DirOk sb disk' d := by
  intro ht k hk
  rw [direntAt_congr fun x _ _ => fileByte_congr hb x]
  exact h ht k hk

lemma fileBlock_of_slots
    (h : ∀ k, slotAddr disk d k ≠ 0 → disk' (slotAddr disk d k) = disk (slotAddr disk d k)) (bn : Nat) :
    fileBlock disk' d bn = fileBlock disk d bn := by
  refine fileBlock_congr ?_ (h _)
  refine slotAddr_congr (fun ha => ?_) _
  have hind := h ndirect (by rw [slotAddr_of_le (Nat.le_refl _)]; exact ha)
  rwa [slotAddr_of_le (Nat.le_refl _)] at hind

lemma OnInode.fileBlock (h : OnInode I L ip s s') {j : Nat} (hj : j < s.sb.ninodes)
    (ht : (I j).type ≠ 0) (hne : j ≠ (s.itable ip).inum) (bn : Nat) :
    fileBlock s'.disk (I j) bn = Xv6.fileBlock s.disk (I j) bn :=
  fileBlock_of_slots (fun k hk => h.others (j, k) _ ⟨hj, ht, rfl, hk⟩ hne) bn

lemma iblock_inj {i j : Nat} (h : iblock sb i = iblock sb j) (hm : i % ipb = j % ipb) : i = j := by
  have hdiv : i / ipb = j / ipb := Nat.add_right_cancel h
  have h1 := Nat.div_add_mod i ipb
  have h2 := Nat.div_add_mod j ipb
  rw [hdiv, hm] at h1
  omega

lemma dinode_setDinode (s : Fs) (i j : Nat) (d : Dinode) : getDinode (update s.disk (iblock s.sb i)
      (setDinode (s.disk (iblock s.sb i)) (i % ipb) d) (iblock s.sb j)) (j % ipb) =
      if j = i then d else s.dinode j := by
  have hlt : i % ipb < ipb := Nat.mod_lt _ (by decide)
  by_cases hji : j = i
  · subst hji
    rw [if_pos rfl, update_self, getDinode_setDinode_self _ _ hlt]
  · rw [if_neg hji]
    by_cases hb : iblock s.sb j = iblock s.sb i
    · have hm : j % ipb ≠ i % ipb := fun hm => hji (iblock_inj hb hm)
      rw [hb, update_self, getDinode_setDinode_of_ne _ _ hm, Fs.dinode, hb]
    · rw [update_of_ne hb, Fs.dinode]

lemma fileBlock_of_data (h : Own sb disk I L) {j : Nat}
    (hj : j < sb.ninodes) (ht : (I j).type ≠ 0) (hd : ∀ x, nmeta sb ≤ x → disk' x = disk x) (bn : Nat) :
    fileBlock disk' (I j) bn = fileBlock disk (I j) bn :=
  fileBlock_of_slots (fun k hk => hd _ (h.owned_pool (o := (j, k)) ⟨hj, ht, rfl, hk⟩).1) bn

lemma owns_view {I' : Nat → Dinode} (h : ∀ j < sb.ninodes, I' j = I j)
    (o : Nat × Nat) (b : Nat) : Owns sb disk I' o b ↔ Owns sb disk I o b := by
  unfold Owns
  by_cases hi : o.1 < sb.ninodes
  · rw [h _ hi]
  · simp [hi]

/-- The inode on disk becomes the one in memory. -/
lemma iupdate_sat (he : Editing s.dinode [] ip s) (hon : OnInode s.dinode [] ip s s₁) :
    Sat (iupdate ip) s₁ E fun _ s' => Saved ip s s' ∧ Own s'.sb s'.disk s'.dinode [] ∧
      s'.itable = s₁.itable ∧ ∀ bn, fileBlock s'.disk (s₁.itable ip).din bn =
        fileBlock s₁.disk (s₁.itable ip).din bn := by
  have he1 := hon.editing he
  unfold iupdate
  rw [sat_bind, sat_getState]
  refine (writeBlock_sat he1.txn _ _).imp ?_
  rintro _ s' rfl
  have hsb := hon.sb
  have hnum := hon.inum
  have hib : iblock s₁.sb (s₁.itable ip).inum < s₁.sb.bmapstart := he1.layout.iblock_lt _ he1.inum
  have hm := he1.layout.bmap_meta
  have hdin : ∀ j < s.sb.ninodes, getDinode (update s₁.disk (iblock s₁.sb (s₁.itable ip).inum)
      (setDinode (s₁.disk (iblock s₁.sb (s₁.itable ip).inum)) ((s₁.itable ip).inum % ipb)
        (s₁.itable ip).din) (iblock s₁.sb j)) (j % ipb) =
      update s.dinode (s.itable ip).inum (s₁.itable ip).din j := by
    intro j hj
    rw [dinode_setDinode, hnum]
    by_cases hji : j = (s.itable ip).inum
    · rw [if_pos hji, hji, update_self]
    · rw [if_neg hji, update_of_ne hji, Fs.dinode, hsb,
        hon.inodes _ (he.layout.iblock_lt j hj), Fs.dinode]
  have hown1 : Own s₁.sb s₁.disk (update s.dinode (s.itable ip).inum (s₁.itable ip).din) [] := by
    rw [hsb]
    exact hon.own
  have hself : (update s.dinode (s.itable ip).inum (s₁.itable ip).din) (s.itable ip).inum =
      (s₁.itable ip).din := update_self _ _ _
  have hdata : ∀ x, nmeta s₁.sb ≤ x → update s₁.disk (iblock s₁.sb (s₁.itable ip).inum)
      (setDinode (s₁.disk (iblock s₁.sb (s₁.itable ip).inum)) ((s₁.itable ip).inum % ipb)
        (s₁.itable ip).din) x = s₁.disk x := fun x hx => update_of_ne (by omega) _ _
  refine ⟨⟨hsb, hon.outstanding, hon.slots, hon.slot, ?_, ?_, ?_⟩, ?_, rfl, ?_⟩
  · exact (hdin _ he.inum).trans hself
  · intro j hj hne
    exact (hdin j hj).trans (update_of_ne hne _ _)
  · intro j hj hne ht bn
    have hview : update s.dinode (s.itable ip).inum (s₁.itable ip).din j = s.dinode j :=
      update_of_ne hne _ _
    have hmeta := fileBlock_of_data hown1 (by rw [hsb]; exact hj) (by rw [hview]; exact ht) hdata bn
    rw [hview] at hmeta
    exact hmeta.trans (hon.fileBlock hj ht hne bn)
  · refine (hown1.setMeta he1.layout _ hib).congr he1.layout (fun _ _ => rfl) (owns_view fun j hj => ?_)
    exact hdin j (by rw [← hsb]; exact hj)
  · intro bn
    have hmeta := fileBlock_of_data hown1 (by rw [hsb]; exact he.inum)
      (by rw [hself, hon.type]; exact he.type) hdata bn
    rw [hself] at hmeta
    exact hmeta

structure Loaded (ip : Nat) (s : Fs) : Prop where
  lt : ip < ninode
  ref : 0 < (s.itable ip).ref
  valid : (s.itable ip).valid = true

lemma FsInv.editing (hi : FsInv s) (hip : Loaded ip s) (htx : 1 ≤ s.outstanding) :
    Editing s.dinode [] ip s where
  layout := hi.layout
  txn := htx
  inum := hi.inum ip hip.lt hip.ref
  type := (hi.coherent ip hip.lt hip.ref hip.valid).2
  view := (hi.coherent ip hip.lt hip.ref hip.valid).1.symm
  own := hi.own

lemma FsInv.solid_of_loaded (hi : FsInv s) (hip : Loaded ip s) : Solid s.disk (s.itable ip).din := by
  obtain ⟨hd, ht⟩ := hi.coherent ip hip.lt hip.ref hip.valid
  rw [hd] at ht ⊢
  exact hi.solid _ (hi.inum ip hip.lt hip.ref) ht

/-- References, numbers and locks are as they were. -/
structure SameRefs (s s' : Fs) : Prop where
  sb : s'.sb = s.sb
  outstanding : s'.outstanding = s.outstanding
  slot : ∀ x, (s'.itable x).ref = (s.itable x).ref ∧ (s'.itable x).inum = (s.itable x).inum ∧
    (s'.itable x).valid = (s.itable x).valid ∧ (s'.itable x).lock = (s.itable x).lock

lemma SameRefs.trans {s'' : Fs} (h : SameRefs s s') (h' : SameRefs s' s'') : SameRefs s s'' where
  sb := h'.sb.trans h.sb
  outstanding := h'.outstanding.trans h.outstanding
  slot := fun x => ⟨(h'.slot x).1.trans (h.slot x).1, (h'.slot x).2.1.trans (h.slot x).2.1,
    (h'.slot x).2.2.1.trans (h.slot x).2.2.1, (h'.slot x).2.2.2.trans (h.slot x).2.2.2⟩

lemma Saved.ref (h : Saved ip s s') (x : Nat) : (s'.itable x).ref = (s.itable x).ref ∧
    (s'.itable x).inum = (s.itable x).inum ∧ (s'.itable x).valid = (s.itable x).valid ∧
    (s'.itable x).lock = (s.itable x).lock := by
  by_cases hx : x = ip
  · subst hx
    rw [h.slot]
    exact ⟨rfl, rfl, rfl, rfl⟩
  · rw [h.slots x hx]
    exact ⟨rfl, rfl, rfl, rfl⟩

lemma Saved.sameRefs (h : Saved ip s s') : SameRefs s s' := ⟨h.sb, h.outstanding, h.ref⟩

lemma FsInv.saved (hi : FsInv s) (hip : Loaded ip s) (h : Saved ip s s')
    (hown : Own s'.sb s'.disk s'.dinode []) (hsolid : Solid s'.disk (s'.itable ip).din)
    (hdir : DirOk s'.sb s'.disk (s'.itable ip).din) (ht : (s'.itable ip).din.type ≠ 0) : FsInv s' where
  layout := by rw [h.sb]; exact hi.layout
  own := hown
  solid := fun j hj htj => by
    rw [h.sb] at hj
    by_cases hji : j = (s.itable ip).inum
    · rw [hji, h.self]
      exact hsolid
    · rw [h.other j hj hji] at htj ⊢
      exact (hi.solid j hj htj).congr (h.files j hj hji htj)
  dirs := fun j hj => by
    rw [h.sb] at hj
    by_cases hji : j = (s.itable ip).inum
    · rw [hji, h.self]
      exact hdir
    · rw [h.other j hj hji, h.sb]
      by_cases htj : (s.dinode j).type = 0
      · intro htd
        rw [htj] at htd
        cases htd
      · exact (hi.dirs j hj).congr (h.files j hj hji htj)
  inum := fun x hx hr => by
    rw [(h.ref x).1] at hr
    rw [(h.ref x).2.1, h.sb]
    exact hi.inum x hx hr
  unique := fun a ha b hb hra hrb he => by
    rw [(h.ref a).1] at hra
    rw [(h.ref b).1] at hrb
    rw [(h.ref a).2.1, (h.ref b).2.1] at he
    exact hi.unique a ha b hb hra hrb he
  coherent := fun x hx hr hv => by
    by_cases hxi : x = ip
    · subst hxi
      rw [(h.ref x).2.1, h.self]
      exact ⟨rfl, ht⟩
    · rw [h.slots x hxi] at hr hv ⊢
      obtain ⟨hd, htx⟩ := hi.coherent x hx hr hv
      refine ⟨?_, htx⟩
      rw [h.other _ (hi.inum x hx hr) fun he => hxi (hi.unique x hx ip hip.lt hr hip.ref he)]
      exact hd

lemma OnInode.setDin (h : OnInode I L ip s s₁) (ht : d.type = (s₁.itable ip).din.type)
    (ha : d.addrs = (s₁.itable ip).din.addrs) : OnInode I L ip s (s₁.setDin ip d) := by
  refine ⟨h.sb, h.outstanding, fun x hx => ?_, ?_, ?_, ?_, h.others, h.inodes⟩
  · rw [← h.slots x hx]
    simp [Fs.setDin, Fs.setInode, hx]
  · simp only [Fs.setDin, Fs.setInode, update_self]
    rw [h.slot]
  · have howns : ∀ o b, Owns s.sb s₁.disk (update I (s.itable ip).inum d) o b ↔
        Owns s.sb s₁.disk (update I (s.itable ip).inum (s₁.itable ip).din) o b := by
      intro o b
      by_cases ho : o.1 = (s.itable ip).inum
      · unfold Owns slotAddr
        rw [ho, update_self, update_self, ht, ha]
      · rw [owns_update_ne ho, owns_update_ne ho]
    have hown := h.own
    have hnew : Own s.sb s₁.disk (update I (s.itable ip).inum d) L :=
      ⟨hown.ledger.congr (fun _ _ => Iff.rfl) howns, hown.rest⟩
    simpa [Fs.setDin, Fs.setInode] using hnew
  · rw [← h.type, ← ht]
    simp [Fs.setDin, Fs.setInode]

end

section

variable {ip : Nat} {s s' : Fs} {E : Panics} {src : Src}

structure WroteFile (ip : Nat) (src : Src) (off n : Nat) (s s' : Fs) (w : Nat) : Prop where
  saved : Saved ip s s'
  own : Own s'.sb s'.disk s'.dinode []
  off_le : off ≤ (s.itable ip).din.size
  end_le : off + n ≤ maxfile * bsize
  le : w ≤ n
  type : (s'.itable ip).din.type = (s.itable ip).din.type
  major : (s'.itable ip).din.major = (s.itable ip).din.major
  minor : (s'.itable ip).din.minor = (s.itable ip).din.minor
  nlink : (s'.itable ip).din.nlink = (s.itable ip).din.nlink
  size : (s'.itable ip).din.size = max (s.itable ip).din.size (off + w)
  solid : Solid s'.disk (s'.itable ip).din
  bytes : ∃ w' ≥ w, ((∀ j, src j ≠ none) → w' = w) ∧ ∀ x, fileByte s'.disk (s'.itable ip).din x =
    if off ≤ x ∧ x < off + w' then (src (x - off)).getD 0 else fileByte s.disk (s.itable ip).din x
  done : (∀ j, src j ≠ none) → (∀ x, off ≤ x → x < off + n →
    fileBlock s.disk (s.itable ip).din (x / bsize) ≠ none) → w = n
  room : (∀ j, src j ≠ none) → off % bsize + n ≤ bsize → off / bsize < ndirect →
    (∃ c < s.sb.size, s.bit c = false) → w = n
  chunk : off % bsize + n ≤ bsize → w = 0 ∨ w = n

variable {off n w : Nat}

lemma Wrote.solid {I : Nat → Dinode} {L : List Nat} {tot : Nat}
    (hw : Wrote I L ip src n off tot s s' w) (hs : Solid s.disk (s.itable ip).din)
    (hoff : off ≤ (s.itable ip).din.size) (hend : off + n ≤ maxfile * bsize) {d : Dinode}
    (hd : ∀ bn, fileBlock s'.disk d bn = fileBlock s'.disk (s'.itable ip).din bn)
    (hsize : d.size = max (s.itable ip).din.size (off + w)) : Solid s'.disk d := by
  have hle := hw.le
  have hsl := hs.size_le
  refine ⟨by omega, fun bn hbn => ?_⟩
  rw [hd]
  by_cases hold : bn * bsize < (s.itable ip).din.size
  · exact hw.mapped bn (hs.mapped bn hold)
  · have hfill := hw.filled (bn * bsize) (by omega) (by omega)
    rwa [Nat.mul_div_cancel _ (by decide)] at hfill

lemma Wrote.finish {s₁ s₂ : Fs} (hi : FsInv s) (hip : Loaded ip s)
    (htx : 1 ≤ s.outstanding) (hw : Wrote s.dinode [] ip src n off 0 s s₁ w)
    (hoff : off ≤ (s.itable ip).din.size) (hend : off + n ≤ maxfile * bsize)
    (hon : OnInode s.dinode [] ip s s₂) (hdisk : s₂.disk = s₁.disk)
    (hblk : ∀ bn, fileBlock s₁.disk (s₂.itable ip).din bn = fileBlock s₁.disk (s₁.itable ip).din bn)
    (hhead : (s₂.itable ip).din.head = ((s.itable ip).din.type, (s.itable ip).din.major,
      (s.itable ip).din.minor, (s.itable ip).din.nlink, max (s.itable ip).din.size (off + w))) :
    Sat (do iupdate ip; pure (w : Int)) s₂ E fun r s' => r = w ∧ WroteFile ip src off n s s' w := by
  have he := hi.editing hip htx
  have hs := hi.solid_of_loaded hip
  simp only [Dinode.head, Prod.mk.injEq] at hhead
  obtain ⟨htype, hmajor, hminor, hnlink, hsize⟩ := hhead
  refine (iupdate_sat he hon).bind ?_
  rintro _ s' ⟨hsaved, hown, htab, hfile⟩
  rw [sat_pure]
  have hdin : (s'.itable ip).din = (s₂.itable ip).din := by rw [htab]
  have hblk' : ∀ bn, fileBlock s'.disk (s'.itable ip).din bn =
      fileBlock s₁.disk (s₁.itable ip).din bn := by
    intro bn
    rw [hdin, hfile, hdisk, hblk]
  rw [← hdin] at htype hmajor hminor hnlink hsize
  refine ⟨rfl, hsaved, hown, hoff, hend, hw.le, htype, hmajor, hminor, hnlink, hsize,
    ?_, ?_, hw.done, hw.room, hw.chunk⟩
  · have hsol := hw.solid hs hoff hend (d := (s'.itable ip).din) (by rw [hdin]; exact hblk) hsize
    refine ⟨hsol.size_le, fun bn hbn => ?_⟩
    rw [hblk', ← hblk, ← hdin]
    exact hsol.mapped bn hbn
  · obtain ⟨w', hge, heq, hb⟩ := hw.bytes
    refine ⟨w', hge, heq, fun x => ?_⟩
    have hbx := hb x
    rw [Nat.zero_add] at hbx
    rw [← hbx, fileByte, hblk', fileByte]

lemma writei_sat (hi : FsInv s) (hip : Loaded ip s) (htx : 1 ≤ s.outstanding) (off n : UInt32) :
    Sat (writei ip src off n) s E fun r s' =>
      (r = -1 ∧ s' = s ∧ (off.toNat > (s.itable ip).din.size ∨ off + n < off ∨
        (off + n).toNat > maxfile * bsize)) ∨
      ∃ w : Nat, r = w ∧ WroteFile ip src off.toNat n.toNat s s' w := by
  unfold writei
  rw [sat_bind, sat_getState]
  by_cases hc : off.toNat > (s.itable ip).din.size ∨ off + n < off
  · rw [if_pos hc, sat_pure]
    exact .inl ⟨rfl, rfl, by tauto⟩
  · rw [if_neg hc]
    by_cases hbig : (off + n).toNat > maxfile * bsize
    · rw [if_pos hbig, sat_pure]
      exact .inl ⟨rfl, rfl, by tauto⟩
    · rw [if_neg hbig]
      obtain ⟨h1, h2⟩ := not_or.mp hc
      have hsum := add_toNat_of_not_lt h2
      have hoff : off.toNat ≤ (s.itable ip).din.size := by omega
      have hend : off.toNat + n.toNat ≤ maxfile * bsize := by omega
      refine (writeLoop_sat (hi.editing hip htx) n.toNat off.toNat 0 hend).bind ?_
      rintro r s₁ ⟨w, rfl, hw, -⟩
      have hle := hw.le
      have hhead := hw.head
      simp only [Dinode.head, Prod.mk.injEq] at hhead
      obtain ⟨htype, hmajor, hminor, hnlink, hsize⟩ := hhead
      simp only [Nat.zero_add]
      rw [sat_bind, sat_getState]
      by_cases hgrow : off.toNat + w > (s₁.itable ip).din.size
      · have hsmall : (off.toNat + w) % 2 ^ 32 = off.toNat + w := by
          simp only [maxfile, ndirect, nindirect, bsize] at hend
          exact Nat.mod_eq_of_lt (by omega)
        rw [if_pos hgrow, sat_bind, sat_modifyState]
        refine (hw.finish hi hip htx hoff hend
          (hw.on.setDin (d := (s₁.itable ip).din.setSize _) rfl rfl)
          rfl ?_ ?_).imp fun r s' h => .inr ⟨w, h.1, h.2⟩
        · intro bn
          simp only [Fs.setDin, Fs.setInode, update_self]
          rfl
        · simp only [Fs.setDin, Fs.setInode, update_self, Dinode.head, Dinode.setSize, hsmall]
          rw [htype, hmajor, hminor, hnlink, Nat.max_eq_right (by omega)]
      · rw [if_neg hgrow]
        refine (hw.finish hi hip htx hoff hend hw.on rfl (fun bn => rfl) ?_).imp fun r s' h =>
          Or.inr ⟨w, h.1, h.2⟩
        rw [Dinode.head, htype, hmajor, hminor, hnlink, hsize, Nat.max_eq_left (by omega)]

lemma FsInv.wroteFile (hi : FsInv s) (hip : Loaded ip s)
    (h : WroteFile ip src off n s s' w) (hdir : DirOk s'.sb s'.disk (s'.itable ip).din) : FsInv s' := by
  refine hi.saved hip h.saved h.own h.solid hdir ?_
  rw [h.type]
  exact (hi.coherent ip hip.lt hip.ref hip.valid).2

end

section

variable {ip : Nat} {s s₁ s₂ s' : Fs} {E : Panics} {I : Nat → Dinode} {L : List Nat}

/-- Only blocks of the bitmap changed. -/
structure BitmapOnly (s s' : Fs) : Prop where
  sb : s'.sb = s.sb
  outstanding : s'.outstanding = s.outstanding
  itable : s'.itable = s.itable
  disk : ∀ x, x < s.sb.bmapstart ∨ nmeta s.sb ≤ x → s'.disk x = s.disk x

lemma BitmapOnly.trans (h : BitmapOnly s s₁) (h' : BitmapOnly s₁ s₂) : BitmapOnly s s₂ where
  sb := h'.sb.trans h.sb
  outstanding := h'.outstanding.trans h.outstanding
  itable := h'.itable.trans h.itable
  disk := fun x hx => (h'.disk x (by rw [h.sb]; exact hx)).trans (h.disk x hx)

lemma bfree_bitmapOnly {b : Nat} (hl : Layout s.sb) (htx : 1 ≤ s.outstanding)
    (h : Own s.sb s.disk I (b :: L)) :
    Sat (bfree b) s E fun _ s' => Own s'.sb s'.disk I L ∧ BitmapOnly s s' := by
  have hb := hl.bmap_lt (h.ledger.loose_pool b mem_cons_self).1.2
  refine (bfree_sat hl htx h).imp ?_
  rintro _ s' ⟨hown, lg, rfl⟩
  exact ⟨hown, rfl, rfl, rfl, fun x hx => update_of_ne (by omega) _ _⟩

lemma OnInode.cut (h : OnInode I L ip s s₁) (he : Editing I L ip s)
    (hb : BitmapOnly s₁ s₂) {d : Dinode} (ht : d.type = (s₁.itable ip).din.type)
    (hown : Own s₂.sb s₂.disk (update I (s.itable ip).inum d) L) :
    OnInode I L ip s (s₂.setDin ip d) where
  sb := hb.sb.trans h.sb
  outstanding := hb.outstanding.trans h.outstanding
  slots := fun x hx => by
    rw [← h.slots x hx]
    simp [Fs.setDin, Fs.setInode, hx, hb.itable]
  slot := by
    simp only [Fs.setDin, Fs.setInode, hb.itable, update_self]
    rw [h.slot]
  own := by
    rw [hb.sb, h.sb] at hown
    simpa [Fs.setDin, Fs.setInode] using hown
  type := by
    rw [← h.type, ← ht]
    simp [Fs.setDin, Fs.setInode]
  others := fun o x ho hne => by
    have hge := (he.own.owned_pool ho).1
    exact (hb.disk x (by rw [h.sb]; exact .inr hge)).trans (h.others o x ho hne)
  inodes := fun x hx => (hb.disk x (by rw [h.sb]; exact .inl hx)).trans (h.inodes x hx)

structure CutDirect (ip : Nat) (s : Fs) (xs : List Nat) (s₁ : Fs) : Prop where
  on : OnInode s.dinode [] ip s s₁
  head : (s₁.itable ip).din.head = (s.itable ip).din.head
  addrs : ∀ i, (s₁.itable ip).din.addrs i =
    if i < ndirect ∧ i ∉ xs then 0 else (s.itable ip).din.addrs i
  todo : ∀ i ∈ xs, i < ndirect
  nodup : xs.Nodup

lemma itruncDirect_sat (he : Editing s.dinode [] ip s) {i : Nat} {xs : List Nat}
    (h : CutDirect ip s (i :: xs) s₁) : Sat (do
      let s ← getState
      if (s.itable ip).din.addrs i ≠ 0 then
        bfree ((s.itable ip).din.addrs i)
        modifyState fun s => s.setDin ip ((s.itable ip).din.setAddr i 0)) s₁ E
      fun _ s' => CutDirect ip s xs s' := by
  obtain ⟨hix, hnd⟩ := nodup_cons.mp h.nodup
  have hi := h.todo i mem_cons_self
  have htodo : ∀ j ∈ xs, j < ndirect := fun j hj => h.todo j (mem_cons_of_mem _ hj)
  have he1 := h.on.editing he
  rw [sat_bind, sat_getState]
  by_cases hz : (s₁.itable ip).din.addrs i ≠ 0
  · rw [if_pos hz, sat_bind]
    have hdet :=
      he1.own.detach he1.inum (by rw [he1.view]; exact he1.type) hi (by rw [he1.view]; exact hz)
    rw [he1.view] at hdet
    refine (bfree_bitmapOnly he1.layout he1.txn hdet).imp ?_
    rintro _ s₂ ⟨hown, hb⟩
    rw [sat_modifyState, hb.itable]
    rw [h.on.inum, update_idem] at hown
    refine ⟨h.on.cut he hb rfl hown, ?_, fun j => ?_, htodo, hnd⟩
    · rw [← h.head]
      simp only [Fs.setDin, Fs.setInode, update_self]
      rfl
    · simp only [Fs.setDin, Fs.setInode, update_self]
      by_cases hj : j = i
      · subst hj
        rw [Dinode.setAddr_self _ (Nat.le_of_lt hi) (by decide), if_pos ⟨hi, hix⟩]
      · rw [Dinode.setAddr_of_ne _ _ hj, h.addrs j]
        simp [hj]
  · rw [if_neg hz, sat_pure]
    have h0 : (s₁.itable ip).din.addrs i = 0 := by simpa using hz
    refine ⟨h.on, h.head, fun j => ?_, htodo, hnd⟩
    by_cases hj : j = i
    · subst hj
      rw [h0, if_pos ⟨hi, hix⟩]
    · rw [h.addrs j]
      simp [hj]

/-- Some words of the indirect block `ind` have been freed; those of `js` are still loose. -/
structure CutWords (I : Nat → Dinode) (ind : Nat) (s₁ : Fs) (js : List Nat) (s₂ : Fs) : Prop where
  own : Own s₂.sb s₂.disk I (wordsAt (s₁.disk ind) js ++ [ind])
  bitmap : BitmapOnly s₁ s₂

lemma itruncWord_sat {ind j : Nat} {js : List Nat} (hl : Layout s₁.sb) (htx : 1 ≤ s₁.outstanding)
    (hind : nmeta s₁.sb ≤ ind) (h : CutWords I ind s₁ (j :: js) s₂) : Sat (do
      let s ← getState
      if getWord (s.disk ind) j ≠ 0 then bfree (getWord (s.disk ind) j)) s₂ E
      fun _ s' => CutWords I ind s₁ js s' := by
  have hword : s₂.disk ind = s₁.disk ind := h.bitmap.disk ind (.inr hind)
  have hown := h.own
  rw [sat_bind, sat_getState, hword]
  by_cases hz : getWord (s₁.disk ind) j ≠ 0
  · rw [if_pos hz]
    have hlist :
      wordsAt (s₁.disk ind) (j :: js) = getWord (s₁.disk ind) j :: wordsAt (s₁.disk ind) js := by
      simp [wordsAt, hz]
    rw [hlist, cons_append] at hown
    refine (bfree_bitmapOnly (by rw [h.bitmap.sb]; exact hl)
      (by rw [h.bitmap.outstanding]; exact htx) hown).imp ?_
    rintro _ s' ⟨hown', hb⟩
    exact ⟨hown', h.bitmap.trans hb⟩
  · rw [if_neg hz, sat_pure]
    have h0 : getWord (s₁.disk ind) j = 0 := by simpa using hz
    have hlist : wordsAt (s₁.disk ind) (j :: js) = wordsAt (s₁.disk ind) js := by
      simp [wordsAt, h0]
    rw [hlist] at hown
    exact ⟨hown, h.bitmap⟩

lemma CutDirect.addrs_zero {d : Dinode} (h : CutDirect ip s [] s₁) (hd : d.addrs ndirect = 0)
    (hlt : ∀ i < ndirect, d.addrs i = (s₁.itable ip).din.addrs i) (i : Nat) : d.addrs i = 0 := by
  rcases Nat.lt_trichotomy i ndirect with hi | rfl | hi
  · rw [hlt i hi, h.addrs i, if_pos ⟨hi, not_mem_nil⟩]
  · exact hd
  · exact d.addrs_end i hi

lemma Dinode.zero_lt32 : 0 < 2 ^ 32 := by decide

lemma Dinode.addrs_zero_lt (i : Nat) : (fun _ : Nat => 0) i < 2 ^ 32 := zero_lt32

lemma Dinode.addrs_zero_end (i : Nat) (_ : ndirect < i) : (fun _ : Nat => 0) i = 0 := rfl

def Dinode.cleared (d : Dinode) : Dinode :=
  { d with
    size := 0
    addrs := fun _ => 0
    size_lt := zero_lt32
    addrs_lt := addrs_zero_lt
    addrs_end := addrs_zero_end }

lemma Dinode.setSize_eq_cleared {d d' : Dinode} (h : d'.head = d.head) (ha : ∀ i, d'.addrs i = 0) :
    d'.setSize 0 = d.cleared := by
  simp only [head, Prod.mk.injEq] at h
  obtain ⟨ht, hmj, hmn, hnl, -⟩ := h
  exact Dinode.ext ht hmj hmn hnl rfl (funext ha)

lemma itruncIndirect_sat (he : Editing s.dinode [] ip s) (h : CutDirect ip s [] s₁) :
    Sat (itruncIndirect ip) s₁ E fun _ s₂ => OnInode s.dinode [] ip s s₂ ∧
      (s₂.itable ip).din.head = (s.itable ip).din.head ∧ ∀ i, (s₂.itable ip).din.addrs i = 0 := by
  have he1 := h.on.editing he
  unfold itruncIndirect
  rw [sat_bind, sat_getState]
  by_cases hz : (s₁.itable ip).din.addrs ndirect = 0
  · rw [if_neg (not_not_intro hz), sat_pure]
    exact ⟨h.on, h.head, h.addrs_zero hz fun _ _ => rfl⟩
  rw [if_pos hz]
  set ind := (s₁.itable ip).din.addrs ndirect with hind
  have hcut := he1.own.detachIndirect he1.inum (by rw [he1.view]; exact he1.type)
    (by rw [he1.view]; exact hz)
  rw [he1.view, ← hind, h.on.inum, update_idem] at hcut
  have hpool := (hcut.ledger.loose_pool ind (by simp)).1
  refine (sat_forEach (I := CutWords _ ind s₁) ⟨hcut, ?_⟩ fun j js s₂ hw =>
    itruncWord_sat he1.layout he1.txn hpool.1 hw).bind ?_
  · exact ⟨rfl, rfl, rfl, fun _ _ => rfl⟩
  rintro _ s₂ ⟨hown, hb⟩
  refine (bfree_bitmapOnly (by rw [hb.sb]; exact he1.layout) (by rw [hb.outstanding]; exact he1.txn)
    hown).bind ?_
  rintro _ s3 ⟨hown3, hb'⟩
  have hb3 := hb.trans hb'
  rw [sat_modifyState, hb3.itable]
  refine ⟨h.on.cut he hb3 rfl hown3, ?_, ?_⟩
  · rw [← h.head]
    simp only [Fs.setDin, Fs.setInode, update_self]
    rfl
  · simp only [Fs.setDin, Fs.setInode, update_self]
    refine h.addrs_zero (Dinode.setAddr_self _ (Nat.le_refl _) (by decide)) fun i hi => ?_
    exact Dinode.setAddr_of_ne _ _ (Nat.ne_of_lt hi)

/-- `itrunc` keeps the invariant; the file is empty. -/
lemma itrunc_sat (he : Editing s.dinode [] ip s) :
    Sat (itrunc ip) s E fun _ s' => Saved ip s s' ∧ Own s'.sb s'.disk s'.dinode [] ∧
      (s'.itable ip).din = (s.itable ip).din.cleared := by
  unfold itrunc
  have hstart : CutDirect ip s (List.range ndirect) s := by
    refine ⟨OnInode.refl he, rfl, fun i => ?_, fun i hi => mem_range.mp hi, nodup_range⟩
    rw [if_neg (by simp)]
  refine (sat_forEach hstart fun i xs s₁ h => itruncDirect_sat he h).bind ?_
  intro _ s₁ h₁
  refine (itruncIndirect_sat he h₁).bind ?_
  rintro _ s₂ ⟨hon, hhead, haddr⟩
  rw [sat_bind, sat_modifyState]
  refine (iupdate_sat he (hon.setDin (d := (s₂.itable ip).din.setSize 0) rfl rfl)).imp ?_
  rintro _ s' ⟨hsaved, hown, htab, -⟩
  refine ⟨hsaved, hown, ?_⟩
  rw [htab]
  simp only [Fs.setDin, Fs.setInode, update_self]
  exact Dinode.setSize_eq_cleared hhead haddr

end

end Xv6
