import Xv6.BlockOwn

/-! What `bmap`, `itrunc`, `readi` and `writei` do to the inode they are called on,
seen as a map from file block numbers to blocks, and that they touch no other
inode's blocks. -/

namespace Xv6

open Kern
open Function (update update_eq_self update_idem update_of_ne update_self)

def slotOf (bn : Nat) : Nat := if bn < ndirect then bn else bn + 1

def fileBlock (disk : Disk) (d : Dinode) (bn : Nat) : Option Block :=
  if slotAddr disk d (slotOf bn) = 0 then none else some (disk (slotAddr disk d (slotOf bn)))

lemma slotOf_ne (bn : Nat) : slotOf bn ≠ ndirect := by
  unfold slotOf
  split <;> omega

lemma slotOf_inj {a b : Nat} (h : slotOf a = slotOf b) : a = b := by
  unfold slotOf at h
  split at h <;> split at h <;> omega

/-- From `s` to `s'` only inode `ip` has changed, its copy in memory included, but not
the inode blocks. `I` is the view in `s`. -/
structure OnInode (I : Nat → Dinode) (L : List Nat) (ip : Nat) (s s' : Fs) : Prop where
  sb : s'.sb = s.sb
  outstanding : s'.outstanding = s.outstanding
  slots : ∀ x, x ≠ ip → s'.itable x = s.itable x
  slot : s'.itable ip = { s.itable ip with din := (s'.itable ip).din }
  own : Own s.sb s'.disk (update I (s.itable ip).inum (s'.itable ip).din) L
  type : (s'.itable ip).din.type = (s.itable ip).din.type
  others : ∀ o x, Owns s.sb s.disk I o x → o.1 ≠ (s.itable ip).inum → s'.disk x = s.disk x
  inodes : ∀ x < s.sb.bmapstart, s'.disk x = s.disk x

structure Editing (I : Nat → Dinode) (L : List Nat) (ip : Nat) (s : Fs) : Prop where
  layout : Layout s.sb
  txn : 1 ≤ s.outstanding
  inum : (s.itable ip).inum < s.sb.ninodes
  type : (s.itable ip).din.type ≠ 0
  view : I (s.itable ip).inum = (s.itable ip).din
  own : Own s.sb s.disk I L

section

variable {I : Nat → Dinode} {L : List Nat} {ip : Nat} {s s' s'' : Fs}

lemma OnInode.refl (h : Editing I L ip s) : OnInode I L ip s s := by
  refine ⟨rfl, rfl, fun _ _ => rfl, rfl, ?_, rfl, fun _ _ _ _ => rfl, fun _ _ => rfl⟩
  rw [← h.view, update_eq_self]
  exact h.own

variable (h : OnInode I L ip s s')
include h

lemma OnInode.inum : (s'.itable ip).inum = (s.itable ip).inum := by
  rw [h.slot]

lemma OnInode.editing (he : Editing I L ip s) :
    Editing (update I (s.itable ip).inum (s'.itable ip).din) L ip s' where
  layout := by rw [h.sb]; exact he.layout
  txn := by rw [h.outstanding]; exact he.txn
  inum := by rw [h.inum, h.sb]; exact he.inum
  type := by rw [h.type]; exact he.type
  view := by rw [h.inum, update_self]
  own := by rw [h.sb]; exact h.own

lemma OnInode.owns {o : Nat × Nat} {x : Nat}
    (ho : Owns s.sb s.disk I o x) (hne : o.1 ≠ (s.itable ip).inum) (d : Dinode) :
    Owns s'.sb s'.disk (update I (s.itable ip).inum d) o x := by
  rw [h.sb, owns_update_ne hne]
  obtain ⟨h1, h2, h3, h4⟩ := ho
  refine ⟨h1, h2, ?_, h4⟩
  rw [slotAddr_congr fun ha => h.others (o.1, ndirect) _ (owns_indirect h1 h2 ha) hne]
  exact h3

lemma OnInode.trans
    (h' : OnInode (update I (s.itable ip).inum (s'.itable ip).din) L ip s' s'') :
    OnInode I L ip s s'' where
  sb := h'.sb.trans h.sb
  outstanding := h'.outstanding.trans h.outstanding
  slots := fun x hx => (h'.slots x hx).trans (h.slots x hx)
  slot := by
    rw [h'.slot, h.slot]
  own := by
    have hown := h'.own
    rw [h.inum, update_idem, h.sb] at hown
    exact hown
  type := h'.type.trans h.type
  others := fun o x ho hne => by
    rw [h'.others o x (h.owns ho hne _) (by rw [h.inum]; exact hne), h.others o x ho hne]
  inodes := fun x hx => by rw [h'.inodes x (by rw [h.sb]; exact hx), h.inodes x hx]

omit h

end

def Dinode.head (d : Dinode) : Nat × Nat × Nat × Nat × Nat :=
  (d.type, d.major, d.minor, d.nlink, d.size)

/-- There is no free block. -/
def Fs.Full (s : Fs) : Prop := ∀ c < s.sb.size, s.bit c = true

/-- Blocks that were changed are in the log. -/
structure Recorded (s s' : Fs) : Prop where
  kept : ∀ b ∈ s.logged, b ∈ s'.logged
  changed : ∀ b, s'.disk b ≠ s.disk b → b ∈ s'.logged

def BlockKept (ip bn : Nat) (s s' : Fs) : Prop :=
  slotAddr s.disk (s.itable ip).din (slotOf bn) ≠ 0 →
    slotAddr s'.disk (s'.itable ip).din (slotOf bn) = slotAddr s.disk
    (s.itable ip).din (slotOf bn) ∧
    (slotAddr s.disk (s.itable ip).din (slotOf bn) ∈ s'.logged →
      slotAddr s.disk (s.itable ip).din (slotOf bn) ∈ s.logged)

structure SlotFilled (I : Nat → Dinode) (L : List Nat) (ip k : Nat) (s s' : Fs)
    (a : Nat) : Prop where
  ne : a ≠ 0
  empty : slotAddr s.disk (s.itable ip).din k = 0
  on : OnInode I L ip s s'
  head : (s'.itable ip).din.head = (s.itable ip).din.head
  zero : s'.disk a = Bytes.fill bsize 0
  slots : ∀ k', slotAddr s'.disk (s'.itable ip).din k' =
    if k' = k then a else slotAddr s.disk (s.itable ip).din k'
  recorded : Recorded s s'
  fresh : a ∈ s'.logged
  blocks : ∀ k' x, k' ≠ ndirect → slotAddr s.disk (s.itable ip).din k' = x → x ≠ 0 →
    s'.disk x = s.disk x ∧ (x ∈ s'.logged → x ∈ s.logged)

def Slotted (I : Nat → Dinode) (L : List Nat) (ip k : Nat) (s s' : Fs) (a : Nat) : Prop :=
  (s' = s ∧ a = slotAddr s.disk (s.itable ip).din k ∧ (a = 0 → s.Full)) ∨ SlotFilled I L ip k s s' a

section

variable {I : Nat → Dinode} {L : List Nat} {ip : Nat} {s s' s'' : Fs} {E : Panics}

variable {a x k bn : Nat} {disk disk' : Disk} {d d' : Dinode}

lemma Recorded.refl (s : Fs) : Recorded s s := ⟨fun _ h => h, fun _ h => absurd rfl h⟩

lemma Recorded.trans (h : Recorded s s') (h' : Recorded s' s'') : Recorded s s'' := by
  refine ⟨fun b hb => h'.kept b (h.kept b hb), fun b hb => ?_⟩
  by_cases he : s''.disk b = s'.disk b
  · exact h'.kept b (h.changed b (by rwa [← he]))
  · exact h'.changed b he

lemma Recorded.put (s : Fs) (b : Nat) (v : Block) :
    Recorded s { s with disk := update s.disk b v, logged := logAbsorb s.logged b } := by
  refine ⟨fun x hx => mem_logAbsorb.mpr (.inl hx), fun x hx => mem_logAbsorb.mpr (.inr ?_)⟩
  by_contra hne
  exact hx (update_of_ne hne _ _)

lemma BlockKept.trans (h : BlockKept ip bn s s') (h' : BlockKept ip bn s' s'') :
    BlockKept ip bn s s'' := by
  intro hne
  obtain ⟨haddr, hlog⟩ := h hne
  unfold BlockKept at h'
  rw [haddr] at h'
  exact ⟨(h' hne).1, fun hx => hlog ((h' hne).2 hx)⟩

lemma ballocDisk_self (s : Fs) (a : Nat) : ballocDisk s a a = Bytes.fill bsize 0 :=
  update_self _ _ _

lemma ballocDisk_of_ne (s : Fs) (h1 : x ≠ a) (h2 : x ≠ bblock s.sb a) :
    ballocDisk s a x = s.disk x := by
  rw [ballocDisk, update_of_ne h1, update_of_ne h2]

lemma ballocDisk_inodes (hl : Layout s.sb) (ha : InPool s.sb a) (hx : x < s.sb.bmapstart) :
    ballocDisk s a x = s.disk x := by
  have hb := hl.bmap_lt ha.2
  have hge := ha.1
  exact ballocDisk_of_ne s (by omega) (by omega)

lemma balloc_recorded (s : Fs) (a : Nat) : Recorded s { s with
    disk := ballocDisk s a, logged := logAbsorb (logAbsorb s.logged (bblock s.sb a)) a } :=
  (Recorded.put s _ _).trans (.put _ a _)

section

variable (he : Editing I L ip s)
include he

lemma Editing.owns (hx : slotAddr s.disk (s.itable ip).din k = x) (h0 : x ≠ 0) :
    Owns s.sb s.disk I ((s.itable ip).inum, k) x := by
  refine ⟨he.inum, ?_, ?_, h0⟩
  · rw [he.view]
    exact he.type
  · rw [he.view]
    exact hx

lemma Editing.slot_inj {k' : Nat} (hx : slotAddr s.disk (s.itable ip).din k = x)
    (hx' : slotAddr s.disk (s.itable ip).din k' = x) (h0 : x ≠ 0) : k = k' :=
  congrArg Prod.snd (he.own.ledger.single _ _ _ (he.owns hx h0) (he.owns hx' h0))

lemma Editing.balloc_kept (ha : InPool s.sb a) (hbit : s.bit a = false) {o : Nat × Nat}
    (hx : Owns s.sb s.disk I o x) : ballocDisk s a x = s.disk x ∧
      (x ∈ logAbsorb (logAbsorb s.logged (bblock s.sb a)) a → x ∈ s.logged) := by
  have hge := (he.own.owned_pool hx).1
  have hlt := he.layout.bblock_lt a ha.2
  have hne : x ≠ bblock s.sb a := by omega
  have hne' : x ≠ a := by
    rintro rfl
    exact (he.own.ledger.owned o x hx).2 hbit
  refine ⟨ballocDisk_of_ne s hne' hne, fun h => ?_⟩
  exact (mem_logAbsorb.mp ((mem_logAbsorb.mp h).resolve_right hne')).resolve_right hne

lemma bmapAddr_sat (hk : k ≤ ndirect) :
    Sat (bmapAddr ip k) s E fun a s' => Slotted I L ip k s s' a := by
  have hslot : slotAddr s.disk (s.itable ip).din k = _ := slotAddr_of_le hk
  unfold bmapAddr
  rw [sat_bind, sat_getState]
  by_cases hz : (s.itable ip).din.addrs k = 0
  · rw [if_pos hz]
    refine (balloc_sat he.layout he.txn he.own).bind ?_
    rintro a s1 (⟨rfl, rfl, hfull⟩ | ⟨hpool, hbit, hown, rfl⟩)
    · rw [if_pos rfl, sat_pure]
      exact .inl ⟨rfl, (hslot.trans hz).symm, fun _ => hfull⟩
    · obtain ⟨ha0, ha⟩ := he.layout.pool_lt hpool
      rw [if_neg ha0, sat_bind, sat_modifyState, sat_pure]
      have hown' := hown.attach he.layout he.inum (by rw [he.view]; exact he.type) hk
        (by rw [he.view]; exact hz) fun _ => ballocDisk_self s a
      rw [he.view] at hown'
      have hin : ((s.itable ip).din.setAddr k a).head = (s.itable ip).din.head := rfl
      refine Or.inr ⟨ha0, hslot.trans hz, ⟨rfl, rfl, ?_, ?_, ?_, ?_, fun o x ho _ =>
        (he.balloc_kept hpool hbit ho).1, fun x hx => ballocDisk_inodes he.layout hpool hx⟩, ?_,
        ballocDisk_self s a, ?_, ⟨(balloc_recorded s a).kept, (balloc_recorded s a).changed⟩,
        mem_logAbsorb.mpr (.inr rfl), fun k' x _ hx h0 =>
        he.balloc_kept hpool hbit (he.owns hx h0)⟩
      · intro x hx
        simp [Fs.setDin, Fs.setInode, hx]
      · simp [Fs.setDin, Fs.setInode]
      · simpa [Fs.setDin, Fs.setInode] using hown'
      · simp [Fs.setDin, Fs.setInode]
      · simpa [Fs.setDin, Fs.setInode] using hin
      · intro k'
        have hs := slotAddr_setAddr (ballocDisk s a) (d := (s.itable ip).din) hk ha
          (fun hkd => ⟨hkd ▸ hz, fun j hj => by rw [ballocDisk_self]; exact getWord_fill_zero hj⟩) k'
        have hcongr : slotAddr (ballocDisk s a) (s.itable ip).din k' =
            slotAddr s.disk (s.itable ip).din k' :=
          slotAddr_congr (fun hne => (he.balloc_kept hpool hbit
            (he.owns (slotAddr_of_le (Nat.le_refl _)) hne)).1) k'
        rw [hcongr] at hs
        simpa [Fs.setDin, Fs.setInode] using hs
  · rw [if_neg hz, sat_pure]
    exact .inl ⟨rfl, hslot.symm, fun h0 => absurd h0 hz⟩

lemma bmapWord_sat {j : Nat} (hj : j < nindirect) (hind : (s.itable ip).din.addrs ndirect ≠ 0) :
    Sat (bmapWord ((s.itable ip).din.addrs ndirect) j) s E fun a s' =>
      Slotted I L ip (ndirect + 1 + j) s s' a := by
  have hword := slotAddr_word s.disk hind hj
  have hown := he.owns (slotAddr_of_le (Nat.le_refl _)) hind
  unfold bmapWord
  rw [sat_bind, sat_getState]
  by_cases hz : getWord (s.disk ((s.itable ip).din.addrs ndirect)) j = 0
  · rw [if_pos hz]
    refine (balloc_sat he.layout he.txn he.own).bind ?_
    rintro a s1 (⟨rfl, rfl, hfull⟩ | ⟨hpool, hbit, hbown, rfl⟩)
    · rw [if_pos rfl, sat_pure]
      exact .inl ⟨rfl, (hword.trans hz).symm, fun _ => hfull⟩
    · obtain ⟨ha0, -⟩ := he.layout.pool_lt hpool
      rw [if_neg ha0, sat_bind, sat_getState]
      have hsame := (he.balloc_kept hpool hbit hown).1
      obtain ⟨hown', hslot⟩ := hbown.attachWord he.layout he.inum (by rw [he.view]; exact he.type)
        (by rw [he.view]; exact hind) hj
        (by rw [he.view]; exact (congrArg (fun b => getWord b j) hsame).trans hz)
      rw [he.view] at hown' hslot
      have hne : a ≠ (s.itable ip).din.addrs ndirect := fun hae =>
        (he.own.ledger.owned _ _ hown).2 (hae ▸ hbit)
      refine Sat.bind (writeBlock_sat (by exact he.txn) _ _) ?_
      rintro _ s2 rfl
      rw [sat_pure]
      have hpool' := he.own.owned_pool hown
      refine Or.inr ⟨ha0, hword.trans hz, ⟨rfl, rfl, fun _ _ => rfl, rfl, ?_, rfl, ?_, ?_⟩, rfl,
        (update_of_ne hne _ _).trans (ballocDisk_self s a), fun k' => ?_,
        (balloc_recorded s a).trans (.put ..),
        mem_logAbsorb.mpr (.inl (mem_logAbsorb.mpr (.inr rfl))),
        fun k' x hk hx h0 => ?_⟩
      · have hupd : update I (s.itable ip).inum (s.itable ip).din = I := by
          rw [← he.view, update_eq_self]
        show Own s.sb _ (update I (s.itable ip).inum (s.itable ip).din) L
        rw [hupd]
        exact hown'
      · intro o x ho hni
        have hx : x ≠ (s.itable ip).din.addrs ndirect := by
          rintro rfl
          exact hni (congrArg Prod.fst (he.own.ledger.single _ _ _ ho hown))
        exact (update_of_ne hx _ _).trans (he.balloc_kept hpool hbit ho).1
      · intro x hx
        have hb := he.layout.bmap_lt hpool.2
        have hge := hpool'.1
        exact (update_of_ne (by omega) _ _).trans (ballocDisk_inodes he.layout hpool hx)
      · have hs := hslot k'
        rwa [slotAddr_congr (fun _ => hsame) k'] at hs
      · -- a data block and the indirect block have different owners
        have hne : x ≠ (s.itable ip).din.addrs ndirect := by
          rintro rfl
          exact hk (he.slot_inj hx (slotAddr_of_le (Nat.le_refl _)) h0)
        obtain ⟨hdisk, hlog⟩ := he.balloc_kept hpool hbit (he.owns hx h0)
        exact ⟨(update_of_ne hne _ _).trans hdisk,
          fun h => hlog ((mem_logAbsorb.mp h).resolve_right hne)⟩
  · rw [if_neg hz, sat_pure]
    exact .inl ⟨rfl, hword.symm, fun h0 => absurd h0 hz⟩

end

lemma fileBlock_eq_none :
    fileBlock disk d bn = none ↔ slotAddr disk d (slotOf bn) = 0 := by
  unfold fileBlock
  split <;> simp_all

lemma fileBlock_of_addr (h : slotAddr disk d (slotOf bn) = a)
    (ha : a ≠ 0) : fileBlock disk d bn = some (disk a) := by
  rw [fileBlock, h, if_neg ha]

lemma fileBlock_congr
    (hs : slotAddr disk' d' (slotOf bn) = slotAddr disk d (slotOf bn))
    (hb : slotAddr disk d (slotOf bn) ≠ 0 →
      disk' (slotAddr disk d (slotOf bn)) = disk (slotAddr disk d (slotOf bn))) :
    fileBlock disk' d' bn = fileBlock disk d bn := by
  unfold fileBlock
  rw [hs]
  split
  · rfl
  · rename_i hne
    rw [hb hne]

lemma SlotFilled.fileBlock_of_ne (h : SlotFilled I L ip k s s' a) (hk : slotOf bn ≠ k) :
    fileBlock s'.disk (s'.itable ip).din bn = fileBlock s.disk (s.itable ip).din bn := by
  refine fileBlock_congr ?_ fun hne => (h.blocks _ _ (slotOf_ne bn) rfl hne).1
  rw [h.slots, if_neg hk]

lemma SlotFilled.kept (h : SlotFilled I L ip k s s' a) (bn : Nat) : BlockKept ip bn s s' := by
  refine fun hne => ⟨?_, (h.blocks _ _ (slotOf_ne bn) rfl hne).2⟩
  rw [h.slots, if_neg]
  rintro rfl
  exact hne h.empty

structure Mapped (I : Nat → Dinode) (L : List Nat) (ip bn : Nat) (s s' : Fs) (a : Nat) : Prop where
  on : OnInode I L ip s s'
  head : (s'.itable ip).din.head = (s.itable ip).din.head
  addr : a ≠ 0 → slotAddr s'.disk (s'.itable ip).din (slotOf bn) = a
  blocks : a ≠ 0 → ∀ bn', fileBlock s'.disk (s'.itable ip).din bn' =
    if bn' = bn then some ((fileBlock s.disk (s.itable ip).din bn).getD (Bytes.fill bsize 0))
    else fileBlock s.disk (s.itable ip).din bn'
  full : a = 0 → ∀ bn', fileBlock s'.disk (s'.itable ip).din bn' = fileBlock s.disk
    (s.itable ip).din bn'
  same : fileBlock s.disk (s.itable ip).din bn ≠ none → s' = s ∧ a ≠ 0
  room : a = 0 → bn < ndirect → s.Full
  recorded : Recorded s s'
  noRoom : a = 0 → s'.Full
  fresh : slotAddr s.disk (s.itable ip).din (slotOf bn) = 0 → a ≠ 0 → a ∈ s'.logged
  kept : ∀ bn', BlockKept ip bn' s s'

lemma Slotted.mapped (h : Slotted I L ip (slotOf bn) s s' a) (he : Editing I L ip s) :
    Mapped I L ip bn s s' a := by
  rcases h with ⟨rfl, ha, hfull⟩ | h
  · refine ⟨OnInode.refl he, rfl, fun _ => ha.symm, fun hne bn' => ?_, fun _ _ => rfl,
      fun hne => ⟨rfl, ?_⟩, fun h0 _ => hfull h0, .refl _, hfull, fun h0 hne =>
      absurd (ha.trans h0) hne, fun _ _ => ⟨rfl, fun h => h⟩⟩
    · by_cases hbn : bn' = bn
      · subst hbn
        rw [if_pos rfl, fileBlock_of_addr ha.symm hne]
        rfl
      · rw [if_neg hbn]
    · rw [ha]
      exact fun hz => hne (fileBlock_eq_none.mpr hz)
  · have haddr : slotAddr s'.disk (s'.itable ip).din (slotOf bn) = a := by
      rw [h.slots, if_pos rfl]
    have hnone := fileBlock_eq_none.mpr h.empty
    refine ⟨h.on, h.head, fun _ => haddr, fun _ bn' => ?_, fun hc => absurd hc h.ne, fun hne =>
      absurd hnone hne, fun hc => absurd hc h.ne, h.recorded, fun hc => absurd hc h.ne,
      fun _ _ => h.fresh, h.kept⟩
    by_cases hbn : bn' = bn
    · subst hbn
      rw [if_pos rfl, fileBlock_of_addr haddr h.ne, hnone, h.zero]
      rfl
    · rw [if_neg hbn, h.fileBlock_of_ne fun heq => hbn (slotOf_inj heq)]

lemma Mapped.after {s1 : Fs} {b : Nat} (hd : ¬ bn < ndirect) (h : SlotFilled I L ip ndirect s s1 b)
    (h' : Mapped (update I (s.itable ip).inum (s1.itable ip).din) L ip bn s1 s' a) :
    Mapped I L ip bn s s' a := by
  have hsame : ∀ bn', fileBlock s1.disk (s1.itable ip).din bn' =
      fileBlock s.disk (s.itable ip).din bn' := fun bn' => h.fileBlock_of_ne (slotOf_ne bn')
  have hslot : slotOf bn = ndirect + 1 + (bn - ndirect) := by
    rw [slotOf, if_neg hd]
    omega
  have hold : slotAddr s.disk (s.itable ip).din (slotOf bn) = 0 := by
    have hz := h.empty
    rw [slotAddr_of_le (Nat.le_refl _)] at hz
    rw [hslot, slotAddr, if_neg (by omega), if_pos (Or.inl hz)]
  refine ⟨h.on.trans h'.on, h'.head.trans h.head, h'.addr, fun ha bn' => ?_, fun ha bn' => ?_,
    fun hne => absurd (fileBlock_eq_none.mpr hold) hne, fun _ hlt => absurd hlt hd,
    h.recorded.trans h'.recorded, h'.noRoom, fun h0 => h'.fresh ?_,
    fun bn' => (h.kept bn').trans (h'.kept bn')⟩
  · rw [← hsame, ← hsame]
    exact h'.blocks ha bn'
  · rw [h'.full ha, hsame]
  · rw [h.slots, if_neg (slotOf_ne bn), h0]

lemma bmap_sat (he : Editing I L ip s) (hbn : bn < maxfile) :
    Sat (bmap ip bn) s E fun a s' => Mapped I L ip bn s s' a := by
  unfold bmap
  by_cases hd : bn < ndirect
  · rw [if_pos hd]
    refine (bmapAddr_sat he (Nat.le_of_lt hd)).imp fun a s' h => ?_
    rw [← (if_pos hd : slotOf bn = bn)] at h
    exact h.mapped he
  · have hj : bn - ndirect < nindirect := by
      simp only [maxfile] at hbn
      omega
    have hslot : slotOf bn = ndirect + 1 + (bn - ndirect) := by
      rw [slotOf, if_neg hd]
      omega
    rw [if_neg hd, if_pos hj]
    refine (bmapAddr_sat he (Nat.le_refl ndirect)).bind ?_
    rintro b s1 (⟨rfl, hb, hfull⟩ | h)
    · rw [slotAddr_of_le (Nat.le_refl _)] at hb
      by_cases hb0 : b = 0
      · rw [if_pos hb0, sat_pure]
        refine Slotted.mapped (.inl ⟨rfl, ?_, fun _ => hfull hb0⟩) he
        rw [hslot, slotAddr, if_neg (by omega), if_pos (Or.inl (hb.symm.trans hb0))]
      · rw [if_neg hb0, hb]
        refine (bmapWord_sat he hj (by rw [← hb]; exact hb0)).imp fun a s' h => ?_
        rw [← hslot] at h
        exact h.mapped he
    · have hb := h.slots ndirect
      rw [if_pos rfl, slotAddr_of_le (Nat.le_refl _)] at hb
      rw [if_neg h.ne, ← hb]
      have he1 := h.on.editing he
      refine (bmapWord_sat he1 hj (by rw [hb]; exact h.ne)).imp fun a s' h' => ?_
      rw [← hslot] at h'
      exact .after hd h (h'.mapped he1)

end

end Xv6
