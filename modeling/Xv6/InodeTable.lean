import Xv6.DirModel
import Xv6.InodeInv

/-! What the operations on the inode table and on dinodes do, and that they keep the
invariant of the inode layer. -/

namespace Xv6

open Kern List
open Function (update_of_ne update_self)

section

variable {s s₁ s' : Fs} {ip p inum : Nat} {E : String → Prop}

lemma DiskInv.congr (h : DiskInv s) (hsb : s'.sb = s.sb) (hd : s'.disk = s.disk) : DiskInv s' := by
  have hdin : s'.dinode = s.dinode := by
    funext i
    rw [Fs.dinode, hsb, hd, Fs.dinode]
  refine ⟨?_, ?_, ?_, ?_⟩
  · rw [hsb]
    exact h.layout
  · rw [hsb, hd, hdin]
    exact h.own
  · rw [hsb, hd, hdin]
    exact h.solid
  · rw [hsb, hd, hdin]
    exact h.dirs

lemma FsInv.setInode (hi : FsInv s) {v : Inode} (hn : 0 < v.ref → v.inum < s.sb.ninodes)
    (hu : 0 < v.ref → ∀ x < ninode, x ≠ ip → 0 < (s.itable x).ref → (s.itable x).inum ≠ v.inum)
    (hc : 0 < v.ref → v.valid = true → v.din = s.dinode v.inum ∧ v.din.type ≠ 0) :
    FsInv (s.setInode ip v) := by
  have hself : (s.setInode ip v).itable ip = v := update_self _ _ _
  have hother : ∀ x, x ≠ ip → (s.setInode ip v).itable x = s.itable x := fun x hx =>
    update_of_ne hx _ _
  refine ⟨hi.toDiskInv.congr rfl rfl, ⟨fun x hx hr => ?_, fun a ha b hb hra hrb he => ?_,
    fun x hx hr hv => ?_⟩⟩
  · by_cases hxi : x = ip
    · rw [hxi, hself] at hr ⊢
      exact hn hr
    · rw [hother x hxi] at hr ⊢
      exact hi.inum x hx hr
  · by_cases hai : a = ip <;> by_cases hbi : b = ip
    · rw [hai, hbi]
    · rw [hai, hself] at hra he
      rw [hother b hbi] at hrb he
      exact absurd he.symm (hu hra b hb hbi hrb)
    · rw [hbi, hself] at hrb he
      rw [hother a hai] at hra he
      exact absurd he (hu hrb a ha hai hra)
    · rw [hother a hai] at hra he
      rw [hother b hbi] at hrb he
      exact hi.unique a ha b hb hra hrb he
  · by_cases hxi : x = ip
    · rw [hxi, hself] at hr hv ⊢
      exact hc hr hv
    · rw [hother x hxi] at hr hv ⊢
      exact hi.coherent x hx hr hv

lemma FsInv.setSlot (hi : FsInv s) (hip : ip < ninode) {v : Inode}
    (hr : 0 < v.ref → 0 < (s.itable ip).ref) (hn : v.inum = (s.itable ip).inum)
    (hc : 0 < v.ref → v.valid = true → v.din = s.dinode v.inum ∧ v.din.type ≠ 0) :
    FsInv (s.setInode ip v) := by
  refine hi.setInode (fun h => ?_) (fun h x hx hne hrx he => ?_) hc
  · rw [hn]
    exact hi.inum ip hip (hr h)
  · exact hne (hi.unique x hx ip hip hrx (hr h) (he.trans hn))

structure Got (inum : Nat) (s s' : Fs) (ip : Nat) : Prop where
  lt : ip < ninode
  hit : 0 < (s.itable ip).ref → (s.itable ip).inum = inum
  miss : (s.itable ip).ref = 0 → ∀ x < ninode, 0 < (s.itable x).ref → (s.itable x).inum ≠ inum
  eq : s' = s.setInode ip { s.itable ip with
    inum := inum
    ref := (s.itable ip).ref + 1
    valid := (s.itable ip).valid && decide (0 < (s.itable ip).ref) }

/-- `iget` panics only if every slot is in use. -/
lemma iget_sat (hE : E "iget: no inodes" ∨ ∃ x < ninode, (s.itable x).ref = 0) :
    Sat (iget inum) s E fun ip s' => Got inum s s' ip := by
  unfold iget
  rw [sat_bind, sat_getState]
  cases hf : (List.range ninode).find? fun ip => 0 < (s.itable ip).ref && (s.itable ip).inum = inum with
  | some ip =>
    have hp := List.find?_some hf
    simp only [Bool.and_eq_true, decide_eq_true_eq] at hp
    have hlt := mem_range.mp (mem_of_find?_eq_some hf)
    obtain ⟨hr, rfl⟩ := hp
    rw [sat_bind, sat_modifyState, sat_pure]
    refine ⟨hlt, fun _ => rfl, fun h0 => absurd hr (by omega), ?_⟩
    simp [hr]
  | none =>
    have hnone : ∀ x < ninode, 0 < (s.itable x).ref → (s.itable x).inum ≠ inum := by
      intro x hx hr he
      have h := List.find?_eq_none.mp hf x (mem_range.mpr hx)
      simp [hr, he] at h
    simp only
    cases he : (List.range ninode).find? fun ip => (s.itable ip).ref = 0 with
    | some ip =>
      have hp := List.find?_some he
      simp only [decide_eq_true_eq] at hp
      have hlt := mem_range.mp (mem_of_find?_eq_some he)
      simp only
      rw [sat_bind, sat_modifyState, sat_pure]
      refine ⟨hlt, fun h => absurd h (by omega), fun _ => hnone, ?_⟩
      simp [hp]
    | none =>
      refine sat_panic.mpr (hE.resolve_right ?_)
      rintro ⟨x, hx, h0⟩
      have h := List.find?_eq_none.mp he x (mem_range.mpr hx)
      simp [h0] at h

lemma idup_sat : Sat (idup ip) s E fun r s' => r = ip ∧
    s' = s.setInode ip { s.itable ip with ref := (s.itable ip).ref + 1 } := by
  unfold idup
  rw [sat_bind, sat_modifyState, sat_pure]
  exact ⟨rfl, rfl⟩

lemma FsInv.got (hi : FsInv s) (hn : inum < s.sb.ninodes) (h : Got inum s s' ip) : FsInv s' := by
  rw [h.eq]
  refine hi.setInode (fun _ => hn) (fun _ x hx hne hr he => ?_) (fun _ hv => ?_)
  · rcases Nat.eq_zero_or_pos (s.itable ip).ref with h0 | hpos
    · exact h.miss h0 x hx hr he
    · exact hne (hi.unique x hx ip h.lt hr hpos (he.trans (h.hit hpos).symm))
  · simp only [Bool.and_eq_true, decide_eq_true_eq] at hv
    have hc := hi.coherent ip h.lt hv.2 hv.1
    rw [h.hit hv.2] at hc
    exact hc

lemma FsInv.dup (hi : FsInv s) (hip : ip < ninode) (hr : 0 < (s.itable ip).ref) :
    FsInv (s.setInode ip { s.itable ip with ref := (s.itable ip).ref + 1 }) :=
  hi.setSlot hip (fun _ => hr) rfl fun _ hv => hi.coherent ip hip hr hv

lemma FsInv.dropRef (hi : FsInv s) (hip : ip < ninode) : FsInv (s.dropRef ip) := by
  refine hi.setSlot hip (fun h => ?_) rfl fun h hv => hi.coherent ip hip ?_ hv
  · exact Nat.lt_of_lt_of_le h (Nat.sub_le _ _)
  · exact Nat.lt_of_lt_of_le h (Nat.sub_le _ _)

lemma FsInv.setLock (hi : FsInv s) (hip : ip < ninode) (l : Option Nat) : FsInv (s.setLock ip l) :=
  hi.setSlot hip id rfl fun h hv => hi.coherent ip hip h hv

def Fs.locked (s : Fs) (p ip : Nat) : Fs :=
  s.setInode ip { s.itable ip with
    lock := some p
    valid := true
    din := s.dinode (s.itable ip).inum }

lemma ilockStep_sat (hi : FsInv s) (hip : ip < ninode) (hr : 0 < (s.itable ip).ref)
    (hE : E "ilock: no type" ∨ (s.dinode (s.itable ip).inum).type ≠ 0) :
    Sat (ilockStep p ip) s E fun _ s' =>
      s' = s.locked p ip ∧ (s.dinode (s.itable ip).inum).type ≠ 0 := by
  unfold ilockStep ilockLoad
  rw [sat_bind, sat_getState, if_neg (by omega), sat_bind, sat_modifyState, sat_bind, sat_getState]
  have hself : ((s.setLock ip (some p)).itable ip) = { s.itable ip with lock := some p } :=
    update_self _ _ _
  rw [hself]
  by_cases hv : (s.itable ip).valid = false
  · rw [if_pos hv, sat_bind, sat_modifyState]
    have hdin : (s.setLock ip (some p)).dinode (s.itable ip).inum = s.dinode (s.itable ip).inum := rfl
    by_cases ht : (s.dinode (s.itable ip).inum).type = 0
    · rw [if_pos (hdin ▸ ht)]
      exact sat_panic.mpr (hE.resolve_right (not_not_intro ht))
    · rw [if_neg (hdin ▸ ht), sat_pure]
      refine ⟨?_, ht⟩
      rw [hself]
      simp [Fs.locked, Fs.setLock, Fs.setInode, Fs.dinode]
  · rw [if_neg hv, sat_pure]
    have hv' : (s.itable ip).valid = true := by simpa using hv
    obtain ⟨hd, ht⟩ := hi.coherent ip hip hr hv'
    rw [hd] at ht
    refine ⟨?_, ht⟩
    rw [Fs.locked, ← hd, ← hv']
    rfl

lemma FsInv.locked (hi : FsInv s) (hip : ip < ninode)
    (ht : (s.dinode (s.itable ip).inum).type ≠ 0) : FsInv (s.locked p ip) :=
  hi.setSlot hip id rfl fun _ _ => ⟨rfl, ht⟩

lemma iunlockStep_sat (hE : E "iunlock" ∨ ((s.itable ip).lock = some p ∧ 0 < (s.itable ip).ref)) :
    Sat (iunlockStep p ip) s E fun _ s' => s' = s.setLock ip none := by
  unfold iunlockStep
  rw [sat_bind, sat_getState]
  split
  · refine sat_panic.mpr (hE.resolve_right fun h => ?_)
    simp_all
  · exact sat_modifyState.mpr rfl

def LastUse (s : Fs) (ip : Nat) : Prop :=
  (s.itable ip).ref = 1 ∧ (s.itable ip).valid = true ∧ (s.itable ip).din.nlink = 0

lemma iputStart_sat (hE : E "sched locks" ∨ (LastUse s ip → (s.itable ip).lock = none)) :
    Sat (iputStart p ip) s E fun r s' => (r = true ∧ LastUse s ip ∧ s' = s.setLock ip (some p)) ∨
      (r = false ∧ ¬ LastUse s ip ∧ s' = s.dropRef ip) := by
  unfold iputStart
  rw [sat_bind, sat_getState]
  by_cases hl : LastUse s ip
  · rw [if_pos (show _ ∧ _ ∧ _ from hl)]
    split
    · refine sat_panic.mpr (hE.resolve_right fun h => ?_)
      simp_all
    · rw [sat_bind, sat_modifyState, sat_pure]
      exact .inl ⟨rfl, hl, rfl⟩
  · rw [if_neg (show ¬ (_ ∧ _ ∧ _) from hl), sat_bind, sat_modifyState, sat_pure]
    exact .inr ⟨rfl, hl, rfl⟩

end

section

variable {s s₁ s' : Fs} {ip i inum : Nat} {d : Dinode} {E : Panics}

/-- The inode `i` on disk was set to `d`. -/
structure PutDinode (i : Nat) (d : Dinode) (s s' : Fs) : Prop where
  sb : s'.sb = s.sb
  outstanding : s'.outstanding = s.outstanding
  itable : s'.itable = s.itable
  self : s'.dinode i = d
  other : ∀ j, j ≠ i → s'.dinode j = s.dinode j
  data : ∀ x, s.sb.bmapstart ≤ x → s'.disk x = s.disk x

lemma writeDinode_sat (hl : Layout s.sb) (htx : 1 ≤ s.outstanding) (hi : i < s.sb.ninodes) :
    Sat (writeBlock (iblock s.sb i) (setDinode (s.disk (iblock s.sb i)) (i % ipb) d)) s E
      fun _ s' => PutDinode i d s s' := by
  refine (writeBlock_sat htx _ _).imp ?_
  rintro _ s' rfl
  have hib := hl.iblock_lt i hi
  refine ⟨rfl, rfl, rfl, ?_, fun j hj => ?_, fun x hx => update_of_ne (by omega) _ _⟩
  · exact (dinode_setDinode s i i d).trans (if_pos rfl)
  · exact (dinode_setDinode s i j d).trans (if_neg hj)

lemma updateDin_put (hl : Layout s.sb) (htx : 1 ≤ s.outstanding)
    (hi : (s.itable ip).inum < s.sb.ninodes)
    (f : Dinode → Dinode) : Sat (updateDin ip f) s E fun _ s' =>
      PutDinode (s.itable ip).inum (f (s.itable ip).din) (s.setDin ip (f (s.itable ip).din)) s' := by
  unfold updateDin iupdate
  rw [sat_bind, sat_modifyState, sat_bind, sat_getState]
  have hslot : (s.setDin ip (f (s.itable ip).din)).itable ip =
      { s.itable ip with din := f (s.itable ip).din } := update_self _ _ _
  rw [hslot]
  exact writeDinode_sat (s := s.setDin ip (f (s.itable ip).din)) hl htx hi

lemma owns_of_no_addrs {sb : Superblock} {disk : Disk} {I : Nat → Dinode} {o : Nat × Nat} {b : Nat}
    (h : (I o.1).type = 0 ∨ ∀ k, (I o.1).addrs k = 0) : ¬ Owns sb disk I o b := by
  rintro ⟨-, ht, hb, hne⟩
  rcases h with h0 | h0
  · exact ht h0
  · rw [slotAddr, h0, h0] at hb
    simp only [true_or, if_true, ite_self] at hb
    exact hne hb.symm

lemma DiskInv.put (h : DiskInv s) (hp : PutDinode i d s s')
    (hold : (s.dinode i).type = 0 ∨ ∀ k, (s.dinode i).addrs k = 0) (hd : ∀ k, d.addrs k = 0)
    (hsize : d.size = 0) : DiskInv s' := by
  have hm := h.layout.bmap_meta
  have hdata : ∀ x, nmeta s.sb ≤ x → s'.disk x = s.disk x := fun x hx => hp.data x (by omega)
  refine ⟨?_, ?_, ?_, ?_⟩
  · rw [hp.sb]
    exact h.layout
  · rw [hp.sb]
    refine h.own.congr h.layout (fun b _ => ?_) fun o b => ?_
    · rw [bitOf, hp.data (bblock s.sb b) (Nat.le_add_left _ _), bitOf]
    · by_cases ho : o.1 = i
      · refine iff_of_false (owns_of_no_addrs (.inr ?_)) (owns_of_no_addrs ?_)
        · rw [ho, hp.self]
          exact hd
        · rw [ho]
          exact hold
      · have hind : Owns s.sb s'.disk s.dinode o b ↔ Owns s.sb s.disk s.dinode o b :=
          owns_congr (fun j hj ht ha => hdata _ (h.own.owned_pool (owns_indirect hj ht ha)).1) o b
        rw [← hind, Owns, Owns, hp.other _ ho]
  · intro j hj ht
    by_cases hji : j = i
    · rw [hji, hp.self]
      exact ⟨by rw [hsize]; exact Nat.zero_le _, fun bn hbn => absurd hbn (by rw [hsize]; omega)⟩
    · rw [hp.sb] at hj
      rw [hp.other j hji] at ht ⊢
      exact (h.solid j hj ht).congr (fileBlock_of_data h.own hj ht hdata)
  · intro j hj
    by_cases hji : j = i
    · rw [hji, hp.self]
      exact fun _ k hk => absurd hk (by rw [hsize]; omega)
    · rw [hp.sb] at hj ⊢
      rw [hp.other j hji]
      intro ht
      have htype : (s.dinode j).type ≠ 0 := by rw [ht]; decide
      exact (h.dirs j hj).congr (fileBlock_of_data h.own hj htype hdata) ht

lemma updateDin_sat (hi : FsInv s) (hip : Loaded ip s) (htx : 1 ≤ s.outstanding)
    {f : Dinode → Dinode} (hf : (s.itable ip).din.SameFile (f (s.itable ip).din)) :
    Sat (updateDin ip f) s E fun _ s' => FsInv s' ∧ Saved ip s s' ∧
      (s'.itable ip).din = f (s.itable ip).din ∧ ∀ bn, fileBlock s'.disk (s'.itable ip).din bn =
        fileBlock s.disk (s.itable ip).din bn := by
  have he := hi.editing hip htx
  obtain ⟨ht, hs, ha⟩ := hf
  unfold updateDin
  rw [sat_bind, sat_modifyState]
  refine (iupdate_sat he ((OnInode.refl he).setDin ht ha)).imp ?_
  rintro _ s' ⟨hsaved, hown, htab, hblk⟩
  have hdin : (s'.itable ip).din = f (s.itable ip).din := by
    rw [htab]
    simp [Fs.setDin, Fs.setInode]
  have hfile :
    ∀ bn, fileBlock s'.disk (s'.itable ip).din bn = fileBlock s.disk (s.itable ip).din bn := by
    intro bn
    rw [← htab] at hblk
    rw [hblk, hdin]
    unfold fileBlock slotAddr
    rw [ha]
    rfl
  refine ⟨hi.saved hip hsaved hown ?_ ?_ ?_, hsaved, hdin, hfile⟩
  · have hsolid := hi.solid_of_loaded hip
    refine ⟨by rw [hdin, hs]; exact hsolid.size_le, fun bn hbn => ?_⟩
    rw [hfile]
    rw [hdin, hs] at hbn
    exact hsolid.mapped bn hbn
  · intro htd k hk
    rw [hdin, ht] at htd
    rw [hdin, hs] at hk
    rw [direntAt_congr fun x _ _ => show fileByte s'.disk (s'.itable ip).din x =
      fileByte s.disk (s.itable ip).din x by rw [fileByte, hfile, fileByte], hsaved.sb]
    rw [← he.view] at htd hk ⊢
    exact hi.dirs _ he.inum htd k hk
  · rw [hdin, ht]
    exact he.type

lemma FsInv.trunc (hi : FsInv s) (hip : Loaded ip s) (htx : 1 ≤ s.outstanding) :
    Sat (itrunc ip) s E fun _ s' => FsInv s' ∧ Saved ip s s' ∧
      (s'.itable ip).din = (s.itable ip).din.cleared := by
  have he := hi.editing hip htx
  refine (itrunc_sat he).imp ?_
  rintro _ s' ⟨hsaved, hown, hdin⟩
  refine ⟨hi.saved hip hsaved hown ?_ ?_ ?_, hsaved, hdin⟩
  · rw [hdin]
    exact ⟨Nat.zero_le _, fun bn hbn => absurd hbn (Nat.not_lt_zero _)⟩
  · rw [hdin]
    exact fun _ k hk => absurd hk (Nat.not_succ_le_zero _)
  · rw [hdin]
    exact he.type

structure Freed (ip : Nat) (s s' : Fs) : Prop where
  sb : s'.sb = s.sb
  outstanding : s'.outstanding = s.outstanding
  slots : ∀ x, x ≠ ip → s'.itable x = s.itable x
  slot : s'.itable ip = { s.itable ip with
    lock := none
    valid := false
    din := (s.itable ip).din.cleared.setType 0 }
  self : (s'.dinode (s.itable ip).inum).type = 0
  other : ∀ j < s.sb.ninodes, j ≠ (s.itable ip).inum → s'.dinode j = s.dinode j
  files : ∀ j < s.sb.ninodes, j ≠ (s.itable ip).inum → (s.dinode j).type ≠ 0 → ∀ bn,
    fileBlock s'.disk (s.dinode j) bn = fileBlock s.disk (s.dinode j) bn

lemma FsInv.table_freed (hi : FsInv s) (hip : Loaded ip s) (h : Freed ip s s') : TableInv s' := by
  have hsame : ∀ x, (s'.itable x).ref = (s.itable x).ref ∧ (s'.itable x).inum = (s.itable x).inum := by
    intro x
    by_cases hx : x = ip
    · rw [hx, h.slot]
      exact ⟨rfl, rfl⟩
    · rw [h.slots x hx]
      exact ⟨rfl, rfl⟩
  refine ⟨fun x hx hr => ?_, fun a ha b hb hra hrb he => ?_, fun x hx hr hv => ?_⟩
  · rw [(hsame x).1] at hr
    rw [(hsame x).2, h.sb]
    exact hi.inum x hx hr
  · rw [(hsame a).1] at hra
    rw [(hsame b).1] at hrb
    rw [(hsame a).2, (hsame b).2] at he
    exact hi.unique a ha b hb hra hrb he
  · by_cases hxi : x = ip
    · rw [hxi, h.slot] at hv
      cases hv
    · rw [h.slots x hxi] at hr hv ⊢
      have hne : (s.itable x).inum ≠ (s.itable ip).inum := fun he =>
        hxi (hi.unique x hx ip hip.lt hr hip.ref he)
      rw [h.other _ (hi.inum x hx hr) hne]
      exact hi.coherent x hx hr hv

lemma iputFree_sat (hi : FsInv s) (hip : Loaded ip s) (htx : 1 ≤ s.outstanding) :
    Sat (iputFree ip) s E fun _ s' => FsInv s' ∧ Freed ip s s' := by
  unfold iputFree
  refine (hi.trunc hip htx).bind ?_
  rintro _ s₁ ⟨hi1, hs1, hdin1⟩
  have hnum : (s₁.itable ip).inum < s₁.sb.ninodes := by
    rw [(hs1.ref ip).2.1, hs1.sb]
    exact hi.inum ip hip.lt hip.ref
  have hold : ∀ k, (s₁.dinode (s₁.itable ip).inum).addrs k = 0 := by
    rw [(hs1.ref ip).2.1, hs1.self, hdin1]
    exact fun _ => rfl
  refine (updateDin_put hi1.layout (by rw [hs1.outstanding]; exact htx) hnum _).bind ?_
  rw [hdin1, (hs1.ref ip).2.1]
  rintro _ s2 hput
  rw [(hs1.ref ip).2.1] at hold
  have hset : DiskInv (s₁.setDin ip ((s.itable ip).din.cleared.setType 0)) :=
    hi1.toDiskInv.congr rfl rfl
  have hdisk := hset.put hput (.inr hold) (fun _ => rfl) rfl
  rw [sat_modifyState]
  have hfreed : Freed ip s (s2.setInode ip { s2.itable ip with valid := false, lock := none }) := by
    refine ⟨hput.sb.trans hs1.sb, hput.outstanding.trans hs1.outstanding, fun x hx => ?_, ?_, ?_,
      fun j hj hne => ?_, fun j hj hne ht bn => ?_⟩
    · rw [← hs1.slots x hx]
      simp [Fs.setInode, Fs.setDin, hput.itable, hx]
    · simp only [Fs.setInode, Fs.setDin, hput.itable, update_self]
      rw [hs1.slot]
    · show (s2.dinode _).type = 0
      rw [hput.self]
      rfl
    · exact (hput.other j hne).trans (hs1.other j hj hne)
    · rw [← hs1.files j hj hne ht bn]
      rw [← hs1.other j hj hne] at ht ⊢
      refine fileBlock_of_data hi1.own (by rw [hs1.sb]; exact hj) ht (fun x hx => hput.data x ?_) bn
      exact Nat.le_trans (Nat.le_of_lt hi1.layout.bmap_meta) hx
  refine ⟨⟨hdisk.congr rfl rfl, ?_⟩, hfreed⟩
  exact hi.table_freed hip hfreed

lemma FsInv.putFree {type : Nat} (hi : FsInv s) (hfree : (s.dinode inum).type = 0)
    (hput : PutDinode inum (Dinode.zero.setType type) s s') : FsInv s' := by
  have hdisk := hi.toDiskInv.put hput (.inl hfree) (fun _ => rfl) rfl
  refine ⟨hdisk, ⟨fun x hx hr => ?_, fun a ha b hb hra hrb he => ?_, fun x hx hr hv => ?_⟩⟩
  · rw [hput.itable] at hr ⊢
    rw [hput.sb]
    exact hi.inum x hx hr
  · rw [hput.itable] at hra hrb he
    exact hi.unique a ha b hb hra hrb he
  · rw [hput.itable] at hr hv ⊢
    obtain ⟨hd, hty⟩ := hi.coherent x hx hr hv
    rw [hput.other _ fun he => hty (by rw [hd, he]; exact hfree)]
    exact ⟨hd, hty⟩

/-- The free inode `inum` that `ialloc` has found, now of the given type and in slot `ip`. -/
structure Allocated (type : Nat) (s s' : Fs) (ip inum : Nat) : Prop where
  pos : 1 ≤ inum
  lt : inum < s.sb.ninodes
  free : (s.dinode inum).type = 0
  put : ∃ s₁, PutDinode inum (Dinode.zero.setType type) s s₁ ∧ Got inum s₁ s' ip

/-- The first free inode, or 0 with nothing changed. -/
lemma ialloc_sat {type : Nat} (hi : FsInv s) (htx : 1 ≤ s.outstanding)
    (hE : E "iget: no inodes" ∨ ∃ x < ninode, (s.itable x).ref = 0) : Sat (ialloc type) s E fun r s' =>
      (r = none ∧ s' = s ∧ ∀ i, 1 ≤ i → i < s.sb.ninodes → (s.dinode i).type ≠ 0) ∨
      ∃ ip inum, r = some ip ∧ FsInv s' ∧ Allocated type s s' ip inum := by
  unfold ialloc
  rw [sat_bind, sat_getState]
  cases hf : (List.range' 1 (s.sb.ninodes - 1)).find? fun inum => (s.dinode inum).type = 0 with
  | none =>
    rw [sat_pure]
    refine Or.inl ⟨rfl, rfl, fun i h1 h2 h0 => ?_⟩
    have h := List.find?_eq_none.mp hf i (by rw [mem_range'_1]; omega)
    simp [h0] at h
  | some inum =>
    have hmem := mem_of_find?_eq_some hf
    rw [mem_range'_1] at hmem
    have hfree : (s.dinode inum).type = 0 := by simpa using List.find?_some hf
    refine (writeDinode_sat hi.layout htx (by omega)).bind ?_
    rintro _ s₁ hput
    refine (iget_sat (by rw [hput.itable]; exact hE)).bind ?_
    rintro ip s' hgot
    rw [sat_pure]
    refine Or.inr ⟨ip, inum, rfl, (hi.putFree hfree hput).got (by rw [hput.sb]; omega) hgot, hmem.1,
      by omega, hfree, s₁, hput, hgot⟩

end

end Xv6
