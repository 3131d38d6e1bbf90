import Xv6.VirtioModel

/-! What `alloc3_desc` and `free_chain` do to the descriptors, and where the processes that
call `virtio_disk_rw` stand. -/

namespace Xv6

open List
open Function (update update_apply update_of_ne update_self)

open VirtioSys

def Triple.list (t : Triple) : List Nat := [t.i0, t.i1, t.i2]

/-- The request that a process has descriptors for. -/
def VirtioPc.flight : VirtioPc → Option (VirtioCall × Triple)
  | .ring k t | .publish k t | .check k t | .doze k t | .redo k t => some (k, t)
  | _ => none

def VirtioPc.posted : VirtioPc → Option (VirtioCall × Triple)
  | .check k t | .doze k t | .redo k t => some (k, t)
  | _ => none

def VirtioPc.call : VirtioPc → Option VirtioCall
  | .out => none
  | .enter k | .alloc k | .dozeFree k | .ring k _ | .publish k _ | .check k _ | .doze k _
  | .redo k _ => some k

def VirtioPc.holds : VirtioPc → Bool
  | .alloc _ | .ring .. | .publish .. | .check .. => true
  | _ => false

/-- The head that stands in the avail ring while `avail->idx` does not count it yet. -/
def VirtioPc.slotted : VirtioPc → Option Nat
  | .publish _ t => some t.i0
  | _ => none

section

variable {s s' : VirtioSys} {p q b : Nat} {x : VirtioPc}

lemma posted_flight {y : VirtioCall × Triple} (h : x.posted = some y) : x.flight = some y := by
  cases x <;> simp_all [VirtioPc.posted, VirtioPc.flight]

lemma flight_call {k : VirtioCall} {t : Triple} (h : x.flight = some (k, t)) : x.call = some k := by
  cases x <;> simp_all [VirtioPc.flight, VirtioPc.call]

structure SameView (s s' : VirtioSys) : Prop where
  flight : ∀ p, (s'.pc p).flight = (s.pc p).flight
  posted : ∀ p, (s'.pc p).posted = (s.pc p).posted
  call : ∀ p, (s'.pc p).call = (s.pc p).call
  holds : ∀ p, (s'.pc p).holds = (s.pc p).holds
  slotted : ∀ p, (s'.pc p).slotted = (s.pc p).slotted

lemma SameView.refl (s : VirtioSys) : SameView s s :=
  ⟨fun _ => rfl, fun _ => rfl, fun _ => rfl, fun _ => rfl, fun _ => rfl⟩

lemma SameView.trans {s'' : VirtioSys} (h : SameView s s') (h' : SameView s' s'') : SameView s s'' :=
  ⟨fun p => (h'.flight p).trans (h.flight p), fun p => (h'.posted p).trans (h.posted p),
    fun p => (h'.call p).trans (h.call p), fun p => (h'.holds p).trans (h.holds p),
    fun p => (h'.slotted p).trans (h.slotted p)⟩

lemma sameView_of_pc (h : s'.pc = s.pc) : SameView s s' := by
  refine ⟨fun p => ?_, fun p => ?_, fun p => ?_, fun p => ?_, fun p => ?_⟩ <;> rw [h]

lemma wakeFree_view : SameView s s.wakeFree := by
  refine ⟨fun p => ?_, fun p => ?_, fun p => ?_, fun p => ?_, fun p => ?_⟩ <;>
  · simp only [wakeFree]
    split <;> simp_all [VirtioPc.flight, VirtioPc.posted, VirtioPc.call, VirtioPc.holds,
      VirtioPc.slotted]

lemma wakeBuf_view : SameView s (s.wakeBuf b) := by
  refine ⟨fun p => ?_, fun p => ?_, fun p => ?_, fun p => ?_, fun p => ?_⟩ <;>
  · simp only [wakeBuf]
    split
    · split_ifs <;> simp_all [VirtioPc.flight, VirtioPc.posted, VirtioPc.call, VirtioPc.holds,
        VirtioPc.slotted]
    · rfl

end

section

variable {s s' : VirtioSys} {i : Nat}

def VirtioSys.takeDesc (s : VirtioSys) (i : Nat) : VirtioSys := { s with free := update s.free i false }

def VirtioSys.giveDesc (s : VirtioSys) (i : Nat) : VirtioSys :=
  { s.wakeFree with
    desc := update s.desc i ⟨.null, 0, 0, 0⟩
    free := update s.free i true }

lemma allocDesc_some (h : s.allocDesc = some (i, s')) : i < numDesc ∧ s.free i = true ∧
    s' = s.takeDesc i := by
  unfold allocDesc at h
  split at h
  next i hi =>
    cases h
    exact ⟨mem_range.mp (mem_of_find?_eq_some hi), by simpa using List.find?_some hi, rfl⟩
  next => cases h

lemma freeDesc_ok (hi : i < numDesc) (hf : s.free i = false) : s.freeDesc i = .ok (s.giveDesc i) := by
  simp [freeDesc, hf, Nat.not_le.mpr hi, giveDesc]

lemma giveDesc_view : SameView s (s.giveDesc i) := wakeFree_view.trans (sameView_of_pc rfl)

lemma takeDesc_view : SameView s (s.takeDesc i) := sameView_of_pc rfl

/-- What a failed `alloc3_desc` changes: the contents of free descriptors, and sleepers. -/
structure AllocFailed (s s' : VirtioSys) : Prop where
  view : SameView s s'
  desc : ∀ i, s.free i = false → s'.desc i = s.desc i
  rest : s' = { s with desc := s'.desc, pc := s'.pc }

/-- Three free descriptors were taken. -/
structure Alloced (s s' : VirtioSys) (t : Triple) : Prop where
  lt : ∀ i ∈ t.list, i < numDesc
  nodup : t.list.Nodup
  free : ∀ i ∈ t.list, s.free i = true
  eq : s' = { s with free := fun i => if i ∈ t.list then false else s.free i }

lemma alloc3Desc_spec (s : VirtioSys) : (∃ s', s.alloc3Desc = .ok (none, s') ∧ AllocFailed s s') ∨
    ∃ t s', s.alloc3Desc = .ok (some t, s') ∧ Alloced s s' t := by
  unfold alloc3Desc
  cases h0 : s.allocDesc with
  | none => exact .inl ⟨s, rfl, SameView.refl s, fun _ _ => rfl, rfl⟩
  | some r0 =>
    obtain ⟨i0, s0⟩ := r0
    obtain ⟨hl0, hf0, rfl⟩ := allocDesc_some h0
    have hb0 : (s.takeDesc i0).free i0 = false := update_self ..
    simp only
    cases h1 : (s.takeDesc i0).allocDesc with
    | none =>
      refine .inl ⟨_, by rw [freeDesc_ok hl0 hb0]; rfl, takeDesc_view.trans giveDesc_view,
        fun i hi => ?_, ?_⟩
      · exact update_of_ne (by rintro rfl; simp [hf0] at hi) ..
      · have hfree : ((s.takeDesc i0).giveDesc i0).free = s.free := by
          simp [takeDesc, giveDesc, ← hf0]
        rw [← hfree]
        rfl
    | some r1 =>
      obtain ⟨i1, s1⟩ := r1
      obtain ⟨hl1, hf1, rfl⟩ := allocDesc_some h1
      have hne : i1 ≠ i0 := by
        rintro rfl
        simp [hb0] at hf1
      have hf1' : s.free i1 = true := (update_of_ne hne ..).symm.trans hf1
      simp only
      cases h2 : ((s.takeDesc i0).takeDesc i1).allocDesc with
      | none =>
        have hb : ((s.takeDesc i0).takeDesc i1).free i0 = false := by simp [takeDesc, Ne.symm hne]
        have hb' : (((s.takeDesc i0).takeDesc i1).giveDesc i0).free i1 = false := by
          simp [takeDesc, giveDesc, hne]
        simp only [freeDesc_ok hl0 hb]
        refine .inl ⟨_, by
            change (do let s ← freeDesc _ i1; .ok (none, s)) = _
            rw [freeDesc_ok hl1 hb']
            rfl, takeDesc_view.trans (takeDesc_view.trans (giveDesc_view.trans giveDesc_view)),
          fun i hi => ?_, ?_⟩
        · have hi0 : i ≠ i0 := by
            rintro rfl
            simp [hf0] at hi
          have hi1 : i ≠ i1 := by
            rintro rfl
            simp [hf1'] at hi
          exact (update_of_ne hi1 ..).trans (update_of_ne hi0 ..)
        · have hfree : ((((s.takeDesc i0).takeDesc i1).giveDesc i0).giveDesc i1).free = s.free := by
            funext j
            simp only [takeDesc, giveDesc, update_apply]
            split_ifs <;> simp_all
          rw [← hfree]
          rfl
      | some r2 =>
        obtain ⟨i2, s2⟩ := r2
        obtain ⟨hl2, hf2, rfl⟩ := allocDesc_some h2
        have hne0 : i2 ≠ i0 := by
          rintro rfl
          simp [takeDesc, Ne.symm hne] at hf2
        have hne1 : i2 ≠ i1 := by
          rintro rfl
          simp [takeDesc] at hf2
        have hf2' : s.free i2 = true := by simpa [takeDesc, hne0, hne1] using hf2
        refine .inr ⟨⟨i0, i1, i2⟩, _, rfl, ?_, ?_, ?_, ?_⟩
        · simp [Triple.list, hl0, hl1, hl2]
        · simp [Triple.list, Ne.symm hne, Ne.symm hne0, Ne.symm hne1]
        · simp [Triple.list, hf0, hf1', hf2']
        · have hfree : (((s.takeDesc i0).takeDesc i1).takeDesc i2).free =
              fun i => if i ∈ Triple.list ⟨i0, i1, i2⟩ then false else s.free i := by
            funext j
            simp only [takeDesc, Triple.list, update_apply, mem_cons, not_mem_nil, or_false]
            split_ifs <;> simp_all
          rw [← hfree]
          rfl

/-- The descriptors of a chain were given back. -/
structure ChainFreed (s s' : VirtioSys) (t : Triple) : Prop where
  view : SameView s s'
  desc : ∀ i, i ∉ t.list → s'.desc i = s.desc i
  free : ∀ i, s'.free i = if i ∈ t.list then true else s.free i
  rest : s' = { s with desc := s'.desc, pc := s'.pc, free := s'.free }

variable {j n : Nat}

lemma freeChain_next (hi : i < numDesc) (hf : s.free i = false) (hx : (s.desc i).flags % 2 = 1)
    (hj : (s.desc i).next = j) : s.freeChain i (n + 1) = (s.giveDesc i).freeChain j n := by
  rw [freeChain, freeDesc_ok hi hf, ← hj]
  exact if_pos hx

lemma freeChain_last (hi : i < numDesc) (hf : s.free i = false) (hx : (s.desc i).flags % 2 = 0) :
    s.freeChain i (n + 1) = .ok (s.giveDesc i) := by
  rw [freeChain, freeDesc_ok hi hf]
  exact if_neg (by omega)

lemma giveDesc_desc (h : j ≠ i) : (s.giveDesc i).desc j = s.desc j := update_of_ne h ..

lemma giveDesc_free : (s.giveDesc i).free j = if j = i then true else s.free j :=
  update_apply ..

lemma freeChain_spec {t : Triple} (hlt : ∀ i ∈ t.list, i < numDesc) (hn : t.list.Nodup)
    (hf : ∀ i ∈ t.list, s.free i = false) (h0 : (s.desc t.i0).flags % 2 = 1)
    (hn0 : (s.desc t.i0).next = t.i1)
    (h1 : (s.desc t.i1).flags % 2 = 1) (hn1 : (s.desc t.i1).next = t.i2)
    (h2 : (s.desc t.i2).flags % 2 = 0) :
    ∃ s', s.freeChain t.i0 (numDesc + 1) = .ok s' ∧ ChainFreed s s' t := by
  obtain ⟨i0, i1, i2⟩ := t
  simp only [Triple.list, mem_cons, not_mem_nil, or_false, forall_eq_or_imp, forall_eq] at hlt hf
  obtain ⟨hl0, hl1, hl2⟩ := hlt
  obtain ⟨hf0, hf1, hf2⟩ := hf
  obtain ⟨h01, h02, h12⟩ : i0 ≠ i1 ∧ i0 ≠ i2 ∧ i1 ≠ i2 := by
    simpa [Triple.list, and_assoc] using hn
  refine ⟨((s.giveDesc i0).giveDesc i1).giveDesc i2, ?_, ?_⟩
  · have hd1 : (s.giveDesc i0).desc i1 = s.desc i1 := giveDesc_desc (Ne.symm h01)
    have hd2 : ((s.giveDesc i0).giveDesc i1).desc i2 = s.desc i2 :=
      (giveDesc_desc (Ne.symm h12)).trans (giveDesc_desc (Ne.symm h02))
    calc s.freeChain i0 9 = (s.giveDesc i0).freeChain i1 8 := freeChain_next hl0 hf0 h0 hn0
      _ = ((s.giveDesc i0).giveDesc i1).freeChain i2 7 :=
        freeChain_next hl1 (by simp [giveDesc_free, Ne.symm h01, hf1]) (hd1 ▸ h1) (hd1 ▸ hn1)
      _ = .ok (((s.giveDesc i0).giveDesc i1).giveDesc i2) :=
        freeChain_last hl2 (by simp [giveDesc_free, Ne.symm h02, Ne.symm h12, hf2]) (hd2 ▸ h2)
  · refine ⟨giveDesc_view.trans (giveDesc_view.trans giveDesc_view), fun i hi => ?_, fun i => ?_, rfl⟩
    · obtain ⟨hi0, hi1, hi2⟩ : i ≠ i0 ∧ i ≠ i1 ∧ i ≠ i2 := by simpa [Triple.list] using hi
      rw [giveDesc_desc hi2, giveDesc_desc hi1, giveDesc_desc hi0]
    · simp only [giveDesc_free, Triple.list, mem_cons, not_mem_nil, or_false]
      split_ifs <;> simp_all

end

end Xv6
