import Xv6.WaitInv

/-! Which slot `kill(pid)` hits. A slot that is free has pid 0 and `allocproc` does not
reset `killed`, so the calls here name a pid other than 0. -/

namespace Xv6

open List

open WaitSys

inductive KillEvent where
  /-- `fork` takes the slot `i` for a process with this pid. -/
  | allocated (i : Nat) (pid : Int32)
  /-- `kill(pid)` returns `r`. -/
  | returned (pid : Int32) (r : Int)

def killEvents (n : Nat) (s : WaitSys) : WaitAct → List KillEvent
  | .go p ok =>
    match s.pc p with
    | .forkScan i =>
      if i < n ∧ (s.proc i).state = .unused ∧ ok = true then [.allocated i s.nextpid] else []
    | .killScan pid i =>
      if i < n then if (s.proc i).pid = pid then [.returned pid 0] else []
      else [.returned pid (-1)]
    | _ => []
  | _ => []

def killMachine (n : Nat) : Machine WaitSys WaitAct KillEvent where
  init s := s = .boot ∧ 0 < n
  step s a := (s.step n a).map fun r => (r.1, killEvents n s a)

def NamesPid (_ : WaitSys) : WaitAct → Prop
  | .kill _ pid => pid ≠ 0
  | _ => True

/-- What a step makes of the slot `c`, next to what the observer sees. -/
inductive KillFate (n : Nat) (s : WaitSys) (evs : List KillEvent) (c : Nat) : Slot → Prop
  | kept {z : Slot} (hpid : z.pid = (s.proc c).pid) (hk : z.killed = (s.proc c).killed)
      (hu : z.state = .unused → (s.proc c).state = .unused)
      (he : ∀ q, .allocated c q ∉ evs) : KillFate n s evs c z
  | freed (he : ∀ q, .allocated c q ∉ evs) : KillFate n s evs c .free
  | allocated (hu : (s.proc c).state = .unused) (he : evs = [.allocated c s.nextpid]) :
      KillFate n s evs c { s.proc c with pid := s.nextpid, state := .used }
  | hit {p : Nat} {pid : Int32} (hp : s.pc p = .killScan pid c) (hpid : (s.proc c).pid = pid) 
      (he : evs = [.returned pid 0]) :
      KillFate n s evs c { s.proc c with
        killed := true
        state := if (s.proc c).state = .sleeping then .runnable else (s.proc c).state }

section

variable {n : Nat} {s s' : WaitSys} {p c i : Nat} {evs : List KillEvent} {z : Slot} {ok : Bool}
  {out : List WaitEvent}

lemma KillFate.same (he : ∀ q, .allocated c q ∉ evs) : KillFate n s evs c (s.proc c) :=
  .kept rfl rfl (fun h => h) he

lemma KillFate.setProc (h : KillFate n s evs i z) (he : c ≠ i → ∀ q, .allocated c q ∉ evs) :
    KillFate n s evs c ((s.setProc i z).proc c) := by
  by_cases hc : c = i
  · subst hc
    rw [setProc_self]
    exact h
  · rw [setProc_of_ne hc]
    exact .same (he hc)

lemma KillFate.setState {x : ProcState} (hx : x ≠ .unused) :
    KillFate n s [] c ((s.setState i x).proc c) :=
  KillFate.setProc (.kept rfl rfl (fun h => absurd h hx) fun _ => not_mem_nil) fun _ _ => not_mem_nil

lemma KillFate.setParent {r : Nat} : KillFate n s [] c ((s.setParent i r).proc c) :=
  KillFate.setProc (.kept rfl rfl (fun h => h) fun _ => not_mem_nil) fun _ _ => not_mem_nil

lemma KillFate.wake {r : Option Nat} : KillFate n s [] c ((s.wake p r i).proc c) := by
  unfold WaitSys.wake
  split_ifs
  · exact .setState (by simp)
  · exact .same fun _ => not_mem_nil

lemma fork_fate (h : forkStep n s p i ok = (s', out)) :
    KillFate n s (if i < n ∧ (s.proc i).state = .unused ∧ ok = true then [.allocated i s.nextpid]
      else []) c (s'.proc c) := by
  unfold forkStep at h
  by_cases hi : i < n
  · by_cases hu : (s.proc i).state = .unused
    · cases ok with
      | true =>
        rw [if_pos hi, if_pos hu, if_pos rfl] at h
        cases h
        rw [if_pos ⟨hi, hu, rfl⟩]
        refine KillFate.setProc (.allocated hu rfl) fun hc q hq => hc ?_
        cases mem_singleton.mp hq
        rfl
      | false =>
        rw [if_pos hi, if_pos hu, if_neg (by simp)] at h
        cases h
        rw [if_neg (by simp)]
        exact KillFate.setProc (.freed fun _ => not_mem_nil) fun _ _ => not_mem_nil
    · rw [if_pos hi, if_neg hu] at h
      cases h
      rw [if_neg fun hh => hu hh.2.1]
      exact .same fun _ => not_mem_nil
  · rw [if_neg hi] at h
    cases h
    rw [if_neg fun hh => hi hh.1]
    exact .same fun _ => not_mem_nil

lemma kill_fate {pid : Int32} (hp : s.pc p = .killScan pid i) (h : goWait n s p ok = some (s', out)) :
    KillFate n s (killEvents n s (.go p ok)) c (s'.proc c) := by
  simp only [goWait, hp] at h
  simp only [killEvents, hp]
  split_ifs at h ⊢ with hi hpid
  · cases h
    exact KillFate.setProc (.hit hp hpid rfl) fun _ q hq => by cases mem_singleton.mp hq
  · cases h
    exact .same fun _ => not_mem_nil
  · cases h
    exact .same fun _ hq => by cases mem_singleton.mp hq

lemma wait_fate {addr : Nat} {k : Bool} (h : waitStep n s p addr i k ok = (s', out)) :
    KillFate n s [] c (s'.proc c) := by
  unfold waitStep at h
  split_ifs at h
  all_goals cases h
  case pos => exact .same fun _ => not_mem_nil
  case neg => exact KillFate.setProc (.freed fun _ => not_mem_nil) fun _ _ => not_mem_nil
  all_goals exact .same fun _ => not_mem_nil

lemma reparent_fate {st : Int32} : KillFate n s [] c ((reparentStep n s p st i).proc c) := by
  unfold reparentStep
  split_ifs
  · exact .setParent
  · exact .same fun _ => not_mem_nil
  · exact .same fun _ => not_mem_nil

lemma go_fate (h : goWait n s p ok = some (s', out)) :
    KillFate n s (killEvents n s (.go p ok)) c (s'.proc c) := by
  have hnil : ∀ {c} q, KillEvent.allocated c q ∉ ([] : List KillEvent) := fun _ => not_mem_nil
  cases hp : s.pc p with
  | forkScan i =>
    simp only [killEvents, goWait, hp, Option.some.injEq] at h ⊢
    exact fork_fate h
  | killScan pid i =>
    exact kill_fate hp h
  | waitScan addr i k =>
    simp only [killEvents, goWait, hp, Option.some.injEq] at h ⊢
    exact wait_fate h
  | reparent st i =>
    simp only [killEvents, goWait, hp] at h ⊢
    cases h
    exact reparent_fate
  | code => simp [goWait, hp] at h
  | waitDoze addr => simp [goWait, hp] at h
  | forkParent np =>
    simp only [killEvents, goWait, hp] at h ⊢
    split_ifs at h
    cases h
    exact .setParent
  | forkRun np =>
    simp only [killEvents, goWait, hp] at h ⊢
    cases h
    exact .setState (by simp)
  | exitLock st =>
    simp only [killEvents, goWait, hp] at h ⊢
    split_ifs at h
    cases h
    exact .same hnil
  | waitLock addr =>
    simp only [killEvents, goWait, hp] at h ⊢
    split_ifs at h
    cases h
    exact .same hnil
  | wakeInit st i j =>
    simp only [killEvents, goWait, hp] at h ⊢
    split_ifs at h
    · cases h
      exact .wake
    · cases h
      exact .same hnil
  | wakeParent st r j =>
    simp only [killEvents, goWait, hp] at h ⊢
    split_ifs at h
    · cases h
      exact .wake
    · cases h
      exact .same hnil
  | exitZombie st =>
    simp only [killEvents, goWait, hp] at h ⊢
    cases h
    exact KillFate.setProc (.kept rfl rfl (fun hu => by cases hu) hnil) fun _ => hnil
  | waitSleep addr =>
    simp only [killEvents, goWait, hp] at h ⊢
    cases h
    exact KillFate.setProc (.kept rfl rfl (fun hu => by cases hu) hnil) fun _ => hnil

lemma callWait_eq {x : WaitPc} (h : callWait s p x = some (s', out)) : s' = s.setPc p x := by
  unfold callWait at h
  split at h
  · cases h
    rfl
  · cases h

lemma step_fate {a : WaitAct} (h : s.step n a = some (s', out)) :
    KillFate n s (killEvents n s a) c (s'.proc c) := by
  have hnil : ∀ {c} q, KillEvent.allocated c q ∉ ([] : List KillEvent) := fun _ => not_mem_nil
  cases a with
  | run p =>
    simp only [WaitSys.step] at h
    split_ifs at h
    cases h
    unfold runWait
    split
    · exact KillFate.setProc (.kept rfl rfl (fun hu => by cases hu) hnil) fun _ => hnil
    · exact .setState (by simp)
  | yield p =>
    simp only [WaitSys.step] at h
    split_ifs at h
    cases h
    exact .setState (by simp)
  | go p ok =>
    simp only [WaitSys.step] at h
    split_ifs at h
    exact go_fate h
  | exit p st =>
    simp only [WaitSys.step] at h
    split_ifs at h
    rw [callWait_eq h]
    exact .same hnil
  | fork p =>
    rw [callWait_eq h]
    exact .same hnil
  | wait p addr =>
    rw [callWait_eq h]
    exact .same hnil
  | kill p pid =>
    rw [callWait_eq h]
    exact .same hnil

lemma step_killScan {a : WaitAct} {q : Nat} {pid : Int32} (h : s.step n a = some (s', out))
    (hq : s'.pc q = .killScan pid i) : (∃ j, s.pc q = .killScan pid j) ∨ a = .kill q pid := by
  have hset :
    ∀ {r : Nat} {x : WaitPc}, (∀ j, x ≠ .killScan pid j) → (s.setPc r x).pc q = .killScan pid i →
      ∃ j, s.pc q = .killScan pid j := by
    intro r x hx hpc
    by_cases hr : q = r
    · rw [hr, setPc_pc_self] at hpc
      exact absurd hpc (hx i)
    · rw [setPc_pc_of_ne hr] at hpc
      exact ⟨i, hpc⟩
  cases a with
  | run p =>
    simp only [WaitSys.step] at h
    split_ifs at h
    cases h
    unfold runWait at hq
    split at hq
    · exact .inl (hset (by simp) hq)
    · exact .inl ⟨i, hq⟩
  | yield p =>
    simp only [WaitSys.step] at h
    split_ifs at h
    cases h
    exact .inl ⟨i, hq⟩
  | go p ok =>
    simp only [WaitSys.step] at h
    split_ifs at h with hr
    have hw := goWait_cases hr h
    by_cases hqp : q = p
    · subst hqp
      cases hw with
      | @move x y hr hp hm =>
        rw [setPc_pc_self] at hq
        subst hq
        cases hm with
        | kill => simp [goWait, hp] at h
        | killNext => exact .inl ⟨_, hp⟩
      | run hr hp => exact .inl ⟨i, hq⟩
      | yield hr hl => exact .inl ⟨i, hq⟩
      | wake hr hp hx =>
        rw [setPc_pc_self] at hq
        subst hq
        cases hx
      | lock hr hp hl hx =>
        have hpc := setPc_pc_self.symm.trans hq
        subst hpc
        cases hx
      | _ => exact absurd (setPc_pc_self.symm.trans hq) (by simp)
    · rw [hw.pc_of_ne hqp] at hq
      exact .inl ⟨i, hq⟩
  | exit p st =>
    simp only [WaitSys.step] at h
    split_ifs at h
    rw [callWait_eq h] at hq
    exact .inl (hset (by simp) hq)
  | fork p =>
    rw [callWait_eq h] at hq
    exact .inl (hset (by simp) hq)
  | wait p addr =>
    rw [callWait_eq h] at hq
    exact .inl (hset (by simp) hq)
  | kill p pid' =>
    rw [callWait_eq h] at hq
    by_cases hqp : q = p
    · rw [hqp, setPc_pc_self] at hq
      cases hq
      exact .inr (by rw [hqp])
    · rw [setPc_pc_of_ne hqp] at hq
      exact .inl ⟨i, hq⟩

end

/-- Free slots have pid 0 and are not killed; a process is killed by its own pid only. -/
structure KillInv (s : WaitSys) (hist : List KillEvent) : Prop where
  free : ∀ i, (s.proc i).state = .unused → (s.proc i).pid = 0 ∧ (s.proc i).killed = false
  scan : ∀ p pid i, s.pc p = .killScan pid i → pid ≠ 0
  own : ∀ i pre q post, hist = pre ++ .allocated i q :: post → (∀ q', .allocated i q' ∉ post) →
    ((s.proc i).pid = q ∨ (s.proc i).pid = 0) ∧ ((s.proc i).killed = true → .returned q 0 ∈ post)

variable {n : Nat} {s s' : WaitSys} {hist : List KillEvent}

/-- A pid is in one slot at a time. -/
lemma KillInv.step {a : WaitAct} {out : List WaitEvent}
    (h : KillInv s hist) (hok : NamesPid s a) (hs : s.step n a = some (s', out)) :
    KillInv s' (hist ++ killEvents n s a) where
  free := by
    intro i hu
    have hf := step_fate (c := i) hs
    generalize s'.proc i = z at hu hf
    cases hf with
    | kept hpid hk hu' he =>
      rw [hpid, hk]
      exact h.free i (hu' hu)
    | freed he => exact ⟨rfl, rfl⟩
    | allocated hu' he => cases hu
    | hit hp hpid he =>
      have hun : (s.proc i).state = .unused := by
        by_contra hne
        simp only at hu
        split_ifs at hu
        exact hne hu
      rw [(h.free i hun).1] at hpid
      exact absurd hpid.symm (h.scan _ _ _ hp)
  scan := by
    intro p pid i hp
    rcases step_killScan hs hp with ⟨j, hj⟩ | rfl
    · exact h.scan p pid j hj
    · exact hok
  own := by
    intro i pre q post hh hno
    have hf := step_fate (c := i) hs
    rcases Machine.split_last hh with hmem | ⟨post', hold, rfl⟩
    · -- the slot was allocated by this step
      generalize s'.proc i = z at hf ⊢
      cases hf with
      | kept hpid hk hu he => exact absurd hmem (he q)
      | freed he => exact absurd hmem (he q)
      | allocated hu he =>
        rw [he] at hmem hh
        cases mem_singleton.mp hmem
        have hk := (h.free i hu).2
        exact ⟨.inl rfl, fun hh => absurd (hk.symm.trans hh) (by simp)⟩
      | hit hp hpid he =>
        rw [he] at hmem
        cases mem_singleton.mp hmem
    · obtain ⟨hpid', hkill⟩ := h.own i pre q post' hold fun q' hq' => hno q' (mem_append_left _ hq')
      generalize s'.proc i = z at hf ⊢
      cases hf with
      | kept hpid hk hu he =>
        rw [hpid, hk]
        exact ⟨hpid', fun hh => mem_append_left _ (hkill hh)⟩
      | freed he => exact ⟨.inr rfl, fun hh => by cases hh⟩
      | allocated hu he =>
        exact absurd (mem_append_right _ (by rw [he]; exact mem_singleton_self _)) (hno _)
      | @hit p pid hp hpid he =>
        have h0 := h.scan p pid i hp
        have hq : pid = q := hpid.symm.trans (hpid'.resolve_right fun hz => h0 (hpid.symm.trans hz))
        refine ⟨hpid', fun _ => mem_append_right _ ?_⟩
        rw [he, hq]
        exact mem_singleton_self _

lemma killMachine_step {a : WaitAct} {evs : List KillEvent}
    (h : (killMachine n).step s a = some (s', evs)) : ∃ out, s.step n a = some (s', out) ∧
    evs = killEvents n s a := by
  obtain ⟨r, hr, he⟩ := Option.map_eq_some_iff.mp h
  cases he
  exact ⟨r.2, hr, rfl⟩

lemma kill_inv (h : (killMachine n).Reach NamesPid s hist) :
    KillInv s hist := by
  refine h.invariant (fun s hs => ?_) ?_
  · obtain ⟨rfl, -⟩ := hs
    refine ⟨fun i hu => ?_, fun p pid i hp => (by cases hp), fun i pre q post hh => absurd hh (by simp)⟩
    change (if i = initproc then _ else _ : Slot).state = .unused at hu
    change (if i = initproc then _ else _ : Slot).pid = 0 ∧
      (if i = initproc then _ else _ : Slot).killed = false
    split_ifs at hu ⊢
    exact ⟨rfl, rfl⟩
  · intro s s' hist evs a _ hi hok hs
    obtain ⟨out, hs', rfl⟩ := killMachine_step hs
    exact hi.step hok hs'

/-- When every call of `kill` names a pid other than 0, a section of `kill(pid)` changes one
slot, in use and with that pid, and returns 0, or it changes none and goes on or returns -1; and
the process that `fork` put into a slot is killed only after a `kill` of its own pid. -/
theorem kill_hits_named {n : Nat} {s : WaitSys} {hist : List KillEvent}
    (h : (killMachine n).Reach NamesPid s hist) :
    (∀ p pid i ok s' evs, s.pc p = .killScan pid i →
      (killMachine n).step s (.go p ok) = some (s', evs) →
      ((evs = [] ∨ evs = [.returned pid (-1)]) ∧ s'.proc = s.proc) ∨
      (evs = [.returned pid 0] ∧ i < n ∧ (s.proc i).state ≠ .unused ∧ (s.proc i).pid = pid ∧
        s'.proc = Function.update s.proc i { s.proc i with
          killed := true
          state := if (s.proc i).state = .sleeping then .runnable else (s.proc i).state })) ∧
    ∀ i pre q post, hist = pre ++ .allocated i q :: post → (∀ q', .allocated i q' ∉ post) →
      (s.proc i).state ≠ .unused → (s.proc i).killed = true → .returned q 0 ∈ post := by
  have hi := kill_inv h
  refine ⟨fun p pid i ok s' evs hp hs => ?_,
    fun i pre q post hh hno _ => (hi.own i pre q post hh hno).2⟩
  obtain ⟨out, hs', rfl⟩ := killMachine_step hs
  simp only [WaitSys.step] at hs'
  split_ifs at hs' with hr
  simp only [goWait, hp] at hs'
  simp only [killEvents, hp]
  split_ifs at hs' with hin hpid
  · cases hs'
    rw [if_pos hin, if_pos hpid]
    refine .inr ⟨rfl, hin, fun hu => ?_, hpid, rfl⟩
    exact hi.scan p pid i hp (hpid.symm.trans (hi.free i hu).1)
  · cases hs'
    rw [if_pos hin, if_neg hpid]
    exact .inl ⟨.inl rfl, rfl⟩
  · cases hs'
    rw [if_neg hin]
    exact .inl ⟨.inr rfl, rfl⟩

theorem kill_hits_named_child :
    ∃ s, (killMachine 2).Reach NamesPid s [.allocated 1 2, .returned 2 0] ∧
      (s.proc 1).state = .runnable ∧ (s.proc 1).killed = true ∧
      KillEvent.returned 2 0 ∈ [KillEvent.returned 2 0] := by
  have h0 : (killMachine 2).Reach NamesPid .boot [] := .init ⟨rfl, by decide⟩
  have h1 := h0.step (a := .run 0) (by trivial) rfl
  have h2 := h1.step (a := .fork 0) (by trivial) rfl
  have h3 := h2.step (a := .go 0 true) (by trivial) rfl
  have h4 := h3.step (a := .go 0 true) (by trivial) rfl
  have h5 := h4.step (a := .go 0 true) (by trivial) rfl
  have h6 := h5.step (a := .go 0 true) (by trivial) rfl
  have h7 := h6.step (a := .kill 0 2) (by simp [NamesPid]) rfl
  have h8 := h7.step (a := .go 0 true) (by trivial) rfl
  have h9 := h8.step (a := .go 0 true) (by trivial) rfl
  exact ⟨_, h9, rfl, rfl, (kill_hits_named h9).2 1 [] 2 [.returned 2 0] rfl (by simp)
    (by decide) rfl⟩

/-- `kill(0)` hits the free slot 1 and returns 0; the child that `fork` puts there is killed
from the start. -/
theorem kill_hits_free_slot :
    ∃ s, (killMachine 2).Reach (fun _ _ => True) s [.returned 0 0, .allocated 1 2] ∧
    (∀ i < 2, (s.proc i).state ≠ .unused → (s.proc i).pid ≠ 0) ∧
    (s.proc 1).state = .used ∧ (s.proc 1).pid = 2 ∧ (s.proc 1).killed = true := by
  have h0 : (killMachine 2).Reach (fun _ _ => True) .boot [] := .init ⟨rfl, by decide⟩
  have h1 := h0.step (a := .run 0) trivial rfl
  have h2 := h1.step (a := .kill 0 0) trivial rfl
  have h3 := h2.step (a := .go 0 true) trivial rfl
  have h4 := h3.step (a := .go 0 true) trivial rfl
  have h5 := h4.step (a := .fork 0) trivial rfl
  have h6 := h5.step (a := .go 0 true) trivial rfl
  have h7 := h6.step (a := .go 0 true) trivial rfl
  exact ⟨_, h7, by decide, rfl, rfl, rfl⟩

end Xv6
