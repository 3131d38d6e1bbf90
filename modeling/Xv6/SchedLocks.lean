import Xv6.SchedModel

/-! Who holds which spin lock. The locks that a piece of code has follow from where it is
(`locks`), and what one cpu does leaves alone whatever is behind a lock of another cpu. -/

namespace Xv6

open List
open Function (update_self update_of_ne)

open SchedSys

def ProcPc.locks (p : Nat) : ProcPc → List SpinLock
  | .sleepLock k => [.cond k.lk]
  | .sleepRelease k => [.proc p, .cond k.lk]
  | .forkret | .sleepChan _ | .sleepState _ | .sleepSched _ | .sleepTidy _ | .sleepUnlock _ => [.proc p]
  | .yieldState _ | .yieldSched _ | .yieldUnlock _ => [.proc p]
  | .wakeLook _ i | .wakeSet _ i | .wakeUnlock _ i => [.proc i]
  | .code | .sleepRelock _ | .yieldLock _ | .wakeLoop .. => []

def ProcPc.status : ProcPc → ProcState
  | .sleepSched _ => .sleeping
  | .yieldSched _ => .runnable
  | _ => .running

def ProcPc.parked : ProcPc → Bool
  | .forkret | .sleepTidy _ | .yieldUnlock _ => true
  | _ => false

def ProcPc.onChan : ProcPc → Option SleepCall
  | .sleepState k | .sleepSched k | .sleepTidy k => some k
  | _ => none

def ProcPc.swept : ProcPc → Option (Nat × Nat)
  | .wakeLoop ch i | .wakeLook ch i | .wakeSet ch i => some (ch, i)
  | .wakeUnlock ch i => some (ch, i + 1)
  | _ => none

def CpuPc.index : CpuPc → Option Nat
  | .look i | .chosen i | .enter i | .runs i => some i
  | .scan _ | .drop _ => none

def CpuPc.locks (pc : Nat → ProcPc) : CpuPc → List SpinLock
  | .look i | .chosen i | .enter i | .drop i => [.proc i]
  | .runs p => (pc p).locks p
  | .scan _ => []

def SchedSys.held (s : SchedSys) (c : Nat) : List SpinLock := (s.cpu c).locks s.pc

/-- What a process may do next and where it goes on. -/
inductive Moves (n : Nat) (s : SchedSys) (c p : Nat) : Instr → ProcPc → Prop
  | code {i : Instr} {y : ProcPc} (h : procCode n s p (s.pc p) = some (i, y)) : Moves n s c p i y
  | acquire {lk : Nat} (hp : s.pc p = .code) : Moves n s c p (.acquire (.cond lk)) .code
  | release {lk : Nat} (hp : s.pc p = .code) : Moves n s c p (.release (.cond lk)) .code
  | sleep {chan lk : Nat} (hp : s.pc p = .code) (ho : s.owner (.cond lk) = some c) :
      Moves n s c p .skip (.sleepLock ⟨s.calls, chan, lk⟩)
  | wakeup {chan : Nat} (hp : s.pc p = .code) : Moves n s c p .skip (.wakeLoop chan 0)
  | timer {b : Option SleepCall} (hp : s.pc p = .interrupted b) : Moves n s c p .skip (.yieldLock b)

/-- What a step of code changes. -/
inductive Effect (s : SchedSys) (c : Nat) : Instr → SchedSys → Prop
  | acquire {l : SpinLock} (ho : s.owner l = none) : Effect s c (.acquire l) (s.take c l)
  | release {l : SpinLock} (ho : s.owner l = some c) : Effect s c (.release l) (s.free c l)
  | chan {p ch : Nat} : Effect s c (.chan p ch) (s.setChan p ch)
  | state {p : Nat} {x : ProcState} : Effect s c (.state p x) (s.setState p x)
  | sched {p : Nat} (ho : s.owner (.proc p) = some c) (hs : s.state p ≠ .running) :
      Effect s c (.sched p) (s.setCpu c (.drop p))
  | skip : Effect s c .skip s

def ProcPc.begins : ProcPc → Nat
  | .sleepLock _ => 1
  | _ => 0

def SchedSys.goTo (s : SchedSys) (p : Nat) (x : ProcPc) : SchedSys :=
  { s.setPc p x with calls := s.calls + x.begins }

inductive SchedStep (n : Nat) (s : SchedSys) (c : Nat) : SchedSys → Prop
  | sched {i : Instr} {x : CpuPc} {s' : SchedSys} (hc : ∀ p, s.cpu c ≠ .runs p)
      (hi : cpuCode n s (s.cpu c) = some (i, x)) (he : Effect s c i s') :
      SchedStep n s c (s'.setCpu c x)
  | proc {p : Nat} {i : Instr} {x : ProcPc} {s' : SchedSys} (hc : s.cpu c = .runs p)
      (hi : Moves n s c p i x) (he : Effect s c i s') : SchedStep n s c (s'.goTo p x)

section

variable {n : Nat} {s s' s1 : SchedSys} {c c' p q : Nat} {i : Instr} {x : ProcPc} {l : SpinLock}

variable {y z : CpuPc} {l' : SpinLock}

@[simp] lemma SchedSys.setCpu_cpu_self : (s.setCpu c y).cpu c = y := update_self ..

@[simp] lemma SchedSys.setCpu_pc : (s.setCpu c y).pc = s.pc := rfl

@[simp] lemma SchedSys.setCpu_owner : (s.setCpu c y).owner = s.owner := rfl

@[simp] lemma SchedSys.setCpu_state : (s.setCpu c y).state = s.state := rfl

@[simp] lemma SchedSys.setCpu_chan : (s.setCpu c y).chan = s.chan := rfl

@[simp] lemma SchedSys.goTo_pc_self : (s.goTo p x).pc p = x := update_self ..

lemma SchedSys.goTo_pc_of_ne (h : q ≠ p) : (s.goTo p x).pc q = s.pc q := update_of_ne h ..

@[simp] lemma SchedSys.goTo_cpu : (s.goTo p x).cpu = s.cpu := rfl

@[simp] lemma SchedSys.goTo_owner : (s.goTo p x).owner = s.owner := rfl

@[simp] lemma SchedSys.goTo_state : (s.goTo p x).state = s.state := rfl

@[simp] lemma SchedSys.goTo_chan : (s.goTo p x).chan = s.chan := rfl

lemma exec_cases (h : s.exec c i = some s') : Effect s c i s' := by
  cases i with
  | acquire l =>
    simp only [exec] at h
    split_ifs at h with ho
    cases h
    exact .acquire ho
  | release l =>
    simp only [exec] at h
    split_ifs at h with ho
    cases h
    exact .release ho
  | sched p =>
    simp only [exec] at h
    split_ifs at h with ho
    cases h
    exact .sched ho.1 ho.2.2
  | chan p ch =>
    cases h
    exact .chan
  | state p x =>
    cases h
    exact .state
  | skip =>
    cases h
    exact .skip

lemma Effect.pc (h : Effect s c i s') : s'.pc = s.pc := by
  cases h <;> rfl

lemma Effect.cpu_of_ne (h : Effect s c i s') (hc : c' ≠ c) : s'.cpu c' = s.cpu c' := by
  cases h with
  | sched ho hs => exact update_of_ne hc ..
  | _ => rfl

lemma Effect.cpu (h : Effect s c i s') (hi : ∀ q, i ≠ .sched q) : s'.cpu = s.cpu := by
  cases h with
  | sched ho hs => exact absurd rfl (hi _)
  | _ => rfl

@[simp] lemma SchedSys.take_owner :
    (s.take c l').owner l = if l = l' then some c else s.owner l := Function.update_apply ..

@[simp] lemma SchedSys.free_owner :
    (s.free c l').owner l = if l = l' then none else s.owner l := Function.update_apply ..

lemma Effect.owner_iff (h : Effect s c i s') (hc : c' ≠ c) :
    s'.owner l = some c' ↔ s.owner l = some c' := by
  cases h with
  | @acquire l' ho =>
    by_cases hl : l = l'
    · simp [hl, ho, Ne.symm hc]
    · simp [hl]
  | @release l' ho =>
    by_cases hl : l = l'
    · simp [hl, ho, Ne.symm hc]
    · simp [hl]
  | _ => exact Iff.rfl

lemma Effect.owner (h : Effect s c i s') (ho : s.owner l = some c) (hi : i ≠ .release l) :
    s'.owner l = some c := by
  cases h with
  | acquire ho' => simp [ho]
  | @release l' ho' =>
    have hl : l ≠ l' := fun he => hi (he ▸ rfl)
    simp [hl, ho]
  | _ => exact ho

lemma SchedSys.setPc_eq_self (h : s.pc p = x) : s.setPc p x = s := by
  subst h
  simp [SchedSys.setPc]

lemma procCode_begins {y : ProcPc} (h : procCode n s p x = some (i, y)) : y.begins = 0 := by
  cases x with
  | yieldUnlock b =>
    cases h
    cases b <;> rfl
  | _ =>
    simp only [procCode] at h
    try split_ifs at h
    all_goals cases h <;> rfl

lemma sched_call_cases {op : SchedOp} (hgo : op ≠ .go) (ht : op ≠ .timer)
    (h : s.step n ⟨c, op⟩ = some s') :
    ∃ p, s.cpu c = .runs p ∧ s.pc p = .code ∧ callProc s c p op = some s' := by
  cases op with
  | go => exact absurd rfl hgo
  | timer => exact absurd rfl ht
  | acquire _ | release _ | sleep _ _ | wakeup _ =>
    simp only [SchedSys.step] at h
    split at h
    · next p hc =>
      split at h
      · next hp => exact ⟨p, hc, hp, h⟩
      · cases h
    · cases h

/-- The steps, one case for each instruction. -/
lemma sched_step_cases {a : SchedAct} (h : s.step n a = some s') : SchedStep n s a.cpu s' := by
  obtain ⟨c, op⟩ := a
  cases op with
  | go =>
    simp only [SchedSys.step, runCpu] at h
    split at h
    next p hc =>
      unfold runProc at h
      split at h
      next i x hi =>
        obtain ⟨s1, he, rfl⟩ := Option.map_eq_some_iff.mp h
        have hx := SchedStep.proc hc (.code hi) (exec_cases he)
        rwa [SchedSys.goTo, procCode_begins hi] at hx
      next => cases h
    next hc =>
      split at h
      next i x hi =>
        obtain ⟨s1, he, rfl⟩ := Option.map_eq_some_iff.mp h
        exact .sched hc hi (exec_cases he)
      next => cases h
  | timer =>
    simp only [SchedSys.step, timerProc] at h
    split at h
    next p hc =>
      split_ifs at h
      split at h
      next hp =>
        cases h
        exact .proc hc (.timer (b := none) hp) .skip
      next k hp =>
        cases h
        exact .proc hc (.timer (b := some k) hp) .skip
      next => cases h
    next => cases h
  | acquire lk =>
    obtain ⟨p, hc, hp, he⟩ := sched_call_cases (by simp) (by simp) h
    have he : Effect s c (.acquire (.cond lk)) s' := exec_cases he
    have hx := SchedStep.proc hc (.acquire (n := n) hp) he
    rwa [goTo, setPc_eq_self ((congrFun he.pc p).trans hp)] at hx
  | release lk =>
    obtain ⟨p, hc, hp, he⟩ := sched_call_cases (by simp) (by simp) h
    have he : Effect s c (.release (.cond lk)) s' := exec_cases he
    have hx := SchedStep.proc hc (.release (n := n) hp) he
    rwa [goTo, setPc_eq_self ((congrFun he.pc p).trans hp)] at hx
  | sleep chan lk =>
    obtain ⟨p, hc, hp, he⟩ := sched_call_cases (by simp) (by simp) h
    simp only [callProc] at he
    split_ifs at he with ho
    cases he
    exact .proc hc (.sleep hp ho) .skip
  | wakeup chan =>
    obtain ⟨p, hc, hp, he⟩ := sched_call_cases (by simp) (by simp) h
    cases he
    exact .proc hc (.wakeup hp) .skip

lemma procCode_locks {y : ProcPc} (h : procCode n s p x = some (i, y)) (hi : ∀ q, i ≠ .sched q)
    (hl : l ∈ y.locks p) : i = .acquire l ∨ l ∈ x.locks p ∧ i ≠ .release l := by
  cases x with
  | yieldUnlock b =>
    cases h
    cases b <;> cases hl
  | sleepLock k =>
    cases h
    rcases mem_cons.mp hl with rfl | hl
    · exact .inl rfl
    · exact .inr ⟨hl, Instr.noConfusion⟩
  | _ =>
    simp only [procCode] at h
    try split_ifs at h
    all_goals cases h
    all_goals simp_all [ProcPc.locks]

lemma Moves.owner (h : Moves n s c p i x) (he : Effect s c i s') (hi : ∀ q, i ≠ .sched q)
    (hh : ∀ l ∈ (s.pc p).locks p, s.owner l = some c) : ∀ l ∈ x.locks p, s'.owner l = some c := by
  intro l hl
  cases h with
  | code h =>
    rcases procCode_locks h hi hl with rfl | ⟨hl, hr⟩
    · cases he
      exact update_self ..
    · exact he.owner (hh l hl) hr
  | sleep hp ho =>
    cases he
    cases mem_singleton.mp hl
    exact ho
  | _ => cases hl

lemma Moves.sched (h : Moves n s c p (.sched q) x) : q = p ∧ .proc p ∈ (s.pc p).locks p ∧
    x.parked = true := by
  cases h with
  | code h =>
    generalize s.pc p = y at h
    cases y <;> simp only [procCode] at h <;> (try split_ifs at h) <;> cases h
    · exact ⟨rfl, mem_singleton_self _, rfl⟩
    · exact ⟨rfl, mem_singleton_self _, rfl⟩

lemma Moves.state {y : ProcState} (h : Moves n s c p (.state q y) x) :
    .proc q ∈ (s.pc p).locks p ∧ ((q = p ∧ y = x.status ∧ (s.pc p).swept = none) ∨
      ∃ ch, s.pc p = .wakeSet ch q ∧ x = .wakeUnlock ch q ∧ y = .runnable) := by
  cases h with
  | code h =>
    generalize s.pc p = y at h
    cases y <;> simp only [procCode] at h <;> (try split_ifs at h) <;> cases h
    · exact ⟨mem_singleton_self _, .inl ⟨rfl, rfl, rfl⟩⟩
    · exact ⟨mem_singleton_self _, .inl ⟨rfl, rfl, rfl⟩⟩
    · exact ⟨mem_singleton_self _, .inr ⟨_, rfl, rfl, rfl⟩⟩

lemma Moves.chan {ch : Nat} (h : Moves n s c p (.chan q ch) x) :
    q = p ∧ .proc p ∈ (s.pc p).locks p := by
  cases h with
  | code h =>
    generalize s.pc p = y at h
    cases y <;> simp only [procCode] at h <;> (try split_ifs at h) <;> cases h
    · exact ⟨rfl, mem_singleton_self _⟩
    · exact ⟨rfl, mem_singleton_self _⟩

/-- Where the step does not write `p->state`, what it has to be does not change. -/
lemma Moves.status (h : Moves n s c p i x) (hi : ∀ q, i ≠ .sched q) (hs : ∀ y, i ≠ .state p y) :
    x.status = (s.pc p).status := by
  cases h with
  | code h =>
    generalize s.pc p = y at h ⊢
    cases y with
    | yieldUnlock b =>
      cases h
      cases b <;> rfl
    | _ =>
      simp only [procCode] at h
      try split_ifs at h
      all_goals cases h
      all_goals first | rfl | exact absurd rfl (hs _) | exact absurd rfl (hi _)
  | timer hp =>
    rw [hp]
    rename_i b
    cases b <;> rfl
  | _ hp => simp only [hp, ProcPc.status]

lemma Moves.state_eq (h : Moves n s c p i x) (he : Effect s c i s') (hi : ∀ q, i ≠ .sched q)
    (hst : s.state p = (s.pc p).status) (hw : ∀ ch, s.pc p ≠ .wakeSet ch p) : s'.state p =
    x.status := by
  by_cases hp : ∃ y, i = .state p y
  · obtain ⟨y, rfl⟩ := hp
    cases he
    obtain ⟨-, ⟨-, rfl, -⟩ | ⟨ch, hp, -⟩⟩ := h.state
    · exact update_self ..
    · exact absurd hp (hw ch)
  · have hp : ∀ y, i ≠ .state p y := fun y hy => hp ⟨y, hy⟩
    rw [h.status hi hp, ← hst]
    cases he with
    | @state q y =>
      have hq : p ≠ q := fun hq => hp y (hq ▸ rfl)
      exact update_of_ne hq ..
    | _ => rfl

/-- A cpu's step leaves the other cpus, and what is behind a lock that it does not have. -/
structure Local (s s' : SchedSys) (c : Nat) : Prop where
  cpu : ∀ {c'}, c' ≠ c → s'.cpu c' = s.cpu c'
  pc : ∀ {q}, s.cpu c ≠ .runs q → s'.pc q = s.pc q
  owner : ∀ {c' l}, c' ≠ c → (s'.owner l = some c' ↔ s.owner l = some c')
  state : ∀ {q}, .proc q ∉ s.held c → s'.state q = s.state q
  chan : ∀ {q}, s.cpu c ≠ .runs q ∨ .proc q ∉ s.held c → s'.chan q = s.chan q

lemma cpuCode_state {q : Nat} {x : ProcState} (h : cpuCode n s y = some (.state q x, z)) :
    y = .chosen q ∧ x = .running ∧ z = .enter q := by
  cases y <;> simp only [cpuCode] at h <;> (try split_ifs at h) <;> cases h
  exact ⟨rfl, rfl, rfl⟩

lemma cpuCode_locks {pc : Nat → ProcPc} (h : cpuCode n s y = some (i, z))
    (hp : ∀ q, y = .enter q → (pc q).locks q = [.proc q]) (hl : l ∈ z.locks pc) :
    i = .acquire l ∨ l ∈ y.locks pc ∧ i ≠ .release l := by
  cases y with
  | enter q =>
    cases h
    rw [CpuPc.locks, hp q rfl] at hl
    exact .inr ⟨hl, Instr.noConfusion⟩
  | _ =>
    simp only [cpuCode] at h
    try split_ifs at h
    all_goals cases h
    all_goals simp_all [CpuPc.locks]

lemma cpuCode_chan {ch : Nat} (h : cpuCode n s y = some (.chan q ch, z)) : False := by
  cases y <;> simp only [cpuCode] at h <;> (try split_ifs at h) <;> cases h

lemma SchedStep.local (h : SchedStep n s c s') : Local s s' c := by
  cases h with
  | @sched i x s1 hc hi he =>
    refine ⟨fun hc' => ?_, fun _ => ?_, he.owner_iff, fun hq => ?_, fun hq => ?_⟩
    · exact (update_of_ne hc' ..).trans (he.cpu_of_ne hc')
    · exact congrFun he.pc _
    · cases he with
      | state =>
        obtain ⟨hy, -, -⟩ := cpuCode_state hi
        refine update_of_ne (fun he => hq ?_) ..
        simp [held, CpuPc.locks, hy, he]
      | _ => rfl
    · cases he with
      | chan => exact (cpuCode_chan hi).elim
      | _ => rfl
  | @proc p i x s1 hc hi he =>
    refine ⟨fun hc' => he.cpu_of_ne hc', @fun q hq => ?_, he.owner_iff, fun hq => ?_, fun hq => ?_⟩
    · have hne : q ≠ p := by
        rintro rfl
        exact hq hc
      exact (update_of_ne hne ..).trans (congrFun he.pc q)
    · cases he with
      | state =>
        refine update_of_ne (fun he => hq ?_) ..
        simpa [held, CpuPc.locks, hc, he] using hi.state.1
      | _ => rfl
    · cases he with
      | chan =>
        obtain ⟨rfl, hm⟩ := hi.chan
        refine update_of_ne (fun he => ?_) ..
        subst he
        rcases hq with hq | hq
        · exact hq hc
        · exact hq (by simpa [held, CpuPc.locks, hc] using hm)
      | _ => rfl

lemma SchedStep.runs (h : SchedStep n s c s') (hr : s'.cpu c' = .runs q) :
    s.cpu c' = .runs q ∨ c' = c ∧ s.cpu c = .enter q := by
  by_cases hc' : c' = c
  · subst hc'
    cases h with
    | @sched i x s1 hc hi he =>
      have hx : x = .runs q := (update_self ..).symm.trans hr
      subst hx
      generalize s.cpu c' = y at hi
      cases y <;> simp only [cpuCode] at hi <;> (try split_ifs at hi) <;> cases hi
      exact .inr ⟨rfl, rfl⟩
    | @proc p i x s1 hc hi he =>
      cases he with
      | sched => exact absurd ((update_self ..).symm.trans hr) CpuPc.noConfusion
      | _ => exact .inl hr
  · exact .inl ((h.local.cpu hc').symm.trans hr)

lemma ProcPc.status_eq (h : .proc p ∉ x.locks p) : x.status = .running := by
  cases x <;> simp_all [ProcPc.locks, ProcPc.status]

lemma ProcPc.locks_parked (h : x.parked = true) : x.locks p = [.proc p] := by
  cases x <;> simp_all [ProcPc.parked, ProcPc.locks]

lemma ProcPc.status_parked (h : x.parked = true) : x.status = .running := by
  cases x <;> simp_all [ProcPc.parked, ProcPc.status]

structure SchedInv (n : Nat) (s : SchedSys) : Prop where
  held : ∀ {c l}, l ∈ s.held c → s.owner l = some c
  one : ∀ {c c' p}, s.cpu c = .runs p → s.cpu c' = .runs p → c = c'
  status : ∀ {c p}, s.cpu c = .runs p → s.state p = (s.pc p).status
  chosen : ∀ {c i}, s.cpu c = .chosen i → s.state i = .runnable
  enter : ∀ {c i}, s.cpu c = .enter i → s.state i = .running ∧ ∀ c', s.cpu c' ≠ .runs i
  wake : ∀ {c p ch i}, s.cpu c = .runs p → s.pc p = .wakeSet ch i →
    s.state i = .sleeping ∧ s.chan i = ch
  parked : ∀ {p}, (∀ c, s.cpu c ≠ .runs p) → (s.pc p).parked = true
  onChan : ∀ {p k}, (s.pc p).onChan = some k → s.chan p = k.chan
  index : ∀ {c i}, (s.cpu c).index = some i → i < n

lemma SchedStep.writes (h : SchedStep n s c s') (hq : s'.state q ≠ s.state q) :
    (s.cpu c = .runs q ∧ (s.pc q).swept = none) ∨ (s.cpu c = .chosen q ∧ s'.state q = .running) ∨
    ∃ p ch, s.cpu c = .runs p ∧ s.pc p = .wakeSet ch q ∧ s'.state q = .runnable := by
  cases h with
  | @sched i x s1 hc hi he =>
    cases he with
    | @state q' y =>
      have hne : q = q' := by
        by_contra hne
        exact hq (update_of_ne hne ..)
      subst hne
      obtain ⟨hy, rfl, -⟩ := cpuCode_state hi
      exact .inr (.inl ⟨hy, update_self ..⟩)
    | _ => exact absurd rfl hq
  | @proc p i x s1 hc hi he =>
    cases he with
    | @state q' y =>
      have hne : q = q' := by
        by_contra hne
        exact hq (update_of_ne hne ..)
      subst hne
      obtain ⟨-, ⟨rfl, rfl, hw⟩ | ⟨ch, hp, -, rfl⟩⟩ := hi.state
      · exact .inl ⟨hc, hw⟩
      · exact .inr (.inr ⟨p, ch, hc, hp, update_self ..⟩)
    | _ => exact absurd rfl hq

lemma SchedInv.held_iff (h : SchedInv n s) (hl : l ∈ s.held c) : s.owner l = some c' ↔ c' = c := by
  rw [h.held hl]
  exact ⟨fun he => (Option.some.inj he).symm, fun he => he ▸ rfl⟩

lemma SchedInv.notMem_held (h : SchedInv n s) (hc : c' ≠ c) (hl : l ∈ s.held c') :
    l ∉ s.held c := fun hl' =>
  hc ((h.held_iff hl').mp (h.held hl))

lemma SchedSys.mem_held (hc : s.cpu c = .runs p) : l ∈ s.held c ↔ l ∈ (s.pc p).locks p := by
  rw [SchedSys.held, hc, CpuPc.locks]

section

variable (h : SchedInv n s) (hs : SchedStep n s c s')
include h hs

lemma SchedInv.held_of_ne (hc' : c' ≠ c) : s'.held c' = s.held c' := by
  unfold SchedSys.held
  rw [hs.local.cpu hc']
  cases hc : s.cpu c' with
  | runs q => simp only [CpuPc.locks, hs.local.pc fun hq => hc' (h.one hc hq)]
  | _ => rfl

lemma SchedInv.step_held (hl : l ∈ s'.held c') : s'.owner l = some c' := by
  by_cases hc' : c' = c
  · subst hc'
    cases hs with
    | @sched i x s1 hc hi he =>
      have hp : ∀ q, s.cpu c' = .enter q → (s.pc q).locks q = [.proc q] := fun q hq =>
        ProcPc.locks_parked (h.parked (h.enter hq).2)
      rw [SchedSys.held, setCpu_cpu_self, setCpu_pc, he.pc] at hl
      rcases cpuCode_locks hi hp hl with rfl | ⟨hl, hr⟩
      · cases he
        simp
      · exact he.owner (h.held hl) hr
    | @proc p i x s1 hc hi he =>
      have hh : ∀ l ∈ (s.pc p).locks p, s.owner l = some c' := fun l hl => h.held ((mem_held hc).mpr hl)
      by_cases hi' : ∃ q, i = .sched q
      · obtain ⟨q, rfl⟩ := hi'
        obtain ⟨rfl, hl', -⟩ := hi.sched
        cases he
        rw [SchedSys.held, goTo_cpu, setCpu_cpu_self] at hl
        rw [mem_singleton.mp hl]
        exact hh _ hl'
      · have hi' : ∀ q, i ≠ .sched q := fun q hq => hi' ⟨q, hq⟩
        rw [SchedSys.held, goTo_cpu, he.cpu hi', hc, CpuPc.locks, goTo_pc_self] at hl
        exact hi.owner he hi' hh l hl
  · rw [h.held_of_ne hs hc'] at hl
    exact (hs.local.owner hc').mpr (h.held hl)

lemma SchedInv.step_one {c1 c2 : Nat} (h1 : s'.cpu c1 = .runs p)
    (h2 : s'.cpu c2 = .runs p) : c1 = c2 := by
  rcases hs.runs h1 with h1 | ⟨rfl, h1⟩
  · rcases hs.runs h2 with h2 | ⟨rfl, h2⟩
    · exact h.one h1 h2
    · exact absurd h1 ((h.enter h2).2 c1)
  · rcases hs.runs h2 with h2 | ⟨rfl, h2⟩
    · exact absurd h2 ((h.enter h1).2 c2)
    · rfl

lemma SchedInv.state_of_ne (hc' : c' ≠ c) (hr : s.cpu c' = .runs q) : s'.state q = s.state q := by
  by_contra hw
  have hst := h.status hr
  have hrun : .proc q ∈ s.held c → s.state q = .running := by
    intro hl
    rw [hst, ProcPc.status_eq]
    intro hl'
    exact h.notMem_held hc' ((mem_held hr).mpr hl') hl
  rcases hs.writes hw with ⟨hr', -⟩ | ⟨hc, -⟩ | ⟨p, ch, hr', hp, -⟩
  · exact hc' (h.one hr hr')
  · have hl : .proc q ∈ s.held c := by simp [SchedSys.held, CpuPc.locks, hc]
    simpa [h.chosen hc] using hrun hl
  · have hl : .proc q ∈ s.held c := by simp [mem_held hr', ProcPc.locks, hp]
    simpa [(h.wake hr' hp).1] using hrun hl

lemma SchedInv.step_status (hc' : s'.cpu c' = .runs q) : s'.state q = (s'.pc q).status := by
  rcases hs.runs hc' with hr | ⟨rfl, he⟩
  · by_cases hcc : c' = c
    · subst hcc
      cases hs with
      | sched hc hi he => exact absurd hr (hc q)
      | @proc p i x s1 hc hi he =>
        cases hr.symm.trans hc
        have hw : ∀ ch, s.pc q ≠ .wakeSet ch q := by
          intro ch hp
          have hst := h.status hr
          rw [hp, (h.wake hr hp).1] at hst
          cases hst
        have hi' : ∀ q, i ≠ .sched q := by
          rintro q rfl
          cases he
          simp at hc'
        rw [goTo_pc_self, goTo_state]
        exact hi.state_eq he hi' (h.status hr) hw
    · rw [h.state_of_ne hs hcc hr, hs.local.pc fun hq => hcc (h.one hr hq)]
      exact h.status hr
  · obtain ⟨hst, hn⟩ := h.enter he
    have hpc : s'.pc q = s.pc q := hs.local.pc (hn c')
    rw [hpc, ProcPc.status_parked (h.parked hn), ← hst]
    by_contra hw
    rcases hs.writes hw with ⟨hr, -⟩ | ⟨hr, -⟩ | ⟨p, ch, hr, -⟩
    · exact hn _ hr
    · simp [he] at hr
    · simp [he] at hr

lemma SchedInv.step_chosen {i : Nat} (hc' : s'.cpu c' = .chosen i) : s'.state i = .runnable := by
  by_cases hcc : c' = c
  · subst hcc
    cases hs with
    | @sched a x s1 hc hi he =>
      rw [setCpu_cpu_self] at hc'
      subst hc'
      generalize s.cpu c' = y at hi
      cases y <;> simp only [cpuCode] at hi <;> (try split_ifs at hi) <;> cases hi
      cases he
      assumption
    | @proc p a x s1 hc hi he =>
      cases he with
      | sched => simp at hc'
      | _ => exact absurd (hc.symm.trans hc') CpuPc.noConfusion
  · rw [hs.local.cpu hcc] at hc'
    rw [hs.local.state (h.notMem_held hcc (by simp [SchedSys.held, CpuPc.locks, hc']))]
    exact h.chosen hc'

lemma SchedInv.step_enter {i : Nat} (hc' : s'.cpu c' = .enter i) :
    s'.state i = .running ∧ ∀ d, s'.cpu d ≠ .runs i := by
  by_cases hcc : c' = c
  · subst hcc
    have hch : s.cpu c' = .chosen i ∧ s'.state i = .running := by
      cases hs with
      | @sched a x s1 hc hi he =>
        rw [setCpu_cpu_self] at hc'
        subst hc'
        generalize s.cpu c' = y at hi
        cases y <;> simp only [cpuCode] at hi <;> (try split_ifs at hi) <;> cases hi
        cases he
        exact ⟨rfl, update_self ..⟩
      | @proc p a x s1 hc hi he =>
        cases he with
        | sched => simp at hc'
        | _ => exact absurd (hc.symm.trans hc') CpuPc.noConfusion
    obtain ⟨hch, hst⟩ := hch
    refine ⟨hst, fun d hd => ?_⟩
    rcases hs.runs hd with hd | ⟨rfl, he⟩
    · have hdc : d ≠ c' := by
        rintro rfl
        simp [hd] at hch
      -- a process on a cpu has another state than `RUNNABLE` unless it has its own lock
      have hl : .proc i ∉ (s.pc i).locks i := fun hl =>
        h.notMem_held hdc ((mem_held hd).mpr hl) (by simp [SchedSys.held, CpuPc.locks, hch])
      simpa [h.chosen hch, ProcPc.status_eq hl] using h.status hd
    · simp [he] at hch
  · rw [hs.local.cpu hcc] at hc'
    have hl : .proc i ∈ s.held c' := by simp [SchedSys.held, CpuPc.locks, hc']
    refine ⟨?_, fun d hd => ?_⟩
    · rw [hs.local.state (h.notMem_held hcc hl)]
      exact (h.enter hc').1
    · rcases hs.runs hd with hd | ⟨rfl, he⟩
      · exact (h.enter hc').2 d hd
      · exact h.notMem_held hcc hl (by simp [SchedSys.held, CpuPc.locks, he])

lemma SchedInv.step_wake {ch i : Nat} (hc' : s'.cpu c' = .runs p) (hp : s'.pc p = .wakeSet ch i) :
    s'.state i = .sleeping ∧ s'.chan i = ch := by
  rcases hs.runs hc' with hr | ⟨rfl, he⟩
  · by_cases hcc : c' = c
    · subst hcc
      cases hs with
      | sched hc => exact absurd hr (hc p)
      | @proc q a x s1 hc hi he =>
        cases hr.symm.trans hc
        rw [goTo_pc_self] at hp
        subst hp
        cases hi with
        | code hi =>
          generalize s.pc p = y at hi
          cases y with
          | yieldUnlock b => cases b <;> cases hi
          | _ =>
            simp only [procCode] at hi
            try split_ifs at hi
            all_goals cases hi
            all_goals cases he
            all_goals assumption
    · rw [hs.local.pc fun hq => hcc (h.one hr hq)] at hp
      have hl : .proc i ∉ s.held c := h.notMem_held hcc (by simp [mem_held hr, ProcPc.locks, hp])
      rw [hs.local.state hl, hs.local.chan (.inr hl)]
      exact h.wake hr hp
  · have hn := (h.enter he).2
    rw [hs.local.pc (hn c')] at hp
    simpa [hp, ProcPc.parked] using h.parked hn

lemma SchedInv.step_parked (hp : ∀ d, s'.cpu d ≠ .runs p) : (s'.pc p).parked = true := by
  by_cases hc : s.cpu c = .runs p
  · cases hs with
    | sched hc' => exact absurd hc (hc' p)
    | @proc q i x s1 hc' hi he =>
      cases hc.symm.trans hc'
      rw [goTo_pc_self]
      cases he with
      | sched => exact hi.sched.2.2
      | _ => exact absurd hc (hp c)
  · rw [hs.local.pc hc]
    refine h.parked fun d hd => ?_
    by_cases hdc : d = c
    · exact hc (hdc ▸ hd)
    · exact hp d ((hs.local.cpu hdc).trans hd)

lemma SchedInv.step_onChan {k : SleepCall} (hp : (s'.pc p).onChan = some k) : s'.chan p = k.chan := by
  by_cases hc : s.cpu c = .runs p
  · cases hs with
    | sched hc' => exact absurd hc (hc' p)
    | @proc q i x s1 hc' hi he =>
      cases hc.symm.trans hc'
      rw [goTo_pc_self] at hp
      cases hi with
      | code hi =>
        have hk := h.onChan (p := p) (k := k)
        generalize s.pc p = y at hi hk
        cases y with
        | yieldUnlock b => cases b <;> cases hi <;> cases hp
        | _ =>
          simp only [procCode] at hi
          try split_ifs at hi
          all_goals cases hi
          all_goals cases hp
          all_goals cases he
          all_goals first | exact update_self .. | exact hk rfl
      | _ => cases hp
  · rw [hs.local.pc hc] at hp
    rw [hs.local.chan (.inl hc)]
    exact h.onChan hp

lemma SchedInv.step_index {i : Nat} (hi : (s'.cpu c').index = some i) : i < n := by
  by_cases hcc : c' = c
  · subst hcc
    cases hs with
    | @sched a x s1 hc hx he =>
      rw [setCpu_cpu_self] at hi
      have hn := h.index (c := c') (i := i)
      generalize s.cpu c' = y at hx hn
      cases y <;> simp only [cpuCode] at hx <;> (try split_ifs at hx) <;> cases hx <;> cases hi
      · assumption
      all_goals exact hn rfl
    | @proc p a x s1 hc hx he =>
      cases he with
      | sched => simp [CpuPc.index] at hi
      | _ => exact h.index hi
  · rw [hs.local.cpu hcc] at hi
    exact h.index hi

/-- Each instruction keeps what the locks guarantee. -/
lemma SchedInv.step : SchedInv n s' :=
  ⟨h.step_held hs, h.step_one hs, h.step_status hs, h.step_chosen hs, h.step_enter hs,
    h.step_wake hs, h.step_parked hs, h.step_onChan hs, h.step_index hs⟩

end

lemma SchedSys.Boot.inv (h : s.Boot) : SchedInv n s := by
  have hr : ∀ {c x}, s.cpu c = x → x = .scan 0 := fun hc => hc.symm.trans (h.cpu _)
  refine ⟨fun hl => ?_, fun hc => ?_, fun hc => ?_, fun hc => ?_, fun hc => ?_,
    fun hc => ?_, fun _ => ?_, fun hp => ?_, fun hi => ?_⟩
  · simp [SchedSys.held, h.cpu, CpuPc.locks] at hl
  · cases hr hc
  · cases hr hc
  · cases hr hc
  · cases hr hc
  · cases hr hc
  · rw [h.pc]
    rfl
  · simp [h.pc, ProcPc.onChan] at hp
  · simp [h.cpu, CpuPc.index] at hi

end

end Xv6
