import Xv6.Lib.Machine

/-! `sys_sleep` (`sysproc.c`) by any number of processes against `clockintr` (`trap.c`), with the
critical sections of `sleep` and `wakeup` (`proc.c`) that they make. An observer counts the ticks. -/

namespace Xv6

open Function (update forall_update_iff)

/-- One call: the argument as a 32-bit word, `ticks0`, and the number of ticks at that time. -/
structure TickCall where
  n : BitVec 32
  ticks0 : BitVec 32
  since : Nat

/-- `start`: before `acquire(&tickslock)`. `check`: at the test of the loop. `into`: the process is
not killed and calls `sleep`. `doze`: it has `p->lock` and has released `tickslock`. -/
inductive TickPc where
  | idle | start (n : BitVec 32)
  | check (c : TickCall) | into (c : TickCall) | doze (c : TickCall) | asleep (c : TickCall) | woken
      (c : TickCall)

def TickPc.sleeps : TickPc → Bool
  | .doze _ | .asleep _ => true
  | _ => false

/-- `tickslock`; `clockintr` has it with `wakeup` at the slot `i`, and has interrupted the process
`me`. -/
inductive TickLock where
  | free | proc (p : Nat) | clock (me : Option Nat) (i : Nat)
  deriving DecidableEq

structure TickSys where
  ticks : BitVec 32
  count : Nat
  lock : TickLock
  pc : Nat → TickPc

/-- `killed` is what the function of that name returns if it is called. -/
inductive TickAct where
  | call (p : Nat) (n : BitVec 32)
  | go (p : Nat) (killed : Bool)
  | tick (me : Option Nat) | wakeup
  | kill (p : Nat)

/-- A call returns `r` when `elapsed` ticks have come since it read `ticks0`. -/
inductive TickEvent where
  | returned (n : BitVec 32) (elapsed : Nat) (r : Int)

namespace TickSys

def put (s : TickSys) (l : TickLock) (p : Nat) (x : TickPc) : TickSys :=
  { s with lock := l, pc := update s.pc p x }

def leave (s : TickSys) (p : Nat) (c : TickCall) (r : Int) : TickSys × List TickEvent :=
  (s.put .free p .idle, [.returned c.n (s.count - c.since) r])

def go (s : TickSys) (p : Nat) (killed : Bool) : Option (TickSys × List TickEvent) :=
  match s.pc p with
  | .start n =>
    if s.lock = .free then some (s.put (.proc p) p (.check ⟨n, s.ticks, s.count⟩), []) else none
  | .check c =>
    if s.ticks - c.ticks0 < c.n then
      if killed then some (s.leave p c (-1)) else some (s.put s.lock p (.into c), [])
    else some (s.leave p c 0)
  | .into c => some (s.put .free p (.doze c), [])
  | .doze c => some (s.put s.lock p (.asleep c), [])
  | .woken c => if s.lock = .free then some (s.put (.proc p) p (.check c), []) else none
  | .idle | .asleep _ => none

/-- One round of the loop of `wakeup`, or its end; a dozing process has its `p->lock`. -/
def wakeup (nproc : Nat) (s : TickSys) : Option TickSys :=
  match s.lock with
  | .clock me i =>
    if nproc ≤ i then some { s with lock := .free }
    else if me = some i then some { s with lock := .clock me (i + 1) }
    else match s.pc i with
      | .doze _ => none
      | .asleep c => some (s.put (.clock me (i + 1)) i (.woken c))
      | _ => some { s with lock := .clock me (i + 1) }
  | _ => none

def interruptible (s : TickSys) (p : Nat) : Bool :=
  match s.pc p with
  | .idle | .start _ | .woken _ => true
  | _ => false

def step (nproc : Nat) (s : TickSys) : TickAct → Option (TickSys × List TickEvent)
  | .call p n =>
    match s.pc p with
    | .idle => some (s.put s.lock p (.start n), [])
    | _ => none
  | .go p killed => if p < nproc then s.go p killed else none
  | .tick me =>
    if s.lock = .free ∧ me.all s.interruptible then
      some ({ s with ticks := s.ticks + 1, count := s.count + 1, lock := .clock me 0 }, [])
    else none
  | .wakeup => (s.wakeup nproc).map (·, [])
  | .kill p =>
    match s.pc p with
    | .asleep c => some (s.put s.lock p (.woken c), [])
    | _ => none

def Boot (s : TickSys) : Prop := s.count = 0 ∧ s.lock = .free ∧ ∀ p, s.pc p = .idle

/-- Fewer ticks have passed than the call asks for. -/
def Early (s : TickSys) (c : TickCall) : Prop := ((s.count - c.since : Nat) : Int) < max c.n.toInt 0

def InRange (s : TickSys) : TickAct → Prop
  | .go p _ => ∀ c, s.pc p = .check c → 0 ≤ c.n.toInt ∧ s.count - c.since < 2 ^ 32
  | _ => True

/-- What the clock says about the start of the call. -/
def Since (s : TickSys) (c : TickCall) : Prop :=
  c.since ≤ s.count ∧ s.ticks - c.ticks0 = .ofNat 32 (s.count - c.since)

def Ahead (s : TickSys) (p : Nat) : Prop := ∃ me i, s.lock = .clock me i ∧ i ≤ p ∧ me ≠ some p

def PcOk (nproc : Nat) (good : Prop) (s : TickSys) (p : Nat) : TickPc → Prop
  | .idle | .start _ => True
  | .check c => s.lock = .proc p ∧ s.Since c
  | .into c => s.lock = .proc p ∧ s.Since c ∧ (good → s.Early c)
  | .doze c | .asleep c => s.Since c ∧ p < nproc ∧ (good → s.Early c ∨ s.Ahead p)
  | .woken c => s.Since c

end TickSys

def tickMachine (nproc : Nat) : Machine TickSys TickAct TickEvent := ⟨TickSys.Boot, TickSys.step nproc⟩

section

variable {nproc p q : Nat} {good : Prop} {s s' : TickSys} {x : TickPc} {l : TickLock} {c : TickCall}
  {out : List TickEvent}

open TickSys

/-- A process without the lock does not see who takes it next. -/
lemma TickSys.PcOk.relock (h : s.PcOk nproc good q x) (hl : s.lock = .free ∨ s.lock = .proc p)
    (hq : q ≠ p) : ({ s with lock := l, pc := f } : TickSys).PcOk nproc good q x := by
  have hnot : s.lock ≠ .proc q ∧ ¬ s.Ahead q := by
    rcases hl with hl | hl <;> simp [Ahead, hl, Ne.symm hq]
  cases x with
  | idle | start _ => trivial
  | check c => exact absurd h.1 hnot.1
  | into c => exact absurd h.1 hnot.1
  | doze c | asleep c => exact ⟨h.1, h.2.1, fun hg => .inl ((h.2.2 hg).resolve_right hnot.2)⟩
  | woken c => exact h

lemma TickSys.put_ok (h : ∀ q, s.PcOk nproc good q (s.pc q))
    (hl : s.lock = .free ∨ s.lock = .proc p ∨ s.lock = l) (hx : (s.put l p x).PcOk nproc good p x) :
    ∀ q, (s.put l p x).PcOk nproc good q ((s.put l p x).pc q) := by
  refine forall_update_iff s.pc (p := fun q y => (s.put l p x).PcOk nproc good q y) |>.mpr ⟨hx,
    fun q hq => ?_⟩
  rcases hl with hl | hl | hl
  · exact (h q).relock (p := p) (.inl hl) hq
  · exact (h q).relock (.inr hl) hq
  · subst hl
    exact h q

lemma TickSys.Since.early (h : s.Since c) (hn : 0 ≤ c.n.toInt) (hlt : s.count - c.since < 2 ^ 32)
    (ht : s.ticks - c.ticks0 < c.n) : s.Early c := by
  rw [h.2, BitVec.lt_def, BitVec.toNat_ofNat, Nat.mod_eq_of_lt hlt] at ht
  have hcond := BitVec.toInt_eq_toNat_cond c.n
  unfold Early
  split at hcond <;> omega

def TickEvent.Waited : TickEvent → Prop
  | .returned n elapsed r => r = 0 → max n.toInt 0 ≤ elapsed

lemma TickSys.go_ok {killed : Bool} (h : ∀ q, s.PcOk nproc good q (s.pc q)) (hp : p < nproc)
    (hok : good → s.InRange (.go p killed)) (hs : s.go p killed = some (s', out)) :
    (∀ q, s'.PcOk nproc good q (s'.pc q)) ∧ ∀ e ∈ out, e.Waited := by
  have hpc := h p
  unfold go at hs
  split at hs
  next n hx =>
    split at hs <;> cases hs
    exact ⟨put_ok h (.inl ‹_›) ⟨rfl, Nat.le_refl _, by simp [put]⟩, nofun⟩
  next c hx =>
    rw [hx] at hpc
    obtain ⟨hl, hsince⟩ := hpc
    split at hs
    · next hlt =>
      split at hs <;> cases hs
      · exact ⟨put_ok h (.inr (.inl hl)) trivial,
          fun e he => by cases List.mem_singleton.mp he; exact nofun⟩
      · exact ⟨put_ok h (.inr (.inr rfl)) ⟨hl, hsince,
          fun hg => hsince.early (hok hg c hx).1 (hok hg c hx).2 hlt⟩, nofun⟩
    · next hge =>
      cases hs
      refine ⟨put_ok h (.inr (.inl hl)) trivial, fun e he => ?_⟩
      cases List.mem_singleton.mp he
      intro _
      rw [hsince.2, BitVec.lt_def, BitVec.toNat_ofNat] at hge
      have hmod := Nat.mod_le (s.count - c.since) (2 ^ 32)
      have hcond := BitVec.toInt_eq_toNat_cond c.n
      split at hcond <;> omega
  next c hx =>
    cases hs
    rw [hx] at hpc
    exact ⟨put_ok h (.inr (.inl hpc.1)) ⟨hpc.2.1, hp, fun hg => .inl (hpc.2.2 hg)⟩, nofun⟩
  next c hx =>
    cases hs
    rw [hx] at hpc
    exact ⟨put_ok h (.inr (.inr rfl)) hpc, nofun⟩
  next c hx =>
    rw [hx] at hpc
    split at hs <;> cases hs
    exact ⟨put_ok h (.inl ‹_›) ⟨rfl, hpc⟩, nofun⟩
  next => cases hs
  next => cases hs

lemma TickSys.Since.tick (h : s.Since c) :
    ({ s with ticks := s.ticks + 1, count := s.count + 1, lock := l } : TickSys).Since c := by
  obtain ⟨hle, ht⟩ := h
  refine ⟨Nat.le_succ_of_le hle, ?_⟩
  have hsub : s.ticks + 1 - c.ticks0 = s.ticks - c.ticks0 + 1 := by bv_omega
  have hcount : s.count + 1 - c.since = s.count - c.since + 1 := Nat.succ_sub hle
  simp only [hsub, ht, hcount, BitVec.ofNat_add]
  rfl

variable {me : Option Nat}

lemma TickSys.tick_ok (h : ∀ q, s.PcOk nproc good q (s.pc q)) (hl : s.lock = .free)
    (hme : me.all s.interruptible = true) (q : Nat) :
    ({ s with ticks := s.ticks + 1, count := s.count + 1, lock := .clock me 0 } : TickSys).PcOk
    nproc good q (s.pc q) := by
  have hq := h q
  have hint (hd : s.interruptible q = false) : me ≠ some q := by
    rintro rfl
    simp [hd] at hme
  unfold interruptible at hint
  cases hx : s.pc q with
  | idle | start _ => trivial
  | check c | into c =>
    rw [hx, PcOk, hl] at hq
    cases hq.1
  | doze c | asleep c =>
    rw [hx] at hq hint
    exact ⟨hq.1.tick, hq.2.1, fun _ => .inr ⟨me, 0, rfl, Nat.zero_le q, hint rfl⟩⟩
  | woken c =>
    rw [hx] at hq
    exact TickSys.Since.tick hq

/-- `wakeup` gets past the slot `i`, where nobody sleeps. -/
lemma TickSys.PcOk.pass {i : Nat} (h : s.PcOk nproc good q x) (hl : s.lock = .clock me i)
    (hl' : l = .clock me (i + 1) ∧ (q = i → me = some i ∨ x.sleeps = false) ∨ l = .free ∧ nproc ≤ i) :
    ({ s with lock := l, pc := f } : TickSys).PcOk nproc good q x := by
  have hahead (hlt : q < nproc) (hx : x.sleeps = true) :
    s.Ahead q → ({ s with lock := l, pc := f } : TickSys).Ahead q := by
    rintro ⟨me', i', he, hle, hne⟩
    cases hl.symm.trans he
    rcases hl' with ⟨rfl, hi⟩ | ⟨-, hend⟩
    · refine ⟨me, i + 1, rfl, Nat.lt_of_le_of_ne hle fun hqi => ?_, hne⟩
      rcases hi hqi.symm with hm | hx'
      · exact hne (hqi ▸ hm)
      · rw [hx] at hx'
        cases hx'
    · omega
  cases x with
  | idle | start _ => trivial
  | check c | into c => cases hl.symm.trans h.1
  | doze c | asleep c => exact ⟨h.1, h.2.1, fun hg => (h.2.2 hg).imp_right (hahead h.2.1 rfl)⟩
  | woken c => exact h

lemma TickSys.wakeup_ok (h : ∀ q, s.PcOk nproc good q (s.pc q)) (hs : s.wakeup nproc = some s') :
    ∀ q, s'.PcOk nproc good q (s'.pc q) := by
  unfold TickSys.wakeup at hs
  split at hs
  next me i hl =>
    split at hs
    · cases hs
      exact fun q => (h q).pass hl (.inr ⟨rfl, ‹_›⟩)
    · split at hs
      · cases hs
        exact fun q => (h q).pass hl (.inl ⟨rfl, fun _ => .inl ‹_›⟩)
      · split at hs <;> cases hs
        · next c hx =>
          have hc := h i
          rw [hx] at hc
          exact forall_update_iff s.pc (p := fun q y =>
            (s.put (.clock me (i + 1)) i (.woken c)).PcOk nproc good q y) |>.mpr
            ⟨hc.1, fun q hq => (h q).pass hl (.inl ⟨rfl, fun e => absurd e hq⟩)⟩
        · refine fun q => (h q).pass hl (.inl ⟨rfl, ?_⟩)
          rintro rfl
          cases hx : s.pc q <;> simp_all [TickPc.sleeps]
  next => cases hs

lemma tick_inv (good : Prop) {ok : TickSys → TickAct → Prop} {hist : List TickEvent}
    (hok : good → ∀ s a, ok s a → s.InRange a) (h : (tickMachine nproc).Reach ok s hist) : (∀ q,
      s.PcOk nproc good q (s.pc q)) ∧ ∀ e ∈ hist, e.Waited := by
  refine h.invariant (I := fun s hist => (∀ q, s.PcOk nproc good q (s.pc q)) ∧ ∀ e ∈ hist,
    e.Waited) ?_ ?_
  · exact fun s h0 => ⟨fun q => by rw [h0.2.2 q]; trivial, nofun⟩
  intro s s' hist out a _ ih ha hs
  suffices hnew : (∀ q, s'.PcOk nproc good q (s'.pc q)) ∧ ∀ e ∈ out, e.Waited from
    ⟨hnew.1, fun e he => (List.mem_append.mp he).elim (ih.2 e) (hnew.2 e)⟩
  have hi := ih.1
  simp only [tickMachine, step] at hs
  split at hs
  next p n =>
    split at hs <;> cases hs
    exact ⟨put_ok hi (.inr (.inr rfl)) trivial, nofun⟩
  next p killed =>
    split at hs
    · exact go_ok hi ‹_› (fun hg => hok hg s _ ha) hs
    · cases hs
  next me =>
    split at hs <;> cases hs
    next hg => exact ⟨tick_ok hi hg.1 hg.2, nofun⟩
  next =>
    obtain ⟨s₁, h₁, he⟩ := Option.map_eq_some_iff.mp hs
    cases he
    exact ⟨wakeup_ok hi h₁, nofun⟩
  next p =>
    split at hs <;> cases hs
    next c hx =>
    have hp := hi p
    rw [hx] at hp
    exact ⟨put_ok hi (.inr (.inr rfl)) hp.1, nofun⟩

/-- A call returns 0 only after `max(n, 0)` ticks. In the runs that stay in range no process sleeps
longer than that while `tickslock` is free. -/
theorem sys_sleep_exact {ok : TickSys → TickAct → Prop} {hist : List TickEvent}
    (h : (tickMachine nproc).Reach ok s hist) :
    (∀ (n : BitVec 32) (elapsed : Nat), .returned n elapsed 0 ∈ hist → max n.toInt 0 ≤ elapsed) ∧
    ((∀ s a, ok s a → s.InRange a) → s.lock = .free → ∀ p c, s.pc p = .asleep c →
      ((s.count - c.since : Nat) : Int) < max c.n.toInt 0) := by
  refine ⟨fun n e he => (tick_inv False nofun h).2 _ he rfl, fun hok hl p c hp => ?_⟩
  have hpc := (tick_inv True (fun _ => hok) h).1 p
  rw [hp] at hpc
  refine (hpc.2.2 trivial).resolve_right ?_
  rintro ⟨me, i, he, -⟩
  cases hl.symm.trans he

end

theorem sys_sleep_exact_wrap : ∃ s, (tickMachine 1).Reach TickSys.InRange s [] ∧ s.lock = .free ∧
    s.pc 0 = .asleep ⟨2, BitVec.ofNat 32 (2 ^ 32 - 1), 0⟩ ∧
    ((s.count - 0 : Nat) : Int) < max (2 : BitVec 32).toInt 0 := by
  have h0 : (tickMachine 1).Reach TickSys.InRange ⟨BitVec.ofNat 32 (2 ^ 32 - 1), 0, .free,
    fun _ => .idle⟩ [] :=
    .init ⟨rfl, rfl, fun _ => rfl⟩
  have h1 := h0.step (a := .call 0 2) (by trivial) rfl
  have h2 := h1.step (a := .go 0 false) (by rintro _ ⟨⟩) rfl
  have h3 := h2.step (a := .go 0 false) (by rintro _ ⟨⟩; decide) rfl
  have h4 := h3.step (a := .go 0 false) (by rintro _ ⟨⟩) rfl
  have h5 := h4.step (a := .go 0 false) (by rintro _ ⟨⟩) rfl
  exact ⟨_, h5, rfl, rfl, (sys_sleep_exact h5).2 (fun _ _ => id) rfl 0 _ rfl⟩

/-- `sleep(-1)` has nothing to wait for, and sleeps. -/
theorem sys_sleep_negative : ∃ s, (tickMachine 1).Reach (fun _ _ => True) s [] ∧ s.lock = .free ∧
    s.pc 0 = .asleep ⟨-1, 0, 0⟩ ∧ ¬ ((s.count - 0 : Nat) : Int) < max (-1 : BitVec 32).toInt 0 := by
  have h0 : (tickMachine 1).Reach (fun _ _ => True) ⟨0, 0, .free, fun _ => .idle⟩ [] :=
    .init ⟨rfl, rfl, fun _ => rfl⟩
  have h1 := h0.step (a := .call 0 (-1)) trivial rfl
  have h2 := h1.step (a := .go 0 false) trivial rfl
  have h3 := h2.step (a := .go 0 false) trivial rfl
  have h4 := h3.step (a := .go 0 false) trivial rfl
  have h5 := h4.step (a := .go 0 false) trivial rfl
  exact ⟨_, h5, rfl, rfl, by decide⟩

end Xv6
