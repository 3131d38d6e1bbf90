import Xv6.ConsoleModel
import Xv6.PipeModel
import Xv6.SchedModel

/-! `kill` and a victim in one of the loops that wait: `piperead`, `pipewrite`,
`consoleread`, `wait` and `sys_sleep`. One step is one critical section of the victim's
`p->lock`, or what the victim does under the lock of its loop between two of them. The
other processes do as they like with the data when the victim does not have that lock. -/

namespace Xv6

/-- What the loops look at. `kid i` says whether the slot `i` holds a child of the victim,
and whether that is a zombie. -/
structure BlockData where
  pipe : Pipe
  consBuf : Nat → UInt8
  consR : UInt32
  consW : UInt32
  kid : Nat → Option Bool
  ticks : UInt32

/-- A call and its local variables. -/
inductive BlockCall where
  | piperead (n : Int)
  | pipewrite (n : Int) (i : Nat)
  | consoleread (target n : Int)
  | wait (i : Nat) (havekids : Bool)
  | sleep (n : UInt32) (ticks0 : Option UInt32)

/-- Where the victim is. Before `acquire(lk)`, at the head of the loop, before `killed()`,
behind it, before `sleep`, in `sched`. -/
inductive BlockPc where
  | out
  | enter (c : BlockCall)
  | loop (c : BlockCall)
  | test (c : BlockCall)
  | body (c : BlockCall)
  | doze (c : BlockCall)
  | asleep (c : BlockCall)

def BlockPc.holds : BlockPc → Bool
  | .loop _ | .test _ | .body _ | .doze _ => true
  | _ => false

structure BlockSys where
  state : ProcState
  killed : Bool
  pc : BlockPc
  data : BlockData

/-- The steps of the process and of the others. -/
inductive BlockAct where
  | call (c : BlockCall)
  /-- The victim goes on; `ok i` says whether the copy of byte `i` to or from user memory
  succeeds, `ch` is the byte that comes from there. -/
  | go (ok : Nat → Bool) (ch : UInt8)
  | other (d : BlockData)
  | wakeup
  | run
  | yield
  | kill

def pipeDrain (ok : Nat → Bool) (i : Nat) : Nat → Pipe → Pipe
  | 0, pi => pi
  | k + 1, pi =>
    if pi.isEmpty then pi else if ok i then pipeDrain ok (i + 1) k pi.remove.2 else pi.remove.2

def consTake (d : BlockData) (target n : Int) (ok : Bool) : BlockData × Option Int :=
  let ch := d.consBuf (d.consR.toNat % inputBufSize)
  let d' := { d with consR := d.consR + 1 }
  if ch = ctrlD then (if n < target then d else d', none)
  else if ok = false then (d', none)
  else if ch = newline then (d', none)
  else (d', some (n - 1))

namespace BlockSys

def goTo (s : BlockSys) (x : BlockPc) : BlockSys := { s with pc := x }

def setData (s : BlockSys) (d : BlockData) : BlockSys := { s with data := d }

end BlockSys

/-- `acquire(lk)` at the start of a call and at the end of `sleep`; `wait` scans again. -/
def enterCall (d : BlockData) : BlockCall → BlockCall
  | .wait _ _ => .wait 0 false
  | .sleep n ticks0 => .sleep n (some (ticks0.getD d.ticks))
  | c => c

def loopStep (nproc : Nat) (s : BlockSys) (ok : Nat → Bool) : BlockCall → BlockSys
  | .piperead n =>
    if s.data.pipe.isEmpty ∧ s.data.pipe.writeopen then s.goTo (.test (.piperead n))
    else (s.setData { s.data with pipe := pipeDrain ok 0 n.toNat s.data.pipe }).goTo .out
  | .pipewrite n i =>
    if (i : Int) < n then
      if s.data.pipe.readopen = false then s.goTo .out else s.goTo (.test (.pipewrite n i))
    else s.goTo .out
  | .consoleread target n =>
    if n > 0 then
      if s.data.consR = s.data.consW then s.goTo (.test (.consoleread target n))
      else
        match consTake s.data target n (ok 0) with
        | (d, some n') => (s.setData d).goTo (.loop (.consoleread target n'))
        | (d, none) => (s.setData d).goTo .out
    else s.goTo .out
  | .wait i havekids =>
    if i < nproc then
      match s.data.kid i with
      | none => s.goTo (.loop (.wait (i + 1) havekids))
      | some false => s.goTo (.loop (.wait (i + 1) true))
      | some true =>
        if ok 0 then (s.setData { s.data with kid := Function.update s.data.kid i none }).goTo .out
          else s.goTo .out
    else if havekids = false then s.goTo .out
    else s.goTo (.test (.wait i havekids))
  | .sleep n ticks0 =>
    if s.data.ticks - ticks0.getD s.data.ticks < n then s.goTo (.test (.sleep n ticks0))
      else s.goTo .out

def bodyStep (s : BlockSys) (ok : Nat → Bool) (ch : UInt8) : BlockCall → BlockSys
  | .pipewrite n i =>
    if s.data.pipe.isFull then s.goTo (.doze (.pipewrite n i))
    else if ok 0 then (s.setData { s.data with pipe := s.data.pipe.insert ch }).goTo
      (.loop (.pipewrite n (i + 1)))
    else s.goTo .out
  | c => s.goTo (.doze c)

def goBlock (nproc : Nat) (s : BlockSys) (ok : Nat → Bool) (ch : UInt8) : Option BlockSys :=
  match s.pc with
  | .enter c => some (s.goTo (.loop (enterCall s.data c)))
  | .loop c => some (loopStep nproc s ok c)
  | .test c => some (if s.killed then s.goTo .out else s.goTo (.body c))
  | .body c => some (bodyStep s ok ch c)
  | .doze c => some { s.goTo (.asleep c) with state := .sleeping }
  | .out | .asleep _ => none

def runBlock (s : BlockSys) : BlockSys :=
  match s.pc with
  | .asleep c => { s.goTo (.enter c) with state := .running }
  | _ => { s with state := .running }

def BlockSys.step (nproc : Nat) (s : BlockSys) : BlockAct → Option BlockSys
  | .call c =>
    match s.state, s.pc with
    | .running, .out => some (s.goTo (.enter c))
    | _, _ => none
  | .go ok ch => if s.state = .running then goBlock nproc s ok ch else none
  | .other d => if s.pc.holds = false then some (s.setData d) else none
  | .wakeup => some (if s.state = .sleeping then { s with state := .runnable } else s)
  | .run => if s.state = .runnable then some (runBlock s) else none
  | .yield =>
    if s.state = .running ∧ s.pc.holds = false then some { s with state := .runnable } else none
  | .kill => some { s with
      killed := true
      state := if s.state = .sleeping then .runnable else s.state }

def blockMachine (nproc : Nat) : Machine BlockSys BlockAct Unit where
  init s := s.pc = .out ∧ s.state ≠ .sleeping
  step s a := (s.step nproc a).map fun s' => (s', [])

/-- The process has made its test and will sleep. -/
def BlockSys.Committed (s : BlockSys) : Prop :=
  match s.pc with
  | .doze _ => True
  | .body (.pipewrite _ _) => s.data.pipe.isFull = true
  | .body _ => True
  | _ => False

def NotTooLate (s : BlockSys) (a : BlockAct) : Prop := a = .kill → ¬ s.Committed

structure BlockInv (s : BlockSys) : Prop where
  asleep : s.state = .sleeping → s.killed = false
  committed : s.Committed → s.killed = false

section

variable {nproc : Nat} {s s' : BlockSys} {ok : Nat → Bool} {ch : UInt8} {c : BlockCall}

lemma Committed.holds (h : s.Committed) : s.pc.holds = true := by
  unfold BlockSys.Committed at h
  generalize s.pc = x at h
  cases x with
  | doze c => rfl
  | body c => rfl
  | _ => cases h

lemma loopStep_spec (nproc : Nat) (s : BlockSys) (ok : Nat → Bool) (c : BlockCall) :
    (loopStep nproc s ok c).state = s.state ∧ (loopStep nproc s ok c).killed = s.killed ∧
    ¬ (loopStep nproc s ok c).Committed := by
  cases c with
  | piperead n =>
    simp only [loopStep]
    split_ifs
    · exact ⟨rfl, rfl, id⟩
    · exact ⟨rfl, rfl, id⟩
  | pipewrite n i =>
    simp only [loopStep]
    split_ifs
    · exact ⟨rfl, rfl, id⟩
    · exact ⟨rfl, rfl, id⟩
    · exact ⟨rfl, rfl, id⟩
  | consoleread target n =>
    simp only [loopStep]
    split_ifs
    · exact ⟨rfl, rfl, id⟩
    · split
      · exact ⟨rfl, rfl, id⟩
      · exact ⟨rfl, rfl, id⟩
    · exact ⟨rfl, rfl, id⟩
  | wait i havekids =>
    simp only [loopStep]
    by_cases hi : i < nproc
    · rw [if_pos hi]
      split
      · exact ⟨rfl, rfl, id⟩
      · exact ⟨rfl, rfl, id⟩
      · split_ifs
        · exact ⟨rfl, rfl, id⟩
        · exact ⟨rfl, rfl, id⟩
    · rw [if_neg hi]
      split_ifs
      · exact ⟨rfl, rfl, id⟩
      · exact ⟨rfl, rfl, id⟩
  | sleep n ticks0 =>
    simp only [loopStep]
    split_ifs
    · exact ⟨rfl, rfl, id⟩
    · exact ⟨rfl, rfl, id⟩

lemma bodyStep_spec (ok : Nat → Bool) (ch : UInt8) (hp : s.pc = .body c) :
    (bodyStep s ok ch c).state = s.state ∧
    (bodyStep s ok ch c).killed = s.killed ∧ ((bodyStep s ok ch c).Committed → s.Committed) := by
  cases c with
  | pipewrite n i =>
    simp only [bodyStep]
    split_ifs with hfull
    · refine ⟨rfl, rfl, fun _ => ?_⟩
      unfold BlockSys.Committed
      rw [hp]
      exact hfull
    · exact ⟨rfl, rfl, False.elim⟩
    · exact ⟨rfl, rfl, False.elim⟩
  | _ =>
    refine ⟨rfl, rfl, fun _ => ?_⟩
    unfold BlockSys.Committed
    rw [hp]
    trivial

lemma BlockInv.go (h : BlockInv s) (hr : s.state = .running)
    (hs : goBlock nproc s ok ch = some s') : BlockInv s' := by
  have hawake : s.state ≠ .sleeping := by simp [hr]
  unfold goBlock at hs
  split at hs
  next c hp =>
    cases hs
    exact ⟨fun hst => absurd hst hawake, False.elim⟩
  next c hp =>
    cases hs
    obtain ⟨hst, -, hc⟩ := loopStep_spec nproc s ok c
    exact ⟨fun hh => absurd (hst.symm.trans hh) hawake, fun hh => absurd hh hc⟩
  next c hp =>
    cases hs
    split_ifs with hk
    · exact ⟨fun hst => absurd hst hawake, False.elim⟩
    · have hk' : s.killed = false := by simpa using hk
      exact ⟨fun _ => hk', fun _ => hk'⟩
  next c hp =>
    cases hs
    obtain ⟨hst, hkill, hc⟩ := bodyStep_spec ok ch hp
    exact ⟨fun hh => absurd (hst.symm.trans hh) hawake, fun hh => hkill.trans (h.committed (hc hh))⟩
  next c hp =>
    cases hs
    have hk : s.killed = false := h.committed (by unfold BlockSys.Committed; rw [hp]; trivial)
    exact ⟨fun _ => hk, fun _ => hk⟩
  next => cases hs
  next => cases hs

lemma BlockInv.step (h : BlockInv s) {a : BlockAct} (hok : NotTooLate s a)
    (hs : s.step nproc a = some s') : BlockInv s' := by
  cases a with
  | call c =>
    simp only [BlockSys.step] at hs
    split at hs
    next hst hp =>
      cases hs
      exact ⟨fun hh => h.asleep hh, False.elim⟩
    next => cases hs
  | go ok ch =>
    simp only [BlockSys.step] at hs
    split_ifs at hs with hr
    exact h.go hr hs
  | other d =>
    simp only [BlockSys.step] at hs
    split_ifs at hs with hh
    cases hs
    refine ⟨h.asleep, fun hc => absurd (Committed.holds hc) ?_⟩
    change s.pc.holds ≠ true
    simp [hh]
  | wakeup =>
    simp only [BlockSys.step] at hs
    cases hs
    split_ifs
    · exact ⟨fun hh => (by cases hh), h.committed⟩
    · exact h
  | run =>
    simp only [BlockSys.step] at hs
    split_ifs at hs
    cases hs
    unfold runBlock
    split
    · exact ⟨fun hh => (by cases hh), False.elim⟩
    · exact ⟨fun hh => (by cases hh), h.committed⟩
  | yield =>
    simp only [BlockSys.step] at hs
    split_ifs at hs
    cases hs
    exact ⟨fun hh => (by cases hh), h.committed⟩
  | kill =>
    simp only [BlockSys.step] at hs
    cases hs
    refine ⟨fun hh => ?_, fun hc => absurd hc (hok rfl)⟩
    simp only at hh
    split_ifs at hh with hst
    exact absurd hh hst

end

/-- No `kill` between a `killed()` and the sleep behind it: then nobody sleeps killed. -/
theorem kill_not_missed {nproc : Nat} {s : BlockSys} {hist : List Unit}
    (h : (blockMachine nproc).Reach NotTooLate s hist) : ¬ (s.state = .sleeping ∧ s.killed = true) := by
  have hi : BlockInv s := by
    refine h.invariant (I := fun s _ => BlockInv s) (fun s hs => ?_) ?_
    · obtain ⟨hp, hst⟩ := hs
      refine ⟨fun hh => absurd hh hst, fun hc => absurd (Committed.holds hc) ?_⟩
      rw [hp]
      simp [BlockPc.holds]
    · intro s s' _ _ a _ hi hok hs
      obtain ⟨s1, hs', he⟩ := Option.map_eq_some_iff.mp hs
      cases he
      exact hi.step hok hs'
  rintro ⟨hst, hk⟩
  rw [hi.asleep hst] at hk
  cases hk

def quietData : BlockData where
  pipe := { data := fun _ => 0, nread := 0, nwrite := 0, readopen := true, writeopen := true }
  consBuf := fun _ => 0
  consR := 0
  consW := 0
  kid := fun _ => none
  ticks := 0

def idleVictim : BlockSys := ⟨.running, false, .out, quietData⟩

theorem kill_not_missed_reader : ∃ s hist, (blockMachine 64).Reach NotTooLate s hist ∧
    s.pc = .asleep (.piperead 1) ∧ s.killed = true ∧ ¬ (s.state = .sleeping ∧ s.killed = true) := by
  have h0 : (blockMachine 64).Reach NotTooLate idleVictim [] := .init ⟨rfl, by decide⟩
  have h1 := h0.step (a := .call (.piperead 1)) nofun rfl
  have h2 := h1.step (a := .go (fun _ => true) 0) nofun rfl
  have h3 := h2.step (a := .go (fun _ => true) 0) nofun rfl
  have h4 := h3.step (a := .go (fun _ => true) 0) nofun rfl
  have h5 := h4.step (a := .go (fun _ => true) 0) nofun rfl
  have h6 := h5.step (a := .go (fun _ => true) 0) nofun rfl
  have h7 := h6.step (a := .kill) (fun _ => id) rfl
  exact ⟨_, _, h7, rfl, rfl, kill_not_missed h7⟩

/-- `kill` comes after the victim has found itself not killed in `piperead`, and before it
is `SLEEPING`. -/
theorem kill_missed : ∃ s hist, (blockMachine 64).Reach (fun _ _ => True) s hist ∧
    s.pc = .asleep (.piperead 1) ∧ s.state = .sleeping ∧ s.killed = true := by
  have h0 : (blockMachine 64).Reach (fun _ _ => True) idleVictim [] := .init ⟨rfl, by decide⟩
  have h1 := h0.step (a := .call (.piperead 1)) trivial rfl
  have h2 := h1.step (a := .go (fun _ => true) 0) trivial rfl
  have h3 := h2.step (a := .go (fun _ => true) 0) trivial rfl
  have h4 := h3.step (a := .go (fun _ => true) 0) trivial rfl
  have h5 := h4.step (a := .kill) trivial rfl
  have h6 := h5.step (a := .go (fun _ => true) 0) trivial rfl
  have h7 := h6.step (a := .go (fun _ => true) 0) trivial rfl
  exact ⟨_, _, h7, rfl, rfl, rfl⟩

end Xv6
