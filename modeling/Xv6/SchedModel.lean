import Xv6.Lib.Machine

/-! `proc.c`: `scheduler`, `sched`, `yield`, `sleep` and `wakeup`, on any number of cpus.
One step is one lock operation or one write of `p->state` or `p->chan`. A spin lock knows
the cpu that holds it, so `p->lock` passes from the scheduler to the process and back at
`swtch`. An observer numbers the calls of `sleep`. -/

namespace Xv6

open Function (update)

/-- The states of `enum procstate`. -/
inductive ProcState where
  | unused | used | sleeping | runnable | running | zombie
  deriving DecidableEq

/-- `p->lock`, or a lock that a caller of `sleep` hands over. -/
inductive SpinLock where
  | proc (p : Nat)
  | cond (lk : Nat)
  deriving DecidableEq

structure SleepCall where
  num : Nat
  chan : Nat
  lk : Nat

/-- The next thing that a process does. `yield` from a timer interrupt goes back to where
the interrupt came: `none` is outside `sleep`, `some k` before the last `acquire(lk)` of `k`. -/
inductive ProcPc where
  | code
  | forkret
  | sleepLock (k : SleepCall)
  | sleepRelease (k : SleepCall)
  | sleepChan (k : SleepCall)
  | sleepState (k : SleepCall)
  | sleepSched (k : SleepCall)
  | sleepTidy (k : SleepCall)
  | sleepUnlock (k : SleepCall)
  | sleepRelock (k : SleepCall)
  | yieldLock (b : Option SleepCall)
  | yieldState (b : Option SleepCall)
  | yieldSched (b : Option SleepCall)
  | yieldUnlock (b : Option SleepCall)
  | wakeLoop (chan i : Nat)
  | wakeLook (chan i : Nat)
  | wakeSet (chan i : Nat)
  | wakeUnlock (chan i : Nat)

/-- Where a cpu is in `scheduler`; at `runs p` it has switched to the process `p`. -/
inductive CpuPc where
  | scan (i : Nat)
  | look (i : Nat)
  | chosen (i : Nat)
  | enter (i : Nat)
  | runs (p : Nat)
  | drop (i : Nat)

/-- Processes, spin locks and cpus. -/
structure SchedSys where
  state : Nat → ProcState
  chan : Nat → Nat
  owner : SpinLock → Option Nat
  noff : Nat → Nat
  cpu : Nat → CpuPc
  pc : Nat → ProcPc
  /-- How many calls of `sleep` there were. -/
  calls : Nat
  /-- How many there were when the lock was last acquired. -/
  since : SpinLock → Nat

inductive SchedOp where
  | go
  | acquire (lk : Nat)
  | release (lk : Nat)
  | sleep (chan lk : Nat)
  | wakeup (chan : Nat)
  | timer

/-- A step of a cpu. -/
structure SchedAct where
  cpu : Nat
  op : SchedOp

namespace SchedSys

def setCpu (s : SchedSys) (c : Nat) (x : CpuPc) : SchedSys := { s with cpu := update s.cpu c x }

def setPc (s : SchedSys) (p : Nat) (x : ProcPc) : SchedSys := { s with pc := update s.pc p x }

def setState (s : SchedSys) (p : Nat) (x : ProcState) : SchedSys :=
  { s with state := update s.state p x }

def setChan (s : SchedSys) (p chan : Nat) : SchedSys := { s with chan := update s.chan p chan }

def take (s : SchedSys) (c : Nat) (l : SpinLock) : SchedSys :=
  { s with
    owner := update s.owner l (some c)
    noff := update s.noff c (s.noff c + 1)
    since := update s.since l s.calls }

def free (s : SchedSys) (c : Nat) (l : SpinLock) : SchedSys :=
  { s with
    owner := update s.owner l none
    noff := update s.noff c (s.noff c - 1) }

/-- One step of kernel code. -/
inductive Instr where
  | acquire (l : SpinLock)
  | release (l : SpinLock)
  | chan (p chan : Nat)
  | state (p : Nat) (x : ProcState)
  | sched (p : Nat)
  | skip

/-- The step on the cpu `c`. `acquire` spins while the lock is held; `release` panics unless
the cpu holds the lock; `sched` has its panics or switches to the scheduler. -/
def exec (s : SchedSys) (c : Nat) : Instr → Option SchedSys
  | .acquire l => if s.owner l = none then some (s.take c l) else none
  | .release l => if s.owner l = some c then some (s.free c l) else none
  | .chan p chan => some (s.setChan p chan)
  | .state p x => some (s.setState p x)
  | .sched p =>
    if s.owner (.proc p) = some c ∧ s.noff c = 1 ∧ s.state p ≠ .running then some (s.setCpu c (.drop p))
    else none
  | .skip => some s

end SchedSys

def ProcPc.interrupted : Option SleepCall → ProcPc
  | none => .code
  | some k => .sleepRelock k

open SchedSys

/-- What the process `p` does at a place of `forkret`, `sleep`, `yield` or `wakeup`, and where
it goes on. -/
def procCode (nproc : Nat) (s : SchedSys) (p : Nat) : ProcPc → Option (Instr × ProcPc)
  | .code => none
  | .forkret => some (.release (.proc p), .code)
  | .sleepLock k => some (.acquire (.proc p), .sleepRelease k)
  | .sleepRelease k => some (.release (.cond k.lk), .sleepChan k)
  | .sleepChan k => some (.chan p k.chan, .sleepState k)
  | .sleepState k => some (.state p .sleeping, .sleepSched k)
  | .sleepSched k => some (.sched p, .sleepTidy k)
  | .sleepTidy k => some (.chan p 0, .sleepUnlock k)
  | .sleepUnlock k => some (.release (.proc p), .sleepRelock k)
  | .sleepRelock k => some (.acquire (.cond k.lk), .code)
  | .yieldLock b => some (.acquire (.proc p), .yieldState b)
  | .yieldState b => some (.state p .runnable, .yieldSched b)
  | .yieldSched b => some (.sched p, .yieldUnlock b)
  | .yieldUnlock b => some (.release (.proc p), .interrupted b)
  | .wakeLoop chan i =>
    if i < nproc then
      if i = p then some (.skip, .wakeLoop chan (i + 1)) else some (.acquire (.proc i),
        .wakeLook chan i)
    else some (.skip, .code)
  | .wakeLook chan i =>
    if s.state i = .sleeping ∧ s.chan i = chan then some (.skip, .wakeSet chan i)
    else some (.skip, .wakeUnlock chan i)
  | .wakeSet chan i => some (.state i .runnable, .wakeUnlock chan i)
  | .wakeUnlock chan i => some (.release (.proc i), .wakeLoop chan (i + 1))

def cpuCode (nproc : Nat) (s : SchedSys) : CpuPc → Option (Instr × CpuPc)
  | .scan i => if i < nproc then some (.acquire (.proc i), .look i) else some (.skip, .scan 0)
  | .look i => if s.state i = .runnable then some (.skip, .chosen i) else some (.skip, .drop i)
  | .chosen i => some (.state i .running, .enter i)
  | .enter i => some (.skip, .runs i)
  | .runs _ => none
  | .drop i => some (.release (.proc i), .scan (i + 1))

/-- The next instruction of a process. -/
def runProc (nproc : Nat) (s : SchedSys) (c p : Nat) : Option SchedSys :=
  match procCode nproc s p (s.pc p) with
  | some (i, x) => (s.exec c i).map (·.setPc p x)
  | none => none

def runCpu (nproc : Nat) (s : SchedSys) (c : Nat) : Option SchedSys :=
  match s.cpu c with
  | .runs p => runProc nproc s c p
  | x =>
    match cpuCode nproc s x with
    | some (i, y) => (s.exec c i).map (·.setCpu c y)
    | none => none

/-- A process outside these functions takes and gives back locks, calls `sleep` with a lock
that it holds, calls `wakeup`. -/
def callProc (s : SchedSys) (c p : Nat) : SchedOp → Option SchedSys
  | .acquire lk => s.exec c (.acquire (.cond lk))
  | .release lk => s.exec c (.release (.cond lk))
  | .sleep chan lk =>
    if s.owner (.cond lk) = some c then
      some { s.setPc p (.sleepLock ⟨s.calls, chan, lk⟩) with calls := s.calls + 1 }
    else none
  | .wakeup chan => some (s.setPc p (.wakeLoop chan 0))
  | _ => none

def timerProc (s : SchedSys) (c p : Nat) : Option SchedSys :=
  if s.noff c = 0 then
    match s.pc p with
    | .code => some (s.setPc p (.yieldLock none))
    | .sleepRelock k => some (s.setPc p (.yieldLock (some k)))
    | _ => none
  else none

def SchedSys.step (nproc : Nat) (s : SchedSys) (a : SchedAct) : Option SchedSys :=
  match a.op with
  | .go => runCpu nproc s a.cpu
  | .timer =>
    match s.cpu a.cpu with
    | .runs p => timerProc s a.cpu p
    | _ => none
  | op =>
    match s.cpu a.cpu with
    | .runs p =>
      match s.pc p with
      | .code => callProc s a.cpu p op
      | _ => none
    | _ => none

/-- The state after booting: nobody sleeps or runs. -/
structure SchedSys.Boot (s : SchedSys) : Prop where
  state : ∀ p, s.state p ≠ .sleeping ∧ s.state p ≠ .running
  owner : ∀ l, s.owner l = none
  cpu : ∀ c, s.cpu c = .scan 0
  pc : ∀ p, s.pc p = .forkret

def schedMachine (nproc : Nat) : Machine SchedSys SchedAct Unit where
  init := SchedSys.Boot
  step s a := (s.step nproc a).map fun s' => (s', [])

end Xv6
