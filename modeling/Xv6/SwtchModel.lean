import Xv6.SchedModel

/-! `scheduler` and `swtch` on any number of cpus, with `c->proc`, the saved contexts and
all that processes do with `p->lock`: `yield`, `sleep`, `exit`, `forkret`, `wakeup` and
`kill`. The context of a process is the rest of its kernel code. One step is one lock
operation, one write of `p->state`, `p->chan` or `c->proc`, or one `swtch`. -/

namespace Xv6

open Function (update)

/-- Steps of kernel code. A loop over the process table has the slots that are left. -/
inductive SwtchInstr where
  | acquire (i : Nat)
  | release (i : Nat)
  | state (i : Nat) (x : ProcState)
  | chan (i ch : Nat)
  | sched
  | wakeLoop (ch : Nat) (slots : List Nat)
  | wake (ch i : Nat)
  | killLoop (pid : Nat) (slots : List Nat)
  | kill (pid i : Nat) (slots : List Nat)

/-- Where a cpu is in `scheduler`: before `acquire`, before the test of `p->state`, before
its write, before the write of `c->proc`, before `swtch`, in the process, before
`c->proc = 0`, before `release`. -/
inductive SwtchCpu where
  | scan (i : Nat)
  | look (i : Nat)
  | chosen (i : Nat)
  | assign (i : Nat)
  | enter (i : Nat)
  | runs (i : Nat)
  | back (i : Nat)
  | drop (i : Nat)

structure SwtchSys where
  state : Nat → ProcState
  chan : Nat → Nat
  pid : Nat → Nat
  /-- The cpu in `p->lock`. -/
  owner : Nat → Option Nat
  /-- `c->proc` -/
  cproc : Nat → Option Nat
  cpu : Nat → SwtchCpu
  todo : Nat → List SwtchInstr

/-- What a cpu does next. -/
inductive SwtchOp where
  | go
  | yield
  | sleep (ch : Nat)
  | exit (parent : Nat)
  | wakeup (ch : Nat)
  | kill (pid : Nat)

/-- A step of a cpu. -/
structure SwtchAct where
  cpu : Nat
  op : SwtchOp

/-- `swtch` into and out of the context of a process. -/
inductive SwtchEvent where
  | entered (p c : Nat)
  | saved (p : Nat)

def yieldCode (p : Nat) : List SwtchInstr := [.acquire p, .state p .runnable, .sched, .release p]

def sleepCode (p ch : Nat) : List SwtchInstr :=
  [.acquire p, .chan p ch, .state p .sleeping, .sched, .chan p 0, .release p]

def exitCode (p : Nat) : List SwtchInstr := [.acquire p, .state p .zombie, .sched]

def forkretCode (p : Nat) : List SwtchInstr := [.release p]

namespace SwtchSys

def setCpu (s : SwtchSys) (c : Nat) (x : SwtchCpu) : SwtchSys := { s with cpu := update s.cpu c x }

def setTodo (s : SwtchSys) (p : Nat) (l : List SwtchInstr) : SwtchSys :=
  { s with todo := update s.todo p l }

def setState (s : SwtchSys) (p : Nat) (x : ProcState) : SwtchSys :=
  { s with state := update s.state p x }

def setChan (s : SwtchSys) (p ch : Nat) : SwtchSys := { s with chan := update s.chan p ch }

def setOwner (s : SwtchSys) (i : Nat) (x : Option Nat) : SwtchSys :=
  { s with owner := update s.owner i x }

def setProc (s : SwtchSys) (c : Nat) (x : Option Nat) : SwtchSys :=
  { s with cproc := update s.cproc c x }

def rouse (s : SwtchSys) (i : Nat) (b : Bool) : SwtchSys :=
  if s.state i = .sleeping ∧ b = true then s.setState i .runnable else s

/-- `sched` does not panic: `p` is `myproc()`, its lock is held and its state has changed. -/
def SchedOk (s : SwtchSys) (c p : Nat) : Prop :=
  s.cproc c = some p ∧ s.owner p = some c ∧ s.state p ≠ .running

instance (s : SwtchSys) (c p : Nat) : Decidable (s.SchedOk c p) := inferInstanceAs (Decidable (_ ∧ _))

/-- A step of the process `p` on the cpu `c`; `l` is the code behind it. `acquire` spins
while the lock is held, `release` panics unless the cpu holds the lock. -/
def exec (s : SwtchSys) (c p : Nat) (l : List SwtchInstr) :
    SwtchInstr → Option (SwtchSys × List SwtchEvent)
  | .acquire i => if s.owner i = none then some ((s.setOwner i (some c)).setTodo p l, []) else none
  | .release i => if s.owner i = some c then some ((s.setOwner i none).setTodo p l, []) else none
  | .state i x => some ((s.setState i x).setTodo p l, [])
  | .chan i ch => some ((s.setChan i ch).setTodo p l, [])
  | .sched => if s.SchedOk c p then some ((s.setTodo p l).setCpu c (.back p), [.saved p]) else none
  | .wakeLoop _ [] => some (s.setTodo p l, [])
  | .wakeLoop ch (i :: is) =>
    if s.cproc c = some i then some (s.setTodo p (.wakeLoop ch is :: l), [])
    else if s.owner i = none then
      some ((s.setOwner i (some c)).setTodo p (.wake ch i :: .release i :: .wakeLoop ch is :: l), [])
    else none
  | .wake ch i => some ((s.rouse i (s.chan i = ch)).setTodo p l, [])
  | .killLoop _ [] => some (s.setTodo p l, [])
  | .killLoop pid (i :: is) =>
    if s.owner i = none then
      some ((s.setOwner i (some c)).setTodo p (.kill pid i is :: l), []) else none
  | .kill pid i is =>
    some ((s.rouse i (s.pid i = pid)).setTodo p
      (if s.pid i = pid then .release i :: l else .release i :: .killLoop pid is :: l), [])

def Unlocked (n : Nat) (s : SwtchSys) (c : Nat) : Prop := ∀ i < n, s.owner i ≠ some c

instance (n : Nat) (s : SwtchSys) (c : Nat) : Decidable (s.Unlocked n c) := Nat.decidableBallLT _ _

/-- The code of a call, or of an interrupt, with what `p` had to do. `exit` does not return. -/
def callCode (n p : Nat) (l : List SwtchInstr) : SwtchOp → List SwtchInstr
  | .go => l
  | .yield => yieldCode p ++ l
  | .sleep ch => sleepCode p ch ++ l
  | .exit parent => .wakeLoop parent (List.range n) :: exitCode p
  | .wakeup ch => .wakeLoop ch (List.range n) :: l
  | .kill pid => .killLoop pid (List.range n) :: l

def schedStep (n : Nat) (s : SwtchSys) (c : Nat) : SwtchCpu → Option (SwtchSys × List SwtchEvent)
  | .scan i =>
    if i < n then if s.owner i = none then
      some ((s.setOwner i (some c)).setCpu c (.look i), []) else none
    else some (s.setCpu c (.scan 0), [])
  | .look i => some (s.setCpu c (if s.state i = .runnable then .chosen i else .drop i), [])
  | .chosen i => some ((s.setState i .running).setCpu c (.assign i), [])
  | .assign i => some ((s.setProc c (some i)).setCpu c (.enter i), [])
  | .enter i => some (s.setCpu c (.runs i), [.entered i c])
  | .runs _ => none
  | .back i => some ((s.setProc c none).setCpu c (.drop i), [])
  | .drop i =>
    if s.owner i = some c then some ((s.setOwner i none).setCpu c (.scan (i + 1)), []) else none

def step (n : Nat) (s : SwtchSys) (a : SwtchAct) : Option (SwtchSys × List SwtchEvent) :=
  match s.cpu a.cpu, a.op with
  | .runs p, .go =>
    match s.todo p with
    | [] => none
    | x :: l => s.exec a.cpu p l x
  | .runs p, op =>
    match s.cproc a.cpu with
    | none => none
    | some q => if s.Unlocked n a.cpu then some (s.setTodo p (callCode n q (s.todo p) op), []) else none
  | x, .go => s.schedStep n a.cpu x
  | _, _ => none

end SwtchSys

def swtchMachine (n : Nat) : Machine SwtchSys SwtchAct SwtchEvent where
  init := fun s => (∀ c, s.cpu c = .scan 0 ∧ s.cproc c = none) ∧
    ∀ p, s.owner p = none ∧ s.todo p = forkretCode p ∧ (s.state p = .unused ∨ s.state p = .runnable)
  step := fun s a => s.step n a

end Xv6
