import Xv6.SchedModel

/-! `proc.c`: `fork`, `exit`, `wait` and `kill` by any number of processes. One step is one
critical section of `p->lock`, or one of `wait_lock` where no `p->lock` is taken inside; the
longer sections of `wait_lock` in `exit` and `wait` are many steps. `sleep` gives `wait_lock`
back and sleeps in one step. An observer numbers the processes and records who exits with
which status and who is reaped by whom. -/

namespace Xv6

structure Slot where
  state : ProcState
  pid : Int32
  parent : Option Nat
  killed : Bool
  xstate : Int32
  chan : Option Nat

def Slot.free : Slot := ⟨.unused, 0, none, false, 0, none⟩

/-- The next critical section of a process. -/
inductive WaitPc where
  | code
  | forkScan (i : Nat)
  | forkParent (np : Nat)
  | forkRun (np : Nat)
  | exitLock (status : Int32)
  | reparent (status : Int32) (i : Nat)
  | wakeInit (status : Int32) (i j : Nat)
  | wakeParent (status : Int32) (chan : Option Nat) (j : Nat)
  | exitZombie (status : Int32)
  | waitLock (addr : Nat)
  | waitScan (addr i : Nat) (havekids : Bool)
  | waitSleep (addr : Nat)
  | waitDoze (addr : Nat)
  | killScan (pid : Int32) (i : Nat)

structure WaitSys where
  proc : Nat → Slot
  pc : Nat → WaitPc
  waitLock : Option Nat
  nextpid : Int32
  /-- The number of the process in a slot. -/
  life : Nat → Nat
  lives : Nat

inductive WaitEvent where
  | forked (parent child : Nat)
  | exited (k : Nat) (pid status : Int32)
  /-- `wait(addr)` in the slot `w` returns `pid`; `status` is what it wrote to `addr`. -/
  | reaped (w parent k : Nat) (pid : Int32) (addr : Nat) (status : Option Int32)
  /-- `wait` in the slot `w` returns -1. -/
  | waitFailed (w : Nat)
  deriving DecidableEq

/-- The steps: calls, and a process that goes on. -/
inductive WaitAct where
  | run (p : Nat)
  | yield (p : Nat)
  | fork (p : Nat)
  | exit (p : Nat) (status : Int32)
  | wait (p addr : Nat)
  | kill (p : Nat) (pid : Int32)
  /-- The next section of `p`; `ok` says whether its allocations or its `copyout` succeed. -/
  | go (p : Nat) (ok : Bool)

def initproc : Nat := 0

namespace WaitSys

def setProc (s : WaitSys) (i : Nat) (x : Slot) : WaitSys :=
  { s with proc := Function.update s.proc i x }

def setState (s : WaitSys) (i : Nat) (x : ProcState) : WaitSys :=
  s.setProc i { s.proc i with state := x }

def setParent (s : WaitSys) (i : Nat) (q : Nat) : WaitSys :=
  s.setProc i { s.proc i with parent := some q }

def setPc (s : WaitSys) (p : Nat) (x : WaitPc) : WaitSys := { s with pc := Function.update s.pc p x }

def setLock (s : WaitSys) (l : Option Nat) : WaitSys := { s with waitLock := l }

def allocproc (s : WaitSys) (i : Nat) : WaitSys :=
  { s.setProc i { s.proc i with pid := s.nextpid, state := .used } with
    nextpid := s.nextpid + 1
    life := Function.update s.life i s.lives
    lives := s.lives + 1 }

def allocFail (s : WaitSys) (i : Nat) : WaitSys := { s.setProc i .free with nextpid := s.nextpid + 1 }

def wake (s : WaitSys) (p : Nat) (chan : Option Nat) (j : Nat) : WaitSys :=
  if j ≠ p ∧ (s.proc j).state = .sleeping ∧ (s.proc j).chan = chan then s.setState j .runnable else s

def killSlot (s : WaitSys) (i : Nat) : WaitSys :=
  s.setProc i { s.proc i with
    killed := true
    state := if (s.proc i).state = .sleeping then .runnable else (s.proc i).state }

end WaitSys

open WaitSys

def forkStep (n : Nat) (s : WaitSys) (p i : Nat) (ok : Bool) : WaitSys × List WaitEvent :=
  if i < n then
    if (s.proc i).state = .unused then
      if ok then ((s.allocproc i).setPc p (.forkParent i), [.forked (s.life p) s.lives])
      else ((s.allocFail i).setPc p .code, [])
    else (s.setPc p (.forkScan (i + 1)), [])
  else (s.setPc p .code, [])

/-- A round of the loop of `reparent`. -/
def reparentStep (n : Nat) (s : WaitSys) (p : Nat) (status : Int32) (i : Nat) : WaitSys :=
  if i < n then
    if (s.proc i).parent = some p then (s.setParent i initproc).setPc p (.wakeInit status i 0)
    else s.setPc p (.reparent status (i + 1))
  else s.setPc p (.wakeParent status (s.proc p).parent 0)

/-- What `wait` stores: nothing if the address is 0. -/
def statusOut (addr : Nat) (xstate : Int32) : Option Int32 := if addr ≠ 0 then some xstate else none

/-- A round of the scan of `wait`. -/
def waitStep (n : Nat) (s : WaitSys) (p addr i : Nat) (havekids ok : Bool) : WaitSys × List WaitEvent :=
  if i < n then
    if (s.proc i).parent = some p then
      if (s.proc i).state = .zombie then
        if addr ≠ 0 ∧ ok = false then ((s.setPc p .code).setLock none, [.waitFailed p])
        else (((s.setProc i .free).setPc p .code).setLock none,
          [.reaped p (s.life p) (s.life i) (s.proc i).pid addr
            (statusOut addr (s.proc i).xstate)])
      else (s.setPc p (.waitScan addr (i + 1) true), [])
    else (s.setPc p (.waitScan addr (i + 1) havekids), [])
  else if havekids = false ∨ (s.proc p).killed then ((s.setPc p .code).setLock none, [.waitFailed p])
  else (s.setPc p (.waitSleep addr), [])

def goWait (n : Nat) (s : WaitSys) (p : Nat) (ok : Bool) : Option (WaitSys × List WaitEvent) :=
  match s.pc p with
  | .code | .waitDoze _ => none
  | .forkScan i => some (forkStep n s p i ok)
  | .forkParent np =>
    if s.waitLock = none then some ((s.setParent np p).setPc p (.forkRun np), []) else none
  | .forkRun np => some ((s.setState np .runnable).setPc p .code, [])
  | .exitLock status =>
    if s.waitLock = none then some ((s.setPc p (.reparent status 0)).setLock (some p), []) else none
  | .reparent status i => some (reparentStep n s p status i, [])
  | .wakeInit status i j =>
    if j < n then some ((s.wake p (some initproc) j).setPc p (.wakeInit status i (j + 1)), [])
    else some (s.setPc p (.reparent status (i + 1)), [])
  | .wakeParent status chan j =>
    if j < n then some ((s.wake p chan j).setPc p (.wakeParent status chan (j + 1)), [])
    else some (s.setPc p (.exitZombie status), [])
  | .exitZombie status =>
    some (((s.setProc p { s.proc p with xstate := status, state := .zombie }).setPc p
      .code).setLock none, [.exited (s.life p) (s.proc p).pid status])
  | .waitLock addr =>
    if s.waitLock = none then some ((s.setPc p (.waitScan addr 0 false)).setLock (some p), []) else none
  | .waitScan addr i havekids => some (waitStep n s p addr i havekids ok)
  | .waitSleep addr =>
    some (((s.setProc p { s.proc p with chan := some p, state := .sleeping }).setPc p
      (.waitDoze addr)).setLock none, [])
  | .killScan pid i =>
    if i < n then
      if (s.proc i).pid = pid then some ((s.killSlot i).setPc p .code, [])
      else some (s.setPc p (.killScan pid (i + 1)), [])
    else some (s.setPc p .code, [])

def runWait (s : WaitSys) (p : Nat) : WaitSys :=
  match s.pc p with
  | .waitDoze addr =>
    (s.setProc p { s.proc p with state := .running, chan := none }).setPc p (.waitLock addr)
  | _ => s.setState p .running

def callWait (s : WaitSys) (p : Nat) (x : WaitPc) : Option (WaitSys × List WaitEvent) :=
  match (s.proc p).state, s.pc p with
  | .running, .code => some (s.setPc p x, [])
  | _, _ => none

def WaitSys.step (n : Nat) (s : WaitSys) : WaitAct → Option (WaitSys × List WaitEvent)
  | .run p => if (s.proc p).state = .runnable then some (runWait s p, []) else none
  | .yield p =>
    if (s.proc p).state = .running ∧ s.waitLock ≠ some p then
      some (s.setState p .runnable, []) else none
  | .fork p => callWait s p (.forkScan 0)
  | .exit p status => if p = initproc then none else callWait s p (.exitLock status)
  | .wait p addr => callWait s p (.waitLock addr)
  | .kill p pid => callWait s p (.killScan pid 0)
  | .go p ok => if (s.proc p).state = .running then goWait n s p ok else none

def WaitSys.boot : WaitSys where
  proc i := if i = initproc then { Slot.free with state := .runnable, pid := 1 } else .free
  pc _ := .code
  waitLock := none
  nextpid := 2
  life _ := 0
  lives := 1

end Xv6
