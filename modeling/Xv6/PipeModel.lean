import Xv6.Lib.Machine

/-! `pipe.c`: `pipewrite`, `piperead` and `pipeclose` on one pipe by any number of
processes, and `kill`. A process that holds `pi->lock` goes on in small pieces, so that
`kill` may come between two looks at `p->killed`; `sleep` gives the lock back and sleeps
in one step. An observer numbers the calls of `pipewrite` and records each byte. -/

namespace Xv6

def pipeSize : Nat := 512

/-- The `struct pipe`. -/
structure Pipe where
  data : Nat → UInt8
  nread : Nat
  nwrite : Nat
  readopen : Bool
  writeopen : Bool

namespace Pipe

def isEmpty (pi : Pipe) : Bool := pi.nread = pi.nwrite

def isFull (pi : Pipe) : Bool := pi.nwrite = (pi.nread + pipeSize) % 2 ^ 32

def insert (pi : Pipe) (ch : UInt8) : Pipe :=
  { pi with
    data := Function.update pi.data (pi.nwrite % pipeSize) ch, nwrite := (pi.nwrite + 1) % 2 ^ 32 }

def remove (pi : Pipe) : UInt8 × Pipe :=
  (pi.data (pi.nread % pipeSize), { pi with nread := (pi.nread + 1) % 2 ^ 32 })

def close (pi : Pipe) (writable : Bool) : Pipe :=
  if writable then { pi with writeopen := false } else { pi with readopen := false }

end Pipe

structure WriteCall where
  src : Nat → Option UInt8
  n : Int

structure ReadCall where
  dst : Nat → Bool
  n : Int

/-- Where a process is. `k` is the number of its call of `pipewrite`. -/
inductive PipePc where
  | out
  | writeEnter (k : Nat) (c : WriteCall) (i : Nat)
  | writeTest (k : Nat) (c : WriteCall) (i : Nat)
  | writeBody (k : Nat) (c : WriteCall) (i : Nat)
  | writeSleep (k : Nat) (c : WriteCall) (i : Nat)
  | readEnter (c : ReadCall)
  | readTest (c : ReadCall)
  | readDoze (c : ReadCall)
  | readSleep (c : ReadCall)
  | readLoop (c : ReadCall) (i : Nat)

def PipePc.holds : PipePc → Bool
  | .writeTest .. | .writeBody .. | .readTest .. | .readDoze .. | .readLoop .. => true
  | _ => false

def PipePc.onNread : PipePc → Bool
  | .readSleep _ => true
  | _ => false

def PipePc.onNwrite : PipePc → Bool
  | .writeSleep .. => true
  | _ => false

def PipePc.wakeReader : PipePc → PipePc
  | .readSleep c => .readEnter c
  | c => c

def PipePc.wakeWriter : PipePc → PipePc
  | .writeSleep k c i => .writeEnter k c i
  | c => c

structure PipeSys where
  pipe : Pipe
  lock : Option Nat
  pc : Nat → PipePc
  killed : Nat → Bool
  /-- `kfree(pi)` was called. -/
  freed : Bool
  calls : Nat

namespace PipeSys

def setPc (s : PipeSys) (p : Nat) (c : PipePc) : PipeSys := { s with pc := Function.update s.pc p c }

def wakeReaders (s : PipeSys) : PipeSys := { s with pc := fun p => (s.pc p).wakeReader }

def wakeWriters (s : PipeSys) : PipeSys := { s with pc := fun p => (s.pc p).wakeWriter }

def setPipe (s : PipeSys) (pi : Pipe) : PipeSys := { s with pipe := pi }

def leave (s : PipeSys) (p : Nat) (c : PipePc) : PipeSys := { s.setPc p c with lock := none }

end PipeSys

inductive PipeEvent where
  | called (k : Nat) (c : WriteCall)
  | inserted (k : Nat) (ch : UInt8)
  | removed (ch : UInt8)
  | wrote (k : Nat) (r : Int)
  | read (c : ReadCall) (r : Int)

inductive PipeAct where
  | write (p : Nat) (c : WriteCall)
  | read (p : Nat) (c : ReadCall)
  | acquire (p : Nat)
  | run (p : Nat)
  | close (p : Nat) (writable : Bool)
  | kill (p : Nat)

open PipeSys in
def runPipe (s : PipeSys) (p : Nat) : Option (PipeSys × List PipeEvent) :=
  match s.pc p with
  | .writeTest k c i =>
    if (i : Int) < c.n then
      if s.pipe.readopen = false ∨ s.killed p then some (s.leave p .out, [.wrote k (-1)])
      else some (s.setPc p (.writeBody k c i), [])
    else some (s.wakeReaders.leave p .out, [.wrote k i])
  | .writeBody k c i =>
    if s.pipe.isFull then some (s.wakeReaders.leave p (.writeSleep k c i), [])
    else
      match c.src i with
      | none => some (s.wakeReaders.leave p .out, [.wrote k i])
      | some ch =>
        some ((s.setPipe (s.pipe.insert ch)).setPc p (.writeTest k c (i + 1)), [.inserted k ch])
  | .readTest c =>
    if s.pipe.isEmpty ∧ s.pipe.writeopen then
      if s.killed p then some (s.leave p .out, [.read c (-1)])
      else some (s.setPc p (.readDoze c), [])
    else some (s.setPc p (.readLoop c 0), [])
  | .readDoze c => some (s.leave p (.readSleep c), [])
  | .readLoop c i =>
    if (i : Int) < c.n then
      if s.pipe.isEmpty then some (s.wakeWriters.leave p .out, [.read c i])
      else
        let (ch, pi) := s.pipe.remove
        if c.dst i then some ((s.setPipe pi).setPc p (.readLoop c (i + 1)), [.removed ch])
        else some ((s.setPipe pi).wakeWriters.leave p .out, [.removed ch, .read c i])
    else some (s.wakeWriters.leave p .out, [.read c i])
  | _ => none

def acquirePipe (s : PipeSys) (p : Nat) : Option PipeSys :=
  if s.lock = none then
    match s.pc p with
    | .writeEnter k c i => some { s.setPc p (.writeTest k c i) with lock := some p }
    | .readEnter c => some { s.setPc p (.readTest c) with lock := some p }
    | _ => none
  else none

def pipeclose (s : PipeSys) (p : Nat) (writable : Bool) : Option PipeSys :=
  match s.pc p, s.lock with
  | .out, none =>
    let s := s.setPipe (s.pipe.close writable)
    let s := if writable then s.wakeReaders else s.wakeWriters
    some { s with freed := !s.pipe.readopen && !s.pipe.writeopen }
  | _, _ => none

def killPipe (s : PipeSys) (p : Nat) : PipeSys :=
  { s.setPc p (s.pc p).wakeReader.wakeWriter with killed := Function.update s.killed p true }

def PipeSys.step (s : PipeSys) (a : PipeAct) : Option (PipeSys × List PipeEvent) :=
  if s.freed then none
  else
    match a with
    | .write p c =>
      match s.pc p with
      | .out => some ({ s.setPc p (.writeEnter s.calls c 0) with calls := s.calls + 1 },
        [.called s.calls c])
      | _ => none
    | .read p c =>
      match s.pc p with
      | .out => some (s.setPc p (.readEnter c), [])
      | _ => none
    | .acquire p => (acquirePipe s p).map fun s' => (s', [])
    | .run p => runPipe s p
    | .close p writable => (pipeclose s p writable).map fun s' => (s', [])
    | .kill p => some (killPipe s p, [])

/-- The pipe after `pipealloc`. -/
structure PipeSys.Fresh (s : PipeSys) : Prop where
  nread : s.pipe.nread = 0
  nwrite : s.pipe.nwrite = 0
  readopen : s.pipe.readopen = true
  writeopen : s.pipe.writeopen = true
  lock : s.lock = none
  pc : ∀ p, s.pc p = .out
  freed : s.freed = false
  calls : s.calls = 0

def pipeMachine : Machine PipeSys PipeAct PipeEvent where
  init := PipeSys.Fresh
  step := PipeSys.step

end Xv6
