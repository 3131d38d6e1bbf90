import Xv6.Lib.Machine

/-! Console input (`console.c`): the interrupt handler `consoleintr` and any number of
processes in `consoleread`. The handler has `cons.lock` from its start to its end; a
reader has it except while it sleeps, and `kill` may come between two pieces of its loop.
An observer records what is typed, what leaves the buffer and what each call returns. -/

namespace Xv6

def inputBufSize : Nat := 128

def newline : UInt8 := 10

def carriageReturn : UInt8 := 13

def ctrlD : UInt8 := 4

def ctrlH : UInt8 := 8

def ctrlP : UInt8 := 16

def ctrlU : UInt8 := 21

def deleteKey : UInt8 := 127

structure Cons where
  buf : Nat → UInt8
  r : Nat
  w : Nat
  e : Nat

namespace Cons

def setE (s : Cons) (e : Nat) : Cons := { s with e := e }

def ePred (s : Cons) : Nat := (s.e + 2 ^ 32 - 1) % 2 ^ 32

def killLine : Nat → Cons → Cons
  | 0, s => s
  | k + 1, s =>
    if s.e ≠ s.w ∧ s.buf (s.ePred % inputBufSize) ≠ newline then killLine k (s.setE s.ePred) else s

def count (s : Cons) : Nat := (s.e + 2 ^ 32 - s.r) % 2 ^ 32

def put (s : Cons) (c : UInt8) : Cons :=
  { s with buf := Function.update s.buf (s.e % inputBufSize) c, e := (s.e + 1) % 2 ^ 32 }

def commit (s : Cons) : Cons := { s with w := s.e }

def store (s : Cons) (c : UInt8) : Cons × Bool :=
  if c ≠ 0 ∧ s.count < inputBufSize then
    let c := if c = carriageReturn then newline else c
    let s := s.put c
    if c = newline ∨ c = ctrlD ∨ s.count = inputBufSize then (s.commit, true) else (s, false)
  else (s, false)

/-- A key in `consoleintr`; echo is not modelled. -/
def intr (s : Cons) (c : UInt8) : Cons × Bool :=
  if c = ctrlP then (s, false)
  else if c = ctrlU then (s.killLine ((s.e + 2 ^ 32 - s.w) % 2 ^ 32), false)
  else if c = ctrlH ∨ c = deleteKey then (if s.e ≠ s.w then s.setE s.ePred else s, false)
  else s.store c

def rSucc (s : Cons) : Cons := { s with r := (s.r + 1) % 2 ^ 32 }

def rPred (s : Cons) : Cons := { s with r := (s.r + 2 ^ 32 - 1) % 2 ^ 32 }

end Cons

structure ConsCall where
  dst : Nat → Bool
  n : Int

/-- Where a process is; `got` is what its call has stored at its destination. In the code
the number of bytes to go is `n`, and `target - n` is `got.length`. -/
inductive ConsPc where
  | out
  | enter (c : ConsCall)
  | loop (c : ConsCall) (got : List UInt8)
  | wait (c : ConsCall) (got : List UInt8)
  | doze (c : ConsCall) (got : List UInt8)
  | asleep (c : ConsCall) (got : List UInt8)
  | woken (c : ConsCall) (got : List UInt8)

def ConsPc.wake : ConsPc → ConsPc
  | .asleep c got => .woken c got
  | c => c

structure ConsSys where
  cons : Cons
  lock : Option Nat
  pc : Nat → ConsPc
  killed : Nat → Bool

namespace ConsSys

def setPc (s : ConsSys) (p : Nat) (c : ConsPc) : ConsSys := { s with pc := Function.update s.pc p c }

def setCons (s : ConsSys) (c : Cons) : ConsSys := { s with cons := c }

def wakeReaders (s : ConsSys) : ConsSys := { s with pc := fun p => (s.pc p).wake }

def leave (s : ConsSys) (p : Nat) (c : ConsPc) : ConsSys := { s.setPc p c with lock := none }

end ConsSys

inductive ConsEvent where
  | typed (c : UInt8)
  | called (p : Nat) (c : ConsCall)
  | taken (p : Nat) (c : UInt8)
  | returned (p : Nat) (c : ConsCall) (got : List UInt8) (r : Int)

inductive ConsAct where
  | intr (c : UInt8)
  | read (p : Nat) (c : ConsCall)
  | acquire (p : Nat)
  | run (p : Nat)
  | kill (p : Nat)

def runCons (s : ConsSys) (p : Nat) : Option (ConsSys × List ConsEvent) :=
  match s.pc p with
  | .loop c got =>
    if (got.length : Int) < c.n then some (s.setPc p (.wait c got), [])
    else some (s.leave p .out, [.returned p c got got.length])
  | .wait c got =>
    if s.cons.r = s.cons.w then
      if s.killed p then some (s.leave p .out, [.returned p c got (-1)])
      else some (s.setPc p (.doze c got), [])
    else
      let ch := s.cons.buf (s.cons.r % inputBufSize)
      let s := s.setCons s.cons.rSucc
      if ch = ctrlD then
        if got.length > 0 then some ((s.setCons s.cons.rPred).leave p .out,
          [.returned p c got got.length])
        else some (s.leave p .out, [.taken p ch, .returned p c got got.length])
      else if c.dst got.length then
        let got := got ++ [ch]
        if ch = newline then some (s.leave p .out, [.taken p ch, .returned p c got got.length])
        else some (s.setPc p (.loop c got), [.taken p ch])
      else some (s.leave p .out, [.taken p ch, .returned p c got got.length])
  | .doze c got => some (s.leave p (.asleep c got), [])
  | _ => none

def acquireCons (s : ConsSys) (p : Nat) : Option ConsSys :=
  if s.lock = none then
    match s.pc p with
    | .enter c => some { s.setPc p (.loop c []) with lock := some p }
    | .woken c got => some { s.setPc p (.wait c got) with lock := some p }
    | _ => none
  else none

def consoleintr (s : ConsSys) (c : UInt8) : Option ConsSys :=
  if s.lock = none then
    let (k, wake) := s.cons.intr c
    let s := s.setCons k
    some (if wake then s.wakeReaders else s)
  else none

/-- A negative count leaves the loop of `consoleread` at once, and `target - n` is 0. -/
def ConsSys.step (s : ConsSys) (a : ConsAct) : Option (ConsSys × List ConsEvent) :=
  match a with
  | .intr c => (consoleintr s c).map fun s' => (s', [.typed c])
  | .read p c =>
    match s.pc p with
    | .out => some (s.setPc p (.enter c), [.called p c])
    | _ => none
  | .acquire p => (acquireCons s p).map fun s' => (s', [])
  | .run p => runCons s p
  | .kill p => some ({ s.setPc p (s.pc p).wake with killed := Function.update s.killed p true }, [])

/-- The console after `consoleinit`. -/
structure ConsSys.Fresh (s : ConsSys) : Prop where
  r : s.cons.r = 0
  w : s.cons.w = 0
  e : s.cons.e = 0
  lock : s.lock = none
  pc : ∀ p, s.pc p = .out

def consMachine : Machine ConsSys ConsAct ConsEvent where
  init := ConsSys.Fresh
  step := ConsSys.step

end Xv6
