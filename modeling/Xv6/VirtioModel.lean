import Xv6.Lib.Machine

/-! `virtio_disk.c`: `virtio_disk_rw` by any number of processes, `virtio_disk_intr`, and the
device at the other end of the two rings. Whoever has `vdisk_lock` goes on in small pieces, so
that the device may come between the write of a ring entry and that of the index. A process
calls `virtio_disk_rw` with a buffer whose sleep-lock it has. An observer numbers the calls
and keeps what went through the rings. -/

namespace Xv6

open Function (update)

def numDesc : Nat := 8

def descNext : Nat := 1

def descWrite : Nat := 2

/-- What the `addr` of a descriptor points to. -/
inductive DescAddr where
  | null
  | op (i : Nat)
  | data (b : Nat)
  | status (i : Nat)
  deriving DecidableEq

/-- A `struct virtq_desc`. -/
structure Desc where
  addr : DescAddr
  len : Nat
  flags : Nat
  next : Nat
  deriving DecidableEq

/-- A call of `virtio_disk_rw` with its number. -/
structure VirtioCall where
  num : Nat
  buf : Nat
  blockno : Nat
  write : Bool

def VirtioCall.sector (k : VirtioCall) : Nat := k.blockno * 2 % 2 ^ 32

/-- The three descriptors of a request. -/
structure Triple where
  i0 : Nat
  i1 : Nat
  i2 : Nat

/-- Where a process stands in `virtio_disk_rw`. -/
inductive VirtioPc where
  | out
  | enter (k : VirtioCall)
  | alloc (k : VirtioCall)
  | dozeFree (k : VirtioCall)
  | ring (k : VirtioCall) (t : Triple)
  | publish (k : VirtioCall) (t : Triple)
  | check (k : VirtioCall) (t : Triple)
  | doze (k : VirtioCall) (t : Triple)
  | redo (k : VirtioCall) (t : Triple)

/-- Who has `vdisk_lock`. -/
inductive VirtioHolder where
  | proc (p : Nat)
  | intr
  deriving DecidableEq

/-- The driver and the device. -/
structure VirtioSys where
  desc : Nat → Desc
  free : Nat → Bool
  availIdx : Nat
  availRing : Nat → Nat
  usedIdx : Nat
  usedRing : Nat → Nat
  /-- `disk.used_idx`. -/
  lookedIdx : Nat
  infoBuf : Nat → Option Nat
  infoStatus : Nat → Nat
  /-- `type` and `sector` of `disk.ops`. -/
  ops : Nat → Bool × Nat
  /-- `b->disk`. -/
  bufDisk : Nat → Bool
  /-- Who has the sleep-lock of a buffer. -/
  bufLock : Nat → Option Nat
  lock : Option VirtioHolder
  pc : Nat → VirtioPc
  /-- How far the device has read the avail ring, and the chains it works on. -/
  readIdx : Nat
  busy : List Nat
  /-- A used entry that is written while `used->idx` does not count it yet. -/
  ending : Option Nat
  calls : Nat
  /-- The call that a chain belongs to. -/
  who : Nat → Nat
  /-- The heads that were put into and taken out of the two rings. -/
  published : List Nat
  fetched : List Nat
  completed : List Nat
  handled : List Nat

/-- What an observer sees. -/
inductive VirtioEvent where
  | called (k : VirtioCall)
  /-- The device did what the chain of call `num` says. -/
  | done (num : Nat) (write : Bool) (sector buf : Nat)
  /-- `virtio_disk_intr` cleared `b->disk` for the chain of call `num`. -/
  | cleared (num buf : Nat)
  | returned (num : Nat)
  | panic (msg : String)

namespace VirtioSys

def setPc (s : VirtioSys) (p : Nat) (x : VirtioPc) : VirtioSys := { s with pc := update s.pc p x }

def setLock (s : VirtioSys) (l : Option VirtioHolder) : VirtioSys := { s with lock := l }

def wakeFree (s : VirtioSys) : VirtioSys :=
  { s with pc := fun p => match s.pc p with | .dozeFree k => .enter k | x => x }

def wakeBuf (s : VirtioSys) (b : Nat) : VirtioSys :=
  { s with
    pc := fun p =>
      match s.pc p with
      | .doze k t => if k.buf = b then .redo k t else .doze k t
      | x => x }

def allocDesc (s : VirtioSys) : Option (Nat × VirtioSys) :=
  match (List.range numDesc).find? fun i => s.free i with
  | some i => some (i, { s with free := update s.free i false })
  | none => none

def freeDesc (s : VirtioSys) (i : Nat) : Except String VirtioSys :=
  if i ≥ numDesc then .error "free_desc 1"
  else if s.free i then .error "free_desc 2"
  else
    .ok { s.wakeFree with
      desc := update s.desc i ⟨.null, 0, 0, 0⟩
      free := update s.free i true }

/-- `free_chain`; one round more than there are descriptors ends in the panic of `free_desc`. -/
def freeChain (s : VirtioSys) (i : Nat) : Nat → Except String VirtioSys
  | 0 => .ok s
  | fuel + 1 => do
    let flag := (s.desc i).flags
    let nxt := (s.desc i).next
    let s' ← s.freeDesc i
    if flag % 2 = 1 then s'.freeChain nxt fuel else .ok s'

def alloc3Desc (s : VirtioSys) : Except String (Option Triple × VirtioSys) :=
  match s.allocDesc with
  | none => .ok (none, s)
  | some (i0, s0) =>
    match s0.allocDesc with
    | none => do
      let s ← s0.freeDesc i0
      .ok (none, s)
    | some (i1, s1) =>
      match s1.allocDesc with
      | none => do
        let s ← s1.freeDesc i0
        let s ← s.freeDesc i1
        .ok (none, s)
      | some (i2, s2) => .ok (some ⟨i0, i1, i2⟩, s2)

def format (s : VirtioSys) (k : VirtioCall) (t : Triple) : VirtioSys :=
  { s with
    ops := update s.ops t.i0 (k.write, k.sector)
    desc := update
      (update
        (update s.desc t.i0 ⟨.op t.i0, 16, descNext, t.i1⟩)
        t.i1 ⟨.data k.buf, 1024, (if k.write then 0 else descWrite) + descNext, t.i2⟩)
      t.i2 ⟨.status t.i0, 1, descWrite, 0⟩
    infoStatus := update s.infoStatus t.i0 0xff
    bufDisk := update s.bufDisk k.buf true
    infoBuf := update s.infoBuf t.i0 (some k.buf)
    who := update s.who t.i0 k.num }

end VirtioSys

open VirtioSys

def allocStep (s : VirtioSys) (p : Nat) (k : VirtioCall) : VirtioSys × List VirtioEvent :=
  match s.alloc3Desc with
  | .error m => (s, [.panic m])
  | .ok (none, s') => ((s'.setPc p (.dozeFree k)).setLock none, [])
  | .ok (some t, s') => ((s'.format k t).setPc p (.ring k t), [])

def finishStep (s : VirtioSys) (p : Nat) (k : VirtioCall) (t : Triple) : VirtioSys × List VirtioEvent :=
  match ({ s with infoBuf := update s.infoBuf t.i0 none } : VirtioSys).freeChain t.i0 (numDesc + 1) with
  | .error m => (s, [.panic m])
  | .ok s' => ((s'.setPc p .out).setLock none, [.returned k.num])

/-- The next section of `virtio_disk_rw`. -/
def goVirtio (s : VirtioSys) (p : Nat) : Option (VirtioSys × List VirtioEvent) :=
  match s.pc p with
  | .out | .dozeFree _ | .doze .. => none
  | .enter k =>
    if s.lock = none then some ((s.setPc p (.alloc k)).setLock (some (.proc p)), []) else none
  | .alloc k => some (allocStep s p k)
  | .ring k t =>
    some ({ s.setPc p (.publish k t) with
      availRing := update s.availRing (s.availIdx % numDesc) t.i0 }, [])
  | .publish k t =>
    some ({ s.setPc p (.check k t) with
      availIdx := (s.availIdx + 1) % 2 ^ 16
      published := s.published ++ [t.i0] }, [])
  | .check k t =>
    if s.bufDisk k.buf then some ((s.setPc p (.doze k t)).setLock none, [])
      else some (finishStep s p k t)
  | .redo k t =>
    if s.lock = none then some ((s.setPc p (.check k t)).setLock (some (.proc p)), []) else none

/-- A round of the loop of `virtio_disk_intr`. -/
def goIntr (s : VirtioSys) : VirtioSys × List VirtioEvent :=
  if s.lookedIdx ≠ s.usedIdx then
    let id := s.usedRing (s.lookedIdx % numDesc)
    if s.infoStatus id ≠ 0 then (s, [.panic "virtio_disk_intr status"])
    else
      match s.infoBuf id with
      | none => (s, [.panic "kerneltrap"])
      | some b =>
        (({ s with
            bufDisk := update s.bufDisk b false
            lookedIdx := (s.lookedIdx + 1) % 2 ^ 16
            handled := s.handled ++ [id] } : VirtioSys).wakeBuf b, [.cleared (s.who id) b])
  else (s.setLock none, [])

/-- The device reads an entry of the available ring. -/
def deviceFetch (s : VirtioSys) : Option VirtioSys :=
  if s.readIdx ≠ s.availIdx then
    let h := s.availRing (s.readIdx % numDesc)
    some { s with
      readIdx := (s.readIdx + 1) % 2 ^ 16, busy := h :: s.busy, fetched := s.fetched ++ [h] }
  else none

/-- The device follows the chain `h`, does the transfer, writes status 0 where the last
descriptor says, and fills the next used entry. -/
def deviceEnd (s : VirtioSys) (h : Nat) : Option (VirtioSys × List VirtioEvent) :=
  if h ∈ s.busy ∧ s.ending = none then
    let d0 := s.desc h
    let d1 := s.desc d0.next
    let d2 := s.desc d1.next
    match d0.addr, d1.addr, d2.addr with
    | .op i, .data b, .status j =>
      some ({ s with
        infoStatus := update s.infoStatus j 0
        usedRing := update s.usedRing (s.usedIdx % numDesc) h
        busy := s.busy.erase h
        ending := some h }, [.done (s.who h) (s.ops i).1 (s.ops i).2 b])
    | _, _, _ => none
  else none

def deviceCount (s : VirtioSys) : Option VirtioSys :=
  match s.ending with
  | some h =>
    some { s with
      usedIdx := (s.usedIdx + 1) % 2 ^ 16, ending := none, completed := s.completed ++ [h] }
  | none => none

inductive VirtioAct where
  | lockBuf (p b : Nat)
  | unlockBuf (p b : Nat)
  | rw (p b blockno : Nat) (write : Bool)
  | go (p : Nat)
  /-- `kill` makes a sleeper `RUNNABLE`. -/
  | kill (p : Nat)
  | intr
  | goIntr
  | fetch
  | finish (h : Nat)
  | count

def VirtioSys.step (s : VirtioSys) : VirtioAct → Option (VirtioSys × List VirtioEvent)
  | .lockBuf p b =>
    if s.bufLock b = none then some ({ s with bufLock := update s.bufLock b (some p) }, []) else none
  | .unlockBuf p b =>
    match s.pc p with
    | .out => if s.bufLock b = some p then
      some ({ s with bufLock := update s.bufLock b none }, []) else none
    | _ => none
  | .rw p b blockno write =>
    match s.pc p with
    | .out =>
      if s.bufLock b = some p then
        let k : VirtioCall := ⟨s.calls, b, blockno, write⟩
        some ({ s.setPc p (.enter k) with calls := s.calls + 1 }, [.called k])
      else none
    | _ => none
  | .go p => goVirtio s p
  | .kill p =>
    match s.pc p with
    | .dozeFree k => some (s.setPc p (.enter k), [])
    | .doze k t => some (s.setPc p (.redo k t), [])
    | _ => none
  | .intr => if s.lock = none then some (s.setLock (some .intr), []) else none
  | .goIntr => if s.lock = some .intr then some (goIntr s) else none
  | .fetch => (deviceFetch s).map fun s' => (s', [])
  | .finish h => deviceEnd s h
  | .count => (deviceCount s).map fun s' => (s', [])

/-- The state after `virtio_disk_init`. -/
structure VirtioSys.Fresh (s : VirtioSys) : Prop where
  free : ∀ i, s.free i = true
  availIdx : s.availIdx = 0
  usedIdx : s.usedIdx = 0
  lookedIdx : s.lookedIdx = 0
  lock : s.lock = none
  pc : ∀ p, s.pc p = .out
  readIdx : s.readIdx = 0
  busy : s.busy = []
  ending : s.ending = none
  calls : s.calls = 0
  published : s.published = []
  fetched : s.fetched = []
  completed : s.completed = []
  handled : s.handled = []

def virtioMachine : Machine VirtioSys VirtioAct VirtioEvent where
  init := VirtioSys.Fresh
  step := VirtioSys.step

end Xv6
