import Xv6.Lib.DiskProg
import Xv6.Params

/-! The redo log of `log.c`: commit and recovery as programs over the disk. A power
failure loses the memory, which is the buffer cache and `struct log`; its header
is kept as the list `lh.block[0..lh.n)`. The header block on disk holds `int n`
and `int block[LOGSIZE]`. -/

namespace Xv6

open DiskProg

structure Log where
  start : Nat
  size : Nat
  outstanding : Int
  committing : Bool
  lh : List Nat

structure LogMem where
  log : Log
  cache : Nat → Option Block

def LogMem.zero : LogMem := ⟨⟨0, 0, 0, false, []⟩, fun _ => none⟩

abbrev LogProg := DiskProg LogMem Nat Block

def LogMem.setCache (m : LogMem) (b : Nat) (v : Block) : LogMem :=
  { m with cache := Function.update m.cache b (some v) }

def LogMem.setLh (m : LogMem) (lh : List Nat) : LogMem := { m with log := { m.log with lh := lh } }

@[simp] lemma LogMem.setCache_log (m : LogMem) (b : Nat) (v : Block) :
    (m.setCache b v).log = m.log := rfl

@[simp] lemma LogMem.setLh_lh (m : LogMem) (lh : List Nat) : (m.setLh lh).log.lh = lh := rfl

@[simp] lemma LogMem.setLh_cache (m : LogMem) (lh : List Nat) : (m.setLh lh).cache = m.cache := rfl

@[simp] lemma LogMem.setLh_start (m : LogMem) (lh : List Nat) :
    (m.setLh lh).log.start = m.log.start := rfl

def bread (b : Nat) : LogProg Block := do
  let m ← getMem
  match m.cache b with
  | some v => pure v
  | none =>
    let v ← readDisk b
    modifyMem fun m => m.setCache b v
    pure v

def bwrite (b : Nat) (v : Block) : LogProg Unit := do
  modifyMem fun m => m.setCache b v
  writeDisk b v

def toInt32 (v : Nat) : Int := if v < 2 ^ 31 then v else (v : Int) - 2 ^ 32

/-- The count in the header of the log. -/
def headN (hb : Block) : Nat := hb.field 0 4

def headBlock (hb : Block) (i : Nat) : Nat := hb.field (4 + 4 * i) 4

def putHeadBlocks (hb : Block) : Nat → List Nat → Block
  | _, [] => hb
  | i, b :: bs => putHeadBlocks (hb.setField (4 + 4 * i) 4 b) (i + 1) bs

def putHead (hb : Block) (lh : List Nat) : Block := putHeadBlocks (hb.setField 0 4 lh.length) 0 lh

def getHead (hb : Block) : List Nat := (List.range (toInt32 (headN hb)).toNat).map (headBlock hb)

/-- `for (tail = 0; tail < log.lh.n; tail++)`. The array `lh.block` has `LOGSIZE` entries. -/
def forTail (body : Nat → LogProg Unit) : LogProg Unit :=
  forBelow (fun m => m.log.lh.length) body logSize 0

def installTail (tail : Nat) : LogProg Unit := do
  let m ← getMem
  let lbuf ← bread (m.log.start + tail + 1)
  let _dbuf ← bread (m.log.lh.getD tail 0)
  bwrite (m.log.lh.getD tail 0) lbuf

def installTrans : LogProg Unit := forTail installTail

def readHead : LogProg Unit := do
  let m ← getMem
  let buf ← bread m.log.start
  modifyMem fun m => m.setLh (getHead buf)

def writeHead : LogProg Unit := do
  let m ← getMem
  let buf ← bread m.log.start
  bwrite m.log.start (putHead buf m.log.lh)

/-- `recover_from_log` of `log.c`. -/
def recoverFromLog : LogProg Unit := do
  readHead
  installTrans
  modifyMem fun m => m.setLh []
  writeHead

def initlog (sb : Superblock) : LogProg Unit := do
  modifyMem fun m => { m with log := { m.log with start := sb.logstart, size := sb.nlog } }
  recoverFromLog

def writeLogTail (tail : Nat) : LogProg Unit := do
  let m ← getMem
  let _to ← bread (m.log.start + tail + 1)
  let buf ← bread (m.log.lh.getD tail 0)
  bwrite (m.log.start + tail + 1) buf

def writeLog : LogProg Unit := forTail writeLogTail

def commit : LogProg Unit := do
  let m ← getMem
  if 0 < m.log.lh.length then
    writeLog
    writeHead
    installTrans
    modifyMem fun m => m.setLh []
    writeHead
  else
    pure ()

end Xv6
