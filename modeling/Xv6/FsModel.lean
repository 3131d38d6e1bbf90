import Xv6.Lib.Kernel
import Xv6.FsLayout
import Xv6.LogProto

/-! Blocks, inodes and inode contents (`fs.c`). `disk` is what `bread` shows; one
device is mounted. Of the log it keeps `outstanding` and the header `lh`, which
`log_write` reads and extends as in `LogProto`. The code of this module runs under
the locks that its callers hold. -/

namespace Xv6

open Kern

def ninode : Nat := 50

structure Inode where
  inum : Nat
  ref : Nat
  lock : Option Nat
  valid : Bool
  din : Dinode

structure Fs where
  sb : Superblock
  disk : Disk
  outstanding : Nat
  logged : List Nat
  itable : Nat → Inode

def Fs.setBlock (s : Fs) (b : Nat) (v : Block) : Fs := { s with disk := Function.update s.disk b v }

def Fs.setInode (s : Fs) (ip : Nat) (v : Inode) : Fs :=
  { s with itable := Function.update s.itable ip v }

def Fs.setDin (s : Fs) (ip : Nat) (d : Dinode) : Fs := s.setInode ip { s.itable ip with din := d }

def Fs.dinode (s : Fs) (inum : Nat) : Dinode := getDinode (s.disk (iblock s.sb inum)) (inum % ipb)

def Fs.bit (s : Fs) (b : Nat) : Bool := getBit (s.disk (bblock s.sb b)) (b % bpb)

/-- `struct log` while no commit is on its way. -/
def Fs.log (s : Fs) : Log := ⟨s.sb.logstart, s.sb.nlog, s.outstanding, false, s.logged⟩

def Fs.logWrite (b : Nat) : Kern Fs Unit := do
  let s ← getState
  match Xv6.logWrite s.log b with
  | .ok l => modifyState fun s => { s with logged := l.lh }
  | .error msg => Kern.panic msg

def writeBlock (b : Nat) (v : Block) : Kern Fs Unit := do
  modifyState fun s => s.setBlock b v
  Fs.logWrite b

def bzero (b : Nat) : Kern Fs Unit := writeBlock b (Bytes.fill bsize 0)

def bblockInt (sb : Superblock) (b : Nat) : Nat :=
  (((toInt32 b).tdiv bpb + sb.bmapstart) % 2 ^ 32).toNat

def freeBit (s : Fs) (b : Nat) : Option Nat :=
  (List.range bpb).find? fun bi =>
    (b + bi) % 2 ^ 32 < s.sb.size && !getBit (s.disk (bblockInt s.sb b)) bi

def firstFree (s : Fs) : Option (Nat × Nat) :=
  (List.range (s.sb.size / bpb + 1)).findSome? fun k =>
    (freeBit s (k * bpb)).map fun bi => (k * bpb, bi)

def balloc : Kern Fs Nat := do
  let s ← getState
  match firstFree s with
  | some (b, bi) =>
    writeBlock (bblockInt s.sb b) (setBit (s.disk (bblockInt s.sb b)) bi)
    bzero ((b + bi) % 2 ^ 32)
    pure ((b + bi) % 2 ^ 32)
  | none => pure 0

def bfree (b : Nat) : Kern Fs Unit := do
  let s ← getState
  if s.bit b = false then Kern.panic "freeing free block"
  else writeBlock (bblock s.sb b) (clearBit (s.disk (bblock s.sb b)) (b % bpb))

def iupdate (ip : Nat) : Kern Fs Unit := do
  let s ← getState
  let i := (s.itable ip).inum
  writeBlock (iblock s.sb i) (setDinode (s.disk (iblock s.sb i)) (i % ipb) (s.itable ip).din)

/-- A slot for the inode, without reading it. -/
def iget (inum : Nat) : Kern Fs Nat := do
  let s ← getState
  match (List.range ninode).find? fun ip => 0 < (s.itable ip).ref && (s.itable ip).inum = inum with
  | some ip =>
    modifyState fun s => s.setInode ip { s.itable ip with ref := (s.itable ip).ref + 1 }
    pure ip
  | none =>
    match (List.range ninode).find? fun ip => (s.itable ip).ref = 0 with
    | some ip =>
      modifyState fun s => s.setInode ip { s.itable ip with inum := inum, ref := 1, valid := false }
      pure ip
    | none => Kern.panic "iget: no inodes"

def idup (ip : Nat) : Kern Fs Nat := do
  modifyState fun s => s.setInode ip { s.itable ip with ref := (s.itable ip).ref + 1 }
  pure ip

/-- The first inode with type 0. -/
def ialloc (type : Nat) : Kern Fs (Option Nat) := do
  let s ← getState
  match (List.range' 1 (s.sb.ninodes - 1)).find? fun inum => (s.dinode inum).type = 0 with
  | some inum =>
    writeBlock (iblock s.sb inum)
      (setDinode (s.disk (iblock s.sb inum)) (inum % ipb) (Dinode.zero.setType type))
    let ip ← iget inum
    pure (some ip)
  | none => pure none

def bmapAddr (ip i : Nat) : Kern Fs Nat := do
  let s ← getState
  if (s.itable ip).din.addrs i = 0 then
    let addr ← balloc
    if addr = 0 then pure 0
    else
      modifyState fun s => s.setDin ip ((s.itable ip).din.setAddr i addr)
      pure addr
  else pure ((s.itable ip).din.addrs i)

def bmapWord (b bn : Nat) : Kern Fs Nat := do
  let s ← getState
  if getWord (s.disk b) bn = 0 then
    let addr ← balloc
    if addr = 0 then pure 0
    else
      let s ← getState
      writeBlock b (setWord (s.disk b) bn addr)
      pure addr
  else pure (getWord (s.disk b) bn)

def bmap (ip bn : Nat) : Kern Fs Nat := do
  if bn < ndirect then bmapAddr ip bn
  else if bn - ndirect < nindirect then
    let addr ← bmapAddr ip ndirect
    if addr = 0 then pure 0 else bmapWord addr (bn - ndirect)
  else Kern.panic "bmap: out of range"

def itruncIndirect (ip : Nat) : Kern Fs Unit := do
  let s ← getState
  let ind := (s.itable ip).din.addrs ndirect
  if ind ≠ 0 then
    forEach (fun j => do
      let s ← getState
      if getWord (s.disk ind) j ≠ 0 then bfree (getWord (s.disk ind) j)) (List.range nindirect)
    bfree ind
    modifyState fun s => s.setDin ip ((s.itable ip).din.setAddr ndirect 0)

/-- All blocks of the file are freed. -/
def itrunc (ip : Nat) : Kern Fs Unit := do
  forEach (fun i => do
    let s ← getState
    if (s.itable ip).din.addrs i ≠ 0 then
      bfree ((s.itable ip).din.addrs i)
      modifyState fun s => s.setDin ip ((s.itable ip).din.setAddr i 0)) (List.range ndirect)
  itruncIndirect ip
  modifyState fun s => s.setDin ip ((s.itable ip).din.setSize 0)
  iupdate ip

abbrev Src := Nat → Option UInt8

def kernelSrc (l : List UInt8) : Src := fun i => some (l.getD i 0)

/-- The bytes that `either_copyin` has copied when it returns; on a fault fewer than `len`. -/
def eitherCopyin (src : Src) (pos : Nat) : Nat → List UInt8
  | 0 => []
  | len + 1 =>
    match src pos with
    | none => []
    | some v => v :: eitherCopyin src (pos + 1) len

abbrev Dst := Nat → Bool

def kernelDst : Dst := fun _ => true

def eitherCopyout (dst : Dst) (pos : Nat) : List UInt8 → List UInt8
  | [] => []
  | v :: l => if dst pos then v :: eitherCopyout dst (pos + 1) l else []

/-- The loop of `readi`; `rem` is `n - tot`. With `tot` it returns what was copied out. -/
def readLoop (ip : Nat) (dst : Dst) (rem off tot : Nat) (out : List UInt8) :
    Kern Fs (Int × List UInt8) := do
  if _h : rem = 0 then pure (tot, out)
  else
    let addr ← bmap ip (off / bsize)
    if addr = 0 then pure (tot, out)
    else
      let s ← getState
      let m := min rem (bsize - off % bsize)
      let data := eitherCopyout dst tot ((s.disk addr).slice (off % bsize) m)
      if data.length < m then pure (-1, out ++ data)
      else readLoop ip dst (rem - m) (off + m) (tot + m) (out ++ data)
termination_by rem
decreasing_by
  have hm : off % bsize < bsize := Nat.mod_lt _ (by decide)
  omega

def readi (ip : Nat) (dst : Dst) (off n : UInt32) : Kern Fs (Int × List UInt8) := do
  let s ← getState
  let size := (s.itable ip).din.size
  if off.toNat > size ∨ off + n < off then pure (0, [])
  else if (off + n).toNat > size then readLoop ip dst (size - off.toNat) off.toNat 0 []
  else readLoop ip dst n.toNat off.toNat 0 []

def writeLoop (ip : Nat) (src : Src) (rem off tot : Nat) : Kern Fs (Nat × Nat) := do
  if _h : rem = 0 then pure (tot, off)
  else
    let addr ← bmap ip (off / bsize)
    if addr = 0 then pure (tot, off)
    else
      let m := min rem (bsize - off % bsize)
      let data := eitherCopyin src tot m
      modifyState fun s => s.setBlock addr ((s.disk addr).patch (off % bsize) data)
      if data.length < m then pure (tot, off)
      else
        Fs.logWrite addr
        writeLoop ip src (rem - m) (off + m) (tot + m)
termination_by rem
decreasing_by
  have hm : off % bsize < bsize := Nat.mod_lt _ (by decide)
  omega

def writei (ip : Nat) (src : Src) (off n : UInt32) : Kern Fs Int := do
  let s ← getState
  if off.toNat > (s.itable ip).din.size ∨ off + n < off then pure (-1)
  else if (off + n).toNat > maxfile * bsize then pure (-1)
  else
    let (tot, off) ← writeLoop ip src n.toNat off.toNat 0
    let s ← getState
    if off > (s.itable ip).din.size then
      modifyState fun s => s.setDin ip ((s.itable ip).din.setSize off)
    iupdate ip
    pure tot

end Xv6
