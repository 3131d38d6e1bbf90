import Xv6.FsModel

/-! Inode locks, directories and path names (`fs.c`), as process `p` runs them. A
step is what runs between two operations on inode locks or on the inode table. A
path or a name is the list of its bytes without the final NUL. -/

namespace Xv6

open Kern

/-- Steps that a statement about runs may single out. -/
inductive FsStep where
  | quiet
  | addEntry (dp : Nat)
  | clearEntry (ip : Nat)
  | raiseLinks (ip : Nat)
  | dropRef (ip : Nat)
  deriving DecidableEq

abbrev FsProg := Thread FsStep Fs

def fsStep {α : Type} (k : Kern Fs α) : FsProg α := Thread.step .quiet k

def Fs.beginOp : Kern Fs Unit := modifyState fun s => { s with outstanding := s.outstanding + 1 }

def Fs.endOp : Kern Fs Unit := modifyState fun s =>
  { s with outstanding := s.outstanding - 1, logged := if s.outstanding = 1 then [] else s.logged }

def Fs.setLock (s : Fs) (ip : Nat) (l : Option Nat) : Fs := s.setInode ip { s.itable ip with lock := l }

def updateDin (ip : Nat) (f : Dinode → Dinode) : Kern Fs Unit := do
  modifyState fun s => s.setDin ip (f (s.itable ip).din)
  iupdate ip

def ilockLoad (ip : Nat) : Kern Fs Unit := do
  let s ← getState
  if (s.itable ip).valid = false then
    modifyState fun s =>
      s.setInode ip { s.itable ip with valid := true, din := s.dinode (s.itable ip).inum }
    if (s.dinode (s.itable ip).inum).type = 0 then Kern.panic "ilock: no type"

def ilockStep (p ip : Nat) : Kern Fs Unit := do
  let s ← getState
  if (s.itable ip).ref < 1 then Kern.panic "ilock"
  else
    modifyState fun s => s.setLock ip (some p)
    ilockLoad ip

def ilock (p ip : Nat) : FsProg Unit :=
  Thread.await .quiet (fun s => (s.itable ip).ref < 1 || (s.itable ip).lock.isNone) (ilockStep p ip)

def iunlockStep (p ip : Nat) : Kern Fs Unit := do
  let s ← getState
  if (s.itable ip).lock ≠ some p ∨ (s.itable ip).ref < 1 then Kern.panic "iunlock"
  else modifyState fun s => s.setLock ip none

def iunlock (p ip : Nat) : FsProg Unit := fsStep (iunlockStep p ip)

def Fs.dropRef (s : Fs) (ip : Nat) : Fs :=
  s.setInode ip { s.itable ip with ref := (s.itable ip).ref - 1 }

/-- `iput` up to the point where it knows whether to free the inode. It holds the
spin-lock of the inode table, so `acquiresleep` must not sleep. -/
def iputStart (p ip : Nat) : Kern Fs Bool := do
  let s ← getState
  if (s.itable ip).ref = 1 ∧ (s.itable ip).valid = true ∧ (s.itable ip).din.nlink = 0 then
    if (s.itable ip).lock.isSome then Kern.panic "sched locks"
    else
      modifyState fun s => s.setLock ip (some p)
      pure true
  else
    modifyState fun s => s.dropRef ip
    pure false

def iputFree (ip : Nat) : Kern Fs Unit := do
  itrunc ip
  updateDin ip fun d => d.setType 0
  modifyState fun s => s.setInode ip { s.itable ip with valid := false, lock := none }

def iput (p ip : Nat) : FsProg Unit := do
  let last ← fsStep (iputStart p ip)
  if last then
    fsStep (iputFree ip)
    Thread.step (.dropRef ip) (modifyState fun s => s.dropRef ip)

def iunlockput (p ip : Nat) : FsProg Unit := do
  iunlock p ip
  iput p ip

def typeOf (ip : Nat) : Kern Fs Nat := do
  let s ← getState
  pure (s.itable ip).din.type

def inumOf (ip : Nat) : Kern Fs Nat := do
  let s ← getState
  pure (s.itable ip).inum

def dirScan (dp : Nat) (msg : String) (hit : Dirent → Bool) : List Nat → Kern Fs (Option (Nat × Dirent))
  | [] => pure none
  | off :: offs => do
    let (r, data) ← readi dp kernelDst (.ofNat off) 16
    if r ≠ 16 then Kern.panic msg
    else if hit (getDirent data) then pure (some (off, getDirent data))
    else dirScan dp msg hit offs

def dirOffs (start size : Nat) : List Nat :=
  (List.range ((size - start + 15) / 16)).map (start + 16 * ·)

def dirlookup (dp : Nat) (name : List UInt8) : Kern Fs (Option (Nat × Nat)) := do
  let s ← getState
  if (s.itable dp).din.type ≠ tDir then Kern.panic "dirlookup not DIR"
  else
    let hit ← dirScan dp "dirlookup read" (fun de => de.inum ≠ 0 && namecmp name de.name = 0)
      (dirOffs 0 (s.itable dp).din.size)
    match hit with
    | some (off, de) => do
      let ip ← iget de.inum
      pure (some (ip, off))
    | none => pure none

def linkOff (size : Nat) : Option (Nat × Dirent) → Nat
  | some (off, _) => off
  | none => 16 * ((size + 15) / 16)

def dirlinkEntry (dp : Nat) (name : List UInt8) (inum : Nat) : Kern Fs Int := do
  let s ← getState
  let hit ← dirScan dp "dirlink read" (fun de => de.inum = 0) (dirOffs 0 (s.itable dp).din.size)
  let off := linkOff (s.itable dp).din.size hit
  let r ← writei dp (kernelSrc (putDirent inum name)) (.ofNat off) 16
  pure (if r ≠ 16 then -1 else 0)

def dirlink (p dp : Nat) (name : List UInt8) (inum : Nat) : FsProg Int := do
  match ← fsStep (dirlookup dp name) with
  | some (ip, _) =>
    iput p ip
    pure (-1)
  | none => Thread.step (.addEntry dp) (dirlinkEntry dp name inum)

def slash : UInt8 := 47

/-- The next element of a path and what follows it. -/
def skipelem (path : List UInt8) : Option (List UInt8 × List UInt8) :=
  match path.dropWhile (· = slash) with
  | [] => none
  | c :: l =>
    some (((c :: l).takeWhile (· ≠ slash)).take dirsiz,
      ((c :: l).dropWhile (· ≠ slash)).dropWhile (· = slash))

def pathElems : Nat → List UInt8 → List (List UInt8)
  | 0, _ => []
  | n + 1, path =>
    match skipelem path with
    | none => []
    | some (name, rest) => name :: pathElems n rest

def namexLoop (p : Nat) (parent : Bool) : Nat → List (List UInt8) → FsProg (Option (Nat × List UInt8))
  | ip, [] =>
    if parent then do
      iput p ip
      pure none
    else pure (some (ip, []))
  | ip, name :: rest => do
    ilock p ip
    let type ← fsStep (typeOf ip)
    if type ≠ tDir then
      iunlockput p ip
      pure none
    else if parent ∧ rest = [] then
      iunlock p ip
      pure (some (ip, name))
    else
      match ← fsStep (dirlookup ip name) with
      | none =>
        iunlockput p ip
        pure none
      | some (next, _) =>
        iunlockput p ip
        namexLoop p parent next rest

def namex (p cwd : Nat) (path : List UInt8) (parent : Bool) : FsProg (Option (Nat × List UInt8)) := do
  let ip ← fsStep (if path.head? = some slash then iget rootino else idup cwd)
  namexLoop p parent ip (pathElems path.length path)

def namei (p cwd : Nat) (path : List UInt8) : FsProg (Option Nat) := do
  let r ← namex p cwd path false
  pure (r.map Prod.fst)

def nameiparent (p cwd : Nat) (path : List UInt8) : FsProg (Option (Nat × List UInt8)) :=
  namex p cwd path true

end Xv6
