import Xv6.DirModel

/-! `create`, `link` and `unlink` (`sysfile.c`), for process `p` with current
directory `cwd`. -/

namespace Xv6

open Kern

def dot : List UInt8 := [46]

def dotdot : List UInt8 := [46, 46]

namespace Dinode

def incNlink (d : Dinode) : Dinode := d.setNlink (d.nlink + 1)

def decNlink (d : Dinode) : Dinode := d.setNlink (d.nlink + (2 ^ 16 - 1))

lemma sameFile_decNlink (d : Dinode) : SameFile d d.decNlink := sameFile_setNlink d _

lemma sameFile_incNlink (d : Dinode) : SameFile d d.incNlink := sameFile_setNlink d _

end Dinode

def createDots (p dp ip : Nat) : FsProg Bool := do
  let inum ← fsStep (inumOf ip)
  let r ← dirlink p ip dot inum
  if r < 0 then pure false
  else
    let parent ← fsStep (inumOf dp)
    let r ← dirlink p ip dotdot parent
    pure (¬ r < 0)

def createName (p dp ip : Nat) (name : List UInt8) : FsProg Bool := do
  let inum ← fsStep (inumOf ip)
  let r ← dirlink p dp name inum
  pure (¬ r < 0)

def createLinks (p dp ip : Nat) (name : List UInt8) (type : Nat) : FsProg Bool :=
  if type = tDir then do
    let dots ← createDots p dp ip
    if dots then createName p dp ip name else pure false
  else createName p dp ip name

def createEntries (p dp ip : Nat) (name : List UInt8) (type : Nat) : FsProg (Option Nat) := do
  let ok ← createLinks p dp ip name type
  if ok then
    if type = tDir then
      Thread.step (.raiseLinks dp) (updateDin dp Dinode.incNlink)
      iunlockput p dp
      pure (some ip)
    else
      iunlockput p dp
      pure (some ip)
  else
    fsStep (updateDin ip fun d => d.setNlink 0)
    iunlockput p ip
    iunlockput p dp
    pure none

/-- `create` when the name exists. -/
def createOpen (p dp ip type : Nat) : FsProg (Option Nat) := do
  iunlockput p dp
  ilock p ip
  let t ← fsStep (typeOf ip)
  if type = tFile ∧ (t = tFile ∨ t = tDevice) then pure (some ip)
  else
    iunlockput p ip
    pure none

def create (p cwd : Nat) (path : List UInt8) (type major minor : Nat) : FsProg (Option Nat) := do
  match ← nameiparent p cwd path with
  | none => pure none
  | some (dp, name) =>
    ilock p dp
    match ← fsStep (dirlookup dp name) with
    | some (ip, _) => createOpen p dp ip type
    | none =>
      match ← fsStep (ialloc type) with
      | none =>
        iunlockput p dp
        pure none
      | some ip =>
        ilock p ip
        fsStep (updateDin ip fun d => ((d.setMajor major).setMinor minor).setNlink 1)
        createEntries p dp ip name type

def linkBad (p ip : Nat) : FsProg Int := do
  ilock p ip
  fsStep (updateDin ip Dinode.decNlink)
  iunlockput p ip
  fsStep Fs.endOp
  pure (-1)

def sysLink (p cwd : Nat) (old new : List UInt8) : FsProg Int := do
  fsStep Fs.beginOp
  match ← namei p cwd old with
  | none =>
    fsStep Fs.endOp
    pure (-1)
  | some ip =>
    ilock p ip
    let type ← fsStep (typeOf ip)
    if type = tDir then
      iunlockput p ip
      fsStep Fs.endOp
      pure (-1)
    else
      Thread.step (.raiseLinks ip) (updateDin ip Dinode.incNlink)
      iunlock p ip
      match ← nameiparent p cwd new with
      | none => linkBad p ip
      | some (dp, name) =>
        ilock p dp
        let inum ← fsStep (inumOf ip)
        let r ← dirlink p dp name inum
        if r < 0 then
          iunlockput p dp
          linkBad p ip
        else
          iunlockput p dp
          iput p ip
          fsStep Fs.endOp
          pure 0

/-- `isdirempty` of `sysfile.c`. -/
def isdirempty (dp : Nat) : Kern Fs Bool := do
  let s ← getState
  let hit ← dirScan dp "isdirempty: readi" (fun de => de.inum ≠ 0) (dirOffs 32 (s.itable dp).din.size)
  pure hit.isNone

def unlinkCheck (ip : Nat) : Kern Fs Bool := do
  let s ← getState
  if short (s.itable ip).din.nlink < 1 then Kern.panic "unlink: nlink < 1"
  else if (s.itable ip).din.type = tDir then isdirempty ip
  else pure true

def unlinkEntry (dp ip off : Nat) : Kern Fs Unit := do
  let r ← writei dp (kernelSrc (List.replicate 16 0)) (.ofNat off) 16
  if r ≠ 16 then Kern.panic "unlink: writei"
  else
    let s ← getState
    if (s.itable ip).din.type = tDir then updateDin dp Dinode.decNlink

def sysUnlink (p cwd : Nat) (path : List UInt8) : FsProg Int := do
  fsStep Fs.beginOp
  match ← nameiparent p cwd path with
  | none =>
    fsStep Fs.endOp
    pure (-1)
  | some (dp, name) =>
    ilock p dp
    if namecmp name dot = 0 ∨ namecmp name dotdot = 0 then
      iunlockput p dp
      fsStep Fs.endOp
      pure (-1)
    else
      match ← fsStep (dirlookup dp name) with
      | none =>
        iunlockput p dp
        fsStep Fs.endOp
        pure (-1)
      | some (ip, off) =>
        ilock p ip
        let ok ← fsStep (unlinkCheck ip)
        if ok then
          Thread.step (.clearEntry ip) (unlinkEntry dp ip off)
          iunlockput p dp
          fsStep (updateDin ip Dinode.decNlink)
          iunlockput p ip
          fsStep Fs.endOp
          pure 0
        else
          iunlockput p ip
          iunlockput p dp
          fsStep Fs.endOp
          pure (-1)

end Xv6
