import Xv6.SysfileModel
import Xv6.PipeModel
import Xv6.SchedModel

/-! Open files and the system calls on them (`file.c`, `pipealloc` and `pipeclose`,
`sysfile.c`, and what `fork`, `exit` and `wait` do to descriptors and current
directories). A process runs each call without another one in between. What user memory,
the page allocator and device drivers do is an argument: a path that `argstr` cannot
fetch is `none`. -/

namespace Xv6

open Kern
open Function (update)

def nfile : Nat := 100

def nofile : Nat := 16

def nproc : Nat := 64

def ndev : Nat := 10

def oRdonly : UInt32 := 0x000

def oWronly : UInt32 := 0x001

def oRdwr : UInt32 := 0x002

def oCreate : UInt32 := 0x200

def oTrunc : UInt32 := 0x400

/-- The type of a `struct file`. -/
inductive FdType where
  | none | pipe | inode | device
  deriving DecidableEq

structure File where
  type : FdType
  ref : Nat
  readable : Bool
  writable : Bool
  pipe : Nat
  ip : Nat
  off : UInt32
  major : Nat

structure Proc where
  state : ProcState
  pid : Nat
  ofile : Nat → Option Nat
  cwd : Option Nat

/-- `pipes k` is the `k`-th page that `pipealloc` was given, `freed k` how often it went
to `kfree`. -/
structure Sys where
  fs : Fs
  file : Nat → File
  npipe : Nat
  pipes : Nat → Pipe
  freed : Nat → Nat
  proc : Nat → Proc
  nextpid : Nat

/-- A system call: a thread over the whole system. -/
abbrev SysProg := Thread FsStep Sys

def sysStep {α : Type} (k : Kern Sys α) : SysProg α := Thread.step .quiet k

def onFs {α : Type} (t : FsProg α) : SysProg α := t.zoom Sys.fs fun fs s => { s with fs := fs }

namespace Sys

def setFile (s : Sys) (f : Nat) (v : File) : Sys := { s with file := update s.file f v }

def setProc (s : Sys) (p : Nat) (v : Proc) : Sys := { s with proc := update s.proc p v }

def setOfile (s : Sys) (p fd : Nat) (v : Option Nat) : Sys :=
  s.setProc p { s.proc p with ofile := update (s.proc p).ofile fd v }

def setPipe (s : Sys) (k : Nat) (v : Pipe) : Sys := { s with pipes := update s.pipes k v }

end Sys

def filealloc : Kern Sys (Option Nat) := do
  let s ← getState
  match (List.range nfile).find? fun f => (s.file f).ref = 0 with
  | some f =>
    modifyState fun s => s.setFile f { s.file f with ref := 1 }
    pure (some f)
  | none => pure none

def filedup (f : Nat) : Kern Sys Nat := do
  let s ← getState
  if (s.file f).ref < 1 then Kern.panic "filedup"
  else
    modifyState fun s => s.setFile f { s.file f with ref := (s.file f).ref + 1 }
    pure f

/-- What `fileclose` does with the file table. It returns the file that has lost its last
reference. -/
def filecloseRef (f : Nat) : Kern Sys (Option File) := do
  let s ← getState
  if (s.file f).ref < 1 then Kern.panic "fileclose"
  else if (s.file f).ref - 1 > 0 then
    modifyState fun s => s.setFile f { s.file f with ref := (s.file f).ref - 1 }
    pure none
  else
    modifyState fun s => s.setFile f { s.file f with ref := 0, type := .none }
    pure (some (s.file f))

def kfreePipe (k : Nat) : Kern Sys Unit := modifyState fun s =>
  { s with freed := update s.freed k (s.freed k + 1) }

def Sys.pipeclose (k : Nat) (writable : Bool) : Kern Sys Unit := do
  modifyState fun s => s.setPipe k ((s.pipes k).close writable)
  let s ← getState
  if (s.pipes k).readopen = false ∧ (s.pipes k).writeopen = false then kfreePipe k

def fileclose (p f : Nat) : SysProg Unit := do
  match ← sysStep (filecloseRef f) with
  | none => pure ()
  | some ff =>
    match ff.type with
    | .pipe => sysStep (Sys.pipeclose ff.pipe ff.writable)
    | .inode | .device =>
      onFs do
        fsStep Fs.beginOp
        iput p ff.ip
        fsStep Fs.endOp
    | .none => pure ()

def fileread (p f : Nat) (dst : Dst) (n : UInt32) (ext : Int) : SysProg Int := do
  let s ← sysStep getState
  let ff := s.file f
  if ff.readable = false then pure (-1)
  else
    match ff.type with
    | .pipe => pure ext
    | .device => if short ff.major < 0 ∨ short ff.major ≥ ndev then pure (-1) else pure ext
    | .inode =>
      onFs (ilock p ff.ip)
      let (r, _) ← onFs (fsStep (readi ff.ip dst ff.off n))
      if r > 0 then
        sysStep (modifyState fun s => s.setFile f { s.file f with
          off := (s.file f).off + .ofNat r.toNat })
      onFs (iunlock p ff.ip)
      pure r
    | .none => sysStep (Kern.panic "fileread")

def writeMax : Nat := (maxOpBlocks - 1 - 1 - 2) / 2 * bsize

def filewriteLoop (p f ip : Nat) (src : Src) (rem i : Nat) : SysProg Nat :=
  if _h : rem = 0 then pure i
  else do
    let n1 := min rem writeMax
    onFs (fsStep Fs.beginOp)
    onFs (ilock p ip)
    let s ← sysStep getState
    let r ← onFs (fsStep (writei ip (fun k => src (i + k)) (s.file f).off (.ofNat n1)))
    if r > 0 then
      sysStep (modifyState fun s => s.setFile f { s.file f with
        off := (s.file f).off + .ofNat r.toNat })
    onFs (iunlock p ip)
    onFs (fsStep Fs.endOp)
    if r ≠ n1 then pure i else filewriteLoop p f ip src (rem - n1) (i + n1)
termination_by rem
decreasing_by
  have hpos : 0 < writeMax := by decide
  omega

def filewrite (p f : Nat) (src : Src) (n : Int) (ext : Int) : SysProg Int := do
  let s ← sysStep getState
  let ff := s.file f
  if ff.writable = false then pure (-1)
  else
    match ff.type with
    | .pipe => pure ext
    | .device => if short ff.major < 0 ∨ short ff.major ≥ ndev then pure (-1) else pure ext
    | .inode => do
      let i ← filewriteLoop p f ff.ip src n.toNat 0
      pure (if (i : Int) = n then n else -1)
    | .none => sysStep (Kern.panic "filewrite")

def argfd (p : Nat) (fd : Int) : Kern Sys (Option (Nat × Nat)) := do
  let s ← getState
  if fd < 0 ∨ fd ≥ nofile then pure none
  else pure (((s.proc p).ofile fd.toNat).map fun f => (fd.toNat, f))

/-- The first free descriptor of the process. -/
def fdalloc (p f : Nat) : Kern Sys (Option Nat) := do
  let s ← getState
  match (List.range nofile).find? fun fd => ((s.proc p).ofile fd).isNone with
  | some fd =>
    modifyState fun s => s.setOfile p fd (some f)
    pure (some fd)
  | none => pure none

def cwdOf (p : Nat) : Kern Sys Nat := do
  let s ← getState
  pure ((s.proc p).cwd.getD 0)

def sysDup (p : Nat) (fd : Int) : SysProg Int := do
  match ← sysStep (argfd p fd) with
  | none => pure (-1)
  | some (_, f) =>
    match ← sysStep (fdalloc p f) with
    | none => pure (-1)
    | some fd =>
      let _ ← sysStep (filedup f)
      pure fd

def sysRead (p : Nat) (fd : Int) (dst : Dst) (n : UInt32) (ext : Int) : SysProg Int := do
  match ← sysStep (argfd p fd) with
  | none => pure (-1)
  | some (_, f) => fileread p f dst n ext

def sysWrite (p : Nat) (fd : Int) (src : Src) (n : Int) (ext : Int) : SysProg Int := do
  match ← sysStep (argfd p fd) with
  | none => pure (-1)
  | some (_, f) => filewrite p f src n ext

def sysClose (p : Nat) (fd : Int) : SysProg Int := do
  match ← sysStep (argfd p fd) with
  | none => pure (-1)
  | some (fd, f) =>
    sysStep (modifyState fun s => s.setOfile p fd none)
    fileclose p f
    pure 0

def openPath (p cwd : Nat) (path : List UInt8) (omode : UInt32) : FsProg (Option Nat) :=
  if omode &&& oCreate ≠ 0 then create p cwd path tFile 0 0
  else do
    match ← namei p cwd path with
    | none => pure none
    | some ip =>
      ilock p ip
      let type ← fsStep (typeOf ip)
      if type = tDir ∧ omode ≠ oRdonly then
        iunlockput p ip
        pure none
      else pure (some ip)

def badMajor (ip : Nat) : Kern Fs Bool := do
  let s ← getState
  let d := (s.itable ip).din
  pure (decide (d.type = tDevice ∧ (short d.major < 0 ∨ short d.major ≥ ndev)))

def openFail (p ip : Nat) : FsProg Unit := do
  iunlockput p ip
  fsStep Fs.endOp

def openInode (p cwd : Nat) (path : List UInt8) (omode : UInt32) : FsProg (Option Nat) := do
  fsStep Fs.beginOp
  match ← openPath p cwd path omode with
  | none =>
    fsStep Fs.endOp
    pure none
  | some ip =>
    if ← fsStep (badMajor ip) then
      openFail p ip
      pure none
    else pure (some ip)

def openTrunc (ip : Nat) (omode : UInt32) : Kern Fs Unit := do
  let s ← getState
  if omode &&& oTrunc ≠ 0 ∧ (s.itable ip).din.type = tFile then itrunc ip

def openDone (p ip : Nat) (omode : UInt32) : FsProg Unit := do
  fsStep (openTrunc ip omode)
  iunlock p ip
  fsStep Fs.endOp

def openFile (f ip : Nat) (omode : UInt32) : Kern Sys Unit := modifyState fun s =>
  let d := (s.fs.itable ip).din
  let rw : File := { s.file f with
    ip := ip
    readable := omode &&& oWronly = 0
    writable := omode &&& oWronly ≠ 0 ∨ omode &&& oRdwr ≠ 0 }
  s.setFile f (if d.type = tDevice then { rw with type := .device, major := d.major }
    else { rw with type := .inode, off := 0 })

def sysOpen (p : Nat) (path : Option (List UInt8)) (omode : UInt32) : SysProg Int :=
  match path with
  | none => pure (-1)
  | some path => do
    let cwd ← sysStep (cwdOf p)
    match ← onFs (openInode p cwd path omode) with
    | none => pure (-1)
    | some ip =>
      match ← sysStep filealloc with
      | none =>
        onFs (openFail p ip)
        pure (-1)
      | some f =>
        match ← sysStep (fdalloc p f) with
        | none =>
          fileclose p f
          onFs (openFail p ip)
          pure (-1)
        | some fd =>
          sysStep (openFile f ip omode)
          onFs (openDone p ip omode)
          pure fd

/-- What `sys_mkdir` and `sys_mknod` share. -/
def sysMake (p : Nat) (path : Option (List UInt8)) (type major minor : Nat) : SysProg Int := do
  onFs (fsStep Fs.beginOp)
  match path with
  | none =>
    onFs (fsStep Fs.endOp)
    pure (-1)
  | some path =>
    let cwd ← sysStep (cwdOf p)
    match ← onFs (create p cwd path type major minor) with
    | none =>
      onFs (fsStep Fs.endOp)
      pure (-1)
    | some ip =>
      onFs (iunlockput p ip)
      onFs (fsStep Fs.endOp)
      pure 0

def sysMkdir (p : Nat) (path : Option (List UInt8)) : SysProg Int := sysMake p path tDir 0 0

def sysMknod (p : Nat) (path : Option (List UInt8)) (major minor : Nat) : SysProg Int :=
  sysMake p path tDevice major minor

def sysChdir (p : Nat) (path : Option (List UInt8)) : SysProg Int := do
  onFs (fsStep Fs.beginOp)
  match path with
  | none =>
    onFs (fsStep Fs.endOp)
    pure (-1)
  | some path =>
    let cwd ← sysStep (cwdOf p)
    match ← onFs (namei p cwd path) with
    | none =>
      onFs (fsStep Fs.endOp)
      pure (-1)
    | some ip =>
      onFs (ilock p ip)
      let type ← onFs (fsStep (typeOf ip))
      if type ≠ tDir then
        onFs (iunlockput p ip)
        onFs (fsStep Fs.endOp)
        pure (-1)
      else
        onFs (iunlock p ip)
        onFs (iput p cwd)
        onFs (fsStep Fs.endOp)
        sysStep (modifyState fun s => s.setProc p { s.proc p with cwd := some ip })
        pure 0

def Sys.withPipe (s : Sys) (f0 f1 : Nat) : Sys :=
  let pi : Pipe := { s.pipes s.npipe with readopen := true, writeopen := true, nwrite := 0, nread := 0 }
  let s' := { s.setPipe s.npipe pi with npipe := s.npipe + 1 }
  let s'' := s'.setFile f0 { s'.file f0 with
    type := .pipe, readable := true, writable := false, pipe := s.npipe }
  s''.setFile f1 { s''.file f1 with
    type := .pipe, readable := false, writable := true, pipe := s.npipe }

def pipealloc (p : Nat) (page : Bool) : SysProg (Option (Nat × Nat)) := do
  match ← sysStep filealloc with
  | none => pure none
  | some f0 =>
    match ← sysStep filealloc with
    | none =>
      fileclose p f0
      pure none
    | some f1 =>
      if page then
        sysStep (modifyState fun s => s.withPipe f0 f1)
        pure (some (f0, f1))
      else
        fileclose p f0
        fileclose p f1
        pure none

def sysPipe (p : Nat) (page out0 out1 : Bool) : SysProg Int := do
  match ← pipealloc p page with
  | none => pure (-1)
  | some (rf, wf) =>
    match ← sysStep (fdalloc p rf) with
    | none =>
      fileclose p rf
      fileclose p wf
      pure (-1)
    | some fd0 =>
      match ← sysStep (fdalloc p wf) with
      | none =>
        sysStep (modifyState fun s => s.setOfile p fd0 none)
        fileclose p rf
        fileclose p wf
        pure (-1)
      | some fd1 =>
        if out0 && out1 then pure 0
        else
          sysStep (modifyState fun s => s.setOfile p fd0 none)
          sysStep (modifyState fun s => s.setOfile p fd1 none)
          fileclose p rf
          fileclose p wf
          pure (-1)

def allocproc : Kern Sys (Option Nat) := do
  let s ← getState
  match (List.range nproc).find? fun q => (s.proc q).state = .unused with
  | some q =>
    modifyState fun s => { s.setProc q { s.proc q with state := .used, pid := s.nextpid } with
      nextpid := s.nextpid + 1 }
    pure (some q)
  | none => pure none

def freeproc (q : Nat) : Kern Sys Unit := modifyState fun s =>
  s.setProc q { s.proc q with state := .unused, pid := 0 }

def forkFiles (p q : Nat) : List Nat → SysProg Unit
  | [] => pure ()
  | fd :: fds => do
    let s ← sysStep getState
    match (s.proc p).ofile fd with
    | none => forkFiles p q fds
    | some f =>
      let f ← sysStep (filedup f)
      sysStep (modifyState fun s => s.setOfile q fd (some f))
      forkFiles p q fds

/-- `fork`; `mem` says whether `allocproc` and `uvmcopy` get the pages that they ask for. -/
def fork (p : Nat) (mem : Bool) : SysProg Int := do
  match ← sysStep allocproc with
  | none => pure (-1)
  | some q =>
    if mem then
      forkFiles p q (List.range nofile)
      let cwd ← sysStep (cwdOf p)
      let cwd ← onFs (fsStep (idup cwd))
      sysStep (modifyState fun s => s.setProc q { s.proc q with cwd := some cwd })
      let s ← sysStep getState
      sysStep (modifyState fun s => s.setProc q { s.proc q with state := .runnable })
      pure (s.proc q).pid
    else
      sysStep (freeproc q)
      pure (-1)

/-- The part of `exit` that closes the files. -/
def exitFiles (p : Nat) : List Nat → SysProg Unit
  | [] => pure ()
  | fd :: fds => do
    let s ← sysStep getState
    match (s.proc p).ofile fd with
    | none => exitFiles p fds
    | some f =>
      fileclose p f
      sysStep (modifyState fun s => s.setOfile p fd none)
      exitFiles p fds

def exit (p : Nat) : SysProg Int :=
  if p = 0 then sysStep (Kern.panic "init exiting")
  else do
    exitFiles p (List.range nofile)
    onFs (fsStep Fs.beginOp)
    let cwd ← sysStep (cwdOf p)
    onFs (iput p cwd)
    onFs (fsStep Fs.endOp)
    sysStep (modifyState fun s => s.setProc p { s.proc p with cwd := none })
    sysStep (modifyState fun s => s.setProc p { s.proc p with state := .zombie })
    pure 0

def reap (q : Nat) : SysProg Int := do
  let s ← sysStep getState
  if (s.proc q).state = .zombie then
    sysStep (freeproc q)
    pure (s.proc q).pid
  else pure (-1)

def userinit : SysProg Unit := do
  match ← sysStep allocproc with
  | none => pure ()
  | some q =>
    let cwd ← onFs (namei q 0 [slash])
    sysStep (modifyState fun s => s.setProc q { s.proc q with cwd := cwd })
    sysStep (modifyState fun s => s.setProc q { s.proc q with state := .runnable })

end Xv6
