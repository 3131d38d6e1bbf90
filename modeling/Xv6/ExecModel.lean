import Xv6.FsModel
import Xv6.VmModel

/-! `exec.c`, from the locked inode of the program on. The path was looked up and the inode is
locked, so that its file stays as it is. Strings are lists of bytes without the NUL. -/

namespace Xv6

open Kern

def maxarg : Nat := 32

def elfMagic : Nat := 0x464C457F

def elfProgLoad : Nat := 1

def leField (b : List UInt8) (off k : Nat) : Nat := Bytes.leNat ((b.drop off).take k)

/-- The fields of `struct elfhdr` that `exec` reads. -/
structure ElfHdr where
  magic : Nat
  entry : Nat
  phoff : Nat
  phnum : Nat

def elfhdrSize : Nat := 64

def ElfHdr.decode (b : List UInt8) : ElfHdr :=
  ⟨leField b 0 4, leField b 24 8, leField b 32 8, leField b 56 2⟩

structure ProgHdr where
  type : Nat
  flags : Nat
  off : Nat
  vaddr : Nat
  filesz : Nat
  memsz : Nat

def proghdrSize : Nat := 56

def ProgHdr.decode (b : List UInt8) : ProgHdr :=
  ⟨leField b 0 4, leField b 4 4, leField b 8 8, leField b 16 8, leField b 32 8, leField b 40 8⟩

/-- The permissions of a segment. -/
def flags2perm (flags : Nat) : Nat :=
  let perm := if has flags 1 then pteX else 0
  if has flags 2 then perm ||| pteW else perm

/-- The file system and the memory. -/
structure ExecSys where
  fs : Fs
  mem : Mem

structure ExecProc where
  pagetable : Nat
  sz : Nat
  trapframe : Nat
  name : List UInt8

namespace ExecSys

def onMem {α : Type} (k : Kern Mem α) : Kern ExecSys α := zoom mem (fun m s => { s with mem := m }) k

def read (ip : Nat) (off n : UInt32) : Kern ExecSys (Int × List UInt8) :=
  zoom fs (fun f s => { s with fs := f }) (readi ip kernelDst off n)

def loadsegLoop (pagetable va ip : Nat) (offset : UInt32) (sz : Nat) : List Nat → Kern ExecSys Int
  | [] => pure 0
  | i :: rest => do
    let pa ← onMem (walkaddr pagetable (u64 (va + i)))
    if pa = 0 then Kern.panic "loadseg: address should exist"
    else do
      let n := if sz - i < pgSize then sz - i else pgSize
      let (r, data) ← read ip (offset + .ofNat i) (.ofNat n)
      onMem (modifyState fun m => m.setPage pa ((m.page pa).patch 0 data))
      if r ≠ n then pure (-1) else loadsegLoop pagetable va ip offset sz rest

def loadseg (pagetable va ip : Nat) (offset sz : UInt32) : Kern ExecSys Int :=
  loadsegLoop pagetable va ip offset sz.toNat (pagesFrom 0 sz.toNat)

/-- The loop over `count` program headers from the offset `off` on. The flag is `false` at
`goto bad`; the size is that of the pages that are there. -/
def loadSegments (K : KernelImage) (pagetable ip : Nat) : Nat → UInt32 → Nat → Kern ExecSys (Bool × Nat)
  | 0, _, sz => pure (true, sz)
  | count + 1, off, sz => do
    let (r, b) ← read ip off (.ofNat proghdrSize)
    if r ≠ proghdrSize then pure (false, sz)
    else
      let ph := ProgHdr.decode b
      if ph.type ≠ elfProgLoad then loadSegments K pagetable ip count (off + .ofNat proghdrSize) sz
      else if ph.memsz < ph.filesz then pure (false, sz)
      else if u64 (ph.vaddr + ph.memsz) < ph.vaddr then pure (false, sz)
      else if ph.vaddr % pgSize ≠ 0 then pure (false, sz)
      else do
        let sz1 ← onMem (uvmalloc K pagetable sz (u64 (ph.vaddr + ph.memsz)) (flags2perm ph.flags))
        if sz1 = 0 then pure (false, sz)
        else do
          let e ← loadseg pagetable ph.vaddr ip (.ofNat ph.off) (.ofNat ph.filesz)
          if e < 0 then pure (false, sz1)
          else loadSegments K pagetable ip count (off + .ofNat proghdrSize) sz1

def bad (K : KernelImage) (pagetable sz : Nat) : Kern Mem Unit := procFreepagetable K pagetable sz

/-- Two pages behind the program: the guard and the stack. The new size, 0 after a failure. -/
def stackPages (K : KernelImage) (pagetable sz : Nat) : Kern Mem Nat := do
  let sz1 ← uvmalloc K pagetable sz (u64 (sz + 2 * pgSize)) pteW
  if sz1 = 0 then pure 0
  else do
    uvmclear pagetable (sz1 - 2 * pgSize)
    pure sz1

/-- Load the program. The entry point, the page table and the size, or `none` after `bad:`. -/
def load (K : KernelImage) (trapframe ip : Nat) : Kern ExecSys (Option (Nat × Nat × Nat)) := do
  let (r, b) ← read ip 0 (.ofNat elfhdrSize)
  if r ≠ elfhdrSize then pure none
  else
    let elf := ElfHdr.decode b
    if elf.magic ≠ elfMagic then pure none
    else
      match ← onMem (procPagetable K trapframe) with
      | none => pure none
      | some pagetable => do
        let (ok, sz) ← loadSegments K pagetable ip elf.phnum (.ofNat elf.phoff) 0
        if ok = false then do
          onMem (bad K pagetable sz)
          pure none
        else do
          let sz1 ← onMem (stackPages K pagetable (pgRoundUp sz))
          if sz1 = 0 then do
            onMem (bad K pagetable (pgRoundUp sz))
            pure none
          else pure (some (elf.entry, pagetable, sz1))

def pushSp (sp n : Nat) : Nat :=
  let sp := u64 (sp + 2 ^ 64 - n)
  sp - sp % 16

/-- The loop over `argv`; `argc` strings were pushed. It returns `sp` and the pointers. -/
def pushStrings (pagetable stackbase : Nat) :
    Nat → Nat → List (List UInt8) → Kern Mem (Option (Nat × List Nat))
  | _, sp, [] => pure (some (sp, []))
  | argc, sp, arg :: argv =>
    if maxarg ≤ argc then pure none
    else
      let sp := pushSp sp (arg.length + 1)
      if sp < stackbase then pure none
      else do
        let e ← copyout pagetable sp (arg ++ [0])
        if e < 0 then pure none
        else do
          let r ← pushStrings pagetable stackbase (argc + 1) sp argv
          match r with
          | none => pure none
          | some (sp', ustack) => pure (some (sp', sp :: ustack))

def pushArgs (pagetable sz : Nat) (argv : List (List UInt8)) : Kern Mem (Option Nat) := do
  let stackbase := sz - pgSize
  match ← pushStrings pagetable stackbase 0 sz argv with
  | none => pure none
  | some (sp, ustack) => do
    let sp := pushSp sp ((argv.length + 1) * 8)
    if sp < stackbase then pure none
    else do
      let e ← copyout pagetable sp ((ustack ++ [0]).flatMap (Bytes.leBytes 8))
      if e < 0 then pure none else pure (some sp)

def trapframeEpc : Nat := 24
def trapframeSp : Nat := 48
def trapframeA1 : Nat := 120

def commit (K : KernelImage) (p : ExecProc) (name : List UInt8) (entry pagetable sz sp : Nat) :
    Kern Mem ExecProc := do
  modifyState fun m =>
    m.setPage p.trapframe
      ((((m.page p.trapframe).setField trapframeA1 8 sp).setField trapframeEpc 8 entry).setField
    trapframeSp 8 sp)
  procFreepagetable K p.pagetable p.sz
  pure { p with pagetable := pagetable, sz := sz, name := name }

def progName (path : List UInt8) : List UInt8 := (path.reverse.takeWhile (· ≠ 47)).reverse.take 15

/-- The part of `exec` behind `namei`; `ip` is the locked inode of the file. -/
def exec (K : KernelImage) (p : ExecProc) (path : List UInt8) (ip : Nat)
    (argv : List (List UInt8)) : Kern ExecSys (Int × ExecProc) := do
  match ← load K p.trapframe ip with
  | none => pure (-1, p)
  | some (entry, pagetable, sz) => do
    match ← onMem (pushArgs pagetable sz argv) with
    | none => do
      onMem (bad K pagetable sz)
      pure (-1, p)
    | some sp => do
      let p' ← onMem (commit K p (progName path) entry pagetable sz sp)
      pure (argv.length, p')

end ExecSys

end Xv6
