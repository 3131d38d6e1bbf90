import Xv6.Lib.Bytes
import Xv6.Lib.Kernel

/-! `kalloc.c`, `vm.c` and the page tables of `proc.c`. A physical page is its address
and its 4096 bytes; `kmem.freelist` is the list of its pages. Addresses are `Nat`, with
`u64` where a sum of the source may wrap. -/

namespace Xv6

open Kern

def pgSize : Nat := 4096

def maxVa : Nat := 2 ^ (9 + 9 + 9 + 12 - 1)

def kernBase : Nat := 0x80000000

def physTop : Nat := kernBase + 128 * 1024 * 1024

def trampolineVa : Nat := maxVa - pgSize

def trapframeVa : Nat := trampolineVa - pgSize

/-- Addresses are 64 bits. -/
def u64 (n : Nat) : Nat := n % 2 ^ 64

def pgRoundUp (sz : Nat) : Nat := u64 (sz + pgSize - 1) / pgSize * pgSize

def pgRoundDown (a : Nat) : Nat := a / pgSize * pgSize

def pteV : Nat := 1
def pteR : Nat := 2
def pteW : Nat := 4
def pteX : Nat := 8
def pteU : Nat := 16

def has (pte flags : Nat) : Bool := pte &&& flags != 0

def pa2Pte (pa : Nat) : Nat := (pa >>> 12) <<< 10

def pte2Pa (pte : Nat) : Nat := (pte >>> 10) <<< 12

def pteFlags (pte : Nat) : Nat := pte &&& 0x3ff

/-- `PX` of `riscv.h`. -/
def px (level va : Nat) : Nat := (va >>> (12 + 9 * level)) &&& 0x1ff

/-- What the linker fixes: `end` and the address of the trampoline code. -/
structure KernelImage where
  kend : Nat
  trampoline : Nat
  base_le : kernBase ≤ kend
  end_le : kend ≤ physTop
  trampoline_lt : trampoline < physTop

structure Mem where
  freelist : List Nat
  page : Nat → Bytes 4096
  /-- Which of the next calls of `kalloc` return 0 although the list is not empty. -/
  deny : Nat → Bool
  calls : Nat

namespace Mem

def setPage (m : Mem) (pa : Nat) (b : Bytes 4096) : Mem :=
  { m with page := Function.update m.page pa b }

@[simp] lemma page_setPage_self (m : Mem) (pa : Nat) (b : Bytes 4096) : (m.setPage pa b).page pa = b :=
  Function.update_self ..

lemma page_setPage_of_ne (m : Mem) {pa q : Nat} (b : Bytes 4096) (h : q ≠ pa) :
    (m.setPage pa b).page q = m.page q :=
  Function.update_of_ne h ..

def pte (m : Mem) (table i : Nat) : Nat := (m.page table).field (8 * i) 8

def setPte (m : Mem) (table i v : Nat) : Mem := m.setPage table ((m.page table).setField (8 * i) 8 v)

end Mem

def kalloc : Kern Mem (Option Nat) := fun m =>
  let m' := { m with calls := m.calls + 1 }
  match m.deny m.calls, m.freelist with
  | false, r :: rest => .ok (some r, { m' with freelist := rest }.setPage r (Bytes.fill 4096 5))
  | _, _ => .ok (none, m')

def kfree (K : KernelImage) (pa : Nat) : Kern Mem Unit :=
  if pa % pgSize ≠ 0 ∨ pa < K.kend ∨ physTop ≤ pa then Kern.panic "kfree"
  else modifyState fun m => { m with freelist := pa :: m.freelist }.setPage pa (Bytes.fill 4096 1)

/-- The pages of the loop of `freerange`. -/
def pagesFrom (lo hi : Nat) : List Nat :=
  (List.range ((hi - lo + (pgSize - 1)) / pgSize)).map fun i => lo + i * pgSize

def memset (pa : Nat) (v : UInt8) : Kern Mem Unit :=
  modifyState fun m => m.setPage pa (Bytes.fill 4096 v)

def readPte (table i : Nat) : Kern Mem Nat := do
  let m ← getState
  pure (m.pte table i)

def writePte (table i v : Nat) : Kern Mem Unit := modifyState fun m => m.setPte table i v

/-- The loop of `walk` from `level` down. A place of a PTE is its table and its index. -/
def walkFrom (alloc : Bool) (va : Nat) : Nat → Nat → Kern Mem (Option (Nat × Nat))
  | 0, table => pure (some (table, px 0 va))
  | level + 1, table => do
    let pte ← readPte table (px (level + 1) va)
    if has pte pteV then walkFrom alloc va level (pte2Pa pte)
    else if alloc then do
      let r ← kalloc
      match r with
      | none => pure none
      | some page => do
        memset page 0
        writePte table (px (level + 1) va) (pa2Pte page ||| pteV)
        walkFrom alloc va level page
    else pure none

def walk (pagetable va : Nat) (alloc : Bool) : Kern Mem (Option (Nat × Nat)) :=
  if maxVa ≤ va then Kern.panic "walk" else walkFrom alloc va 2 pagetable

/-- The page of a user address, or 0. -/
def walkaddr (pagetable va : Nat) : Kern Mem Nat :=
  if maxVa ≤ va then pure 0
  else do
    let r ← walk pagetable va false
    match r with
    | none => pure 0
    | some (table, i) => do
      let pte ← readPte table i
      if has pte pteV = false then pure 0
      else if has pte pteU = false then pure 0
      else pure (pte2Pa pte)

/-- The loop of `mappages`. -/
def mapLoop (pagetable perm : Nat) : Nat → Nat → Nat → Kern Mem Int
  | more, a, pa => do
    let r ← walk pagetable a true
    match r with
    | none => pure (-1)
    | some (table, i) => do
      let pte ← readPte table i
      if has pte pteV then Kern.panic "mappages: remap"
      else do
        writePte table i (pa2Pte pa ||| perm ||| pteV)
        match more with
        | 0 => pure 0
        | more + 1 => mapLoop pagetable perm more (u64 (a + pgSize)) (u64 (pa + pgSize))

def mappages (pagetable va size pa perm : Nat) : Kern Mem Int :=
  if size = 0 then Kern.panic "mappages: size"
  else
    let a := pgRoundDown va
    let last := pgRoundDown (u64 (va + size - 1))
    -- `a` reaches `last` after this many rounds.
    mapLoop pagetable perm (u64 (last + 2 ^ 64 - a) / pgSize) a pa

def freeIf (K : KernelImage) (doFree : Bool) (pa : Nat) : Kern Mem Unit :=
  if doFree then kfree K pa else pure ()

def unmapPage (K : KernelImage) (pagetable : Nat) (doFree : Bool) (a : Nat) : Kern Mem Unit := do
  let r ← walk pagetable a false
  match r with
  | none => Kern.panic "uvmunmap: walk"
  | some (table, i) => do
    let pte ← readPte table i
    if has pte pteV = false then Kern.panic "uvmunmap: not mapped"
    else if pteFlags pte = pteV then Kern.panic "uvmunmap: not a leaf"
    else do
      freeIf K doFree (pte2Pa pte)
      writePte table i 0

/-- `uvmunmap` of `vm.c`, with its panics. -/
def uvmunmap (K : KernelImage) (pagetable va npages : Nat) (doFree : Bool) : Kern Mem Unit :=
  if va % pgSize ≠ 0 then Kern.panic "uvmunmap: not aligned"
  else forEach (unmapPage K pagetable doFree) (pagesFrom va (u64 (va + npages * pgSize)))

def uvmcreate : Kern Mem (Option Nat) := do
  let r ← kalloc
  match r with
  | none => pure none
  | some pagetable => do
    memset pagetable 0
    pure (some pagetable)

def uvmdealloc (K : KernelImage) (pagetable oldsz newsz : Nat) : Kern Mem Nat :=
  if oldsz ≤ newsz then pure oldsz
  else if pgRoundUp newsz < pgRoundUp oldsz then do
    uvmunmap K pagetable (pgRoundUp newsz) ((pgRoundUp oldsz - pgRoundUp newsz) / pgSize) true
    pure newsz
  else pure newsz

/-- One round of `uvmalloc`, with `oldsz` rounded up; `false` after a failure is undone. -/
def uvmallocPage (K : KernelImage) (pagetable oldsz xperm a : Nat) : Kern Mem Bool := do
  let r ← kalloc
  match r with
  | none => do
    let _ ← uvmdealloc K pagetable a oldsz
    pure false
  | some mem => do
    memset mem 0
    let e ← mappages pagetable a pgSize mem (pteR ||| pteU ||| xperm)
    if e ≠ 0 then do
      kfree K mem
      let _ ← uvmdealloc K pagetable a oldsz
      pure false
    else pure true

def untilFalse (round : Nat → Kern Mem Bool) : List Nat → Kern Mem Bool
  | [] => pure true
  | a :: rest => do
    let ok ← round a
    if ok then untilFalse round rest else pure false

def uvmalloc (K : KernelImage) (pagetable oldsz newsz xperm : Nat) : Kern Mem Nat :=
  if newsz < oldsz then pure oldsz
  else do
    let ok ← untilFalse (uvmallocPage K pagetable (pgRoundUp oldsz) xperm)
      (pagesFrom (pgRoundUp oldsz) newsz)
    if ok then pure newsz else pure 0

def freewalkEntry (below : Nat → Kern Mem Unit) (pagetable i : Nat) : Kern Mem Unit := do
  let pte ← readPte pagetable i
  if has pte pteV && !has pte (pteR ||| pteW ||| pteX) then do
    below (pte2Pa pte)
    writePte pagetable i 0
  else if has pte pteV then Kern.panic "freewalk: leaf"
  else pure ()

def freewalkTable (K : KernelImage) (below : Nat → Kern Mem Unit) (pagetable : Nat) :
    Kern Mem Unit := do
  forEach (freewalkEntry below pagetable) (List.range 512)
  kfree K pagetable

def freewalk (K : KernelImage) : Nat → Nat → Kern Mem Unit
  | 0, _ => Kern.panic "freewalk: depth"
  | depth + 1, pagetable => freewalkTable K (freewalk K depth) pagetable

def uvmfreePages (K : KernelImage) (pagetable sz : Nat) : Kern Mem Unit :=
  if 0 < sz then uvmunmap K pagetable 0 (pgRoundUp sz / pgSize) true else pure ()

def uvmfree (K : KernelImage) (pagetable sz : Nat) : Kern Mem Unit := do
  uvmfreePages K pagetable sz
  freewalk K 3 pagetable

def uvmcopyErr (K : KernelImage) (new i : Nat) : Kern Mem Bool := do
  uvmunmap K new 0 (i / pgSize) true
  pure false

def uvmcopyPage (K : KernelImage) (old new i : Nat) : Kern Mem Bool := do
  let r ← walk old i false
  match r with
  | none => Kern.panic "uvmcopy: pte should exist"
  | some (table, ix) => do
    let pte ← readPte table ix
    if has pte pteV = false then Kern.panic "uvmcopy: page not present"
    else do
      let r ← kalloc
      match r with
      | none => uvmcopyErr K new i
      | some mem => do
        modifyState fun m => m.setPage mem (m.page (pte2Pa pte))
        let e ← mappages new i pgSize mem (pteFlags pte)
        if e ≠ 0 then do
          kfree K mem
          uvmcopyErr K new i
        else pure true

def uvmcopy (K : KernelImage) (old new sz : Nat) : Kern Mem Int := do
  let ok ← untilFalse (uvmcopyPage K old new) (pagesFrom 0 sz)
  if ok then pure 0 else pure (-1)

def uvmclear (pagetable va : Nat) : Kern Mem Unit := do
  let r ← walk pagetable va false
  match r with
  | none => Kern.panic "uvmclear"
  | some (table, i) => do
    let pte ← readPte table i
    writePte table i (pte ^^^ (pte &&& pteU))

/-- The loop of `copyout`, a page at a time. -/
def copyoutLoop (pagetable : Nat) : Nat → Nat → List UInt8 → Kern Mem Int
  | 0, _, _ => pure 0
  | rounds + 1, dstva, src =>
    if src.isEmpty then pure 0
    else do
      let va0 := pgRoundDown dstva
      let pa0 ← walkaddr pagetable va0
      if pa0 = 0 then pure (-1)
      else do
        let n := min (pgSize - (dstva - va0)) src.length
        modifyState fun m => m.setPage pa0 ((m.page pa0).patch (dstva - va0) (src.take n))
        copyoutLoop pagetable rounds (u64 (va0 + pgSize)) (src.drop n)

def copyout (pagetable dstva : Nat) (src : List UInt8) : Kern Mem Int :=
  copyoutLoop pagetable src.length dstva src

def copyinLoop (pagetable : Nat) : Nat → Nat → Nat → Kern Mem (Int × List UInt8)
  | 0, _, _ => pure (0, [])
  | rounds + 1, srcva, len =>
    if len = 0 then pure (0, [])
    else do
      let va0 := pgRoundDown srcva
      let pa0 ← walkaddr pagetable va0
      if pa0 = 0 then pure (-1, [])
      else do
        let n := min (pgSize - (srcva - va0)) len
        let m ← getState
        let r ← copyinLoop pagetable rounds (u64 (va0 + pgSize)) (len - n)
        pure (r.1, (m.page pa0).slice (srcva - va0) n ++ r.2)

def copyin (pagetable srcva len : Nat) : Kern Mem (Int × List UInt8) :=
  copyinLoop pagetable len srcva len

/-- The inner loop of `copyinstr` over the bytes of a page: what it stores, and `got_null`. -/
def copyinstrPage : List UInt8 → List UInt8 × Bool
  | [] => ([], false)
  | c :: p =>
    if c = 0 then ([0], true)
    else
      let r := copyinstrPage p
      (c :: r.1, r.2)

def copyinstrLoop (pagetable : Nat) : Nat → Nat → Nat → Kern Mem (Int × List UInt8)
  | 0, _, _ => pure (-1, [])
  | rounds + 1, srcva, max =>
    if max = 0 then pure (-1, [])
    else do
      let va0 := pgRoundDown srcva
      let pa0 ← walkaddr pagetable va0
      if pa0 = 0 then pure (-1, [])
      else do
        let n := min (pgSize - (srcva - va0)) max
        let m ← getState
        let p := copyinstrPage ((m.page pa0).slice (srcva - va0) n)
        if p.2 then pure (0, p.1)
        else do
          let r ← copyinstrLoop pagetable rounds (u64 (va0 + pgSize)) (max - n)
          pure (r.1, p.1 ++ r.2)

def copyinstr (pagetable srcva max : Nat) : Kern Mem (Int × List UInt8) :=
  copyinstrLoop pagetable max srcva max

def uvmfirst (pagetable : Nat) (src : List UInt8) : Kern Mem Unit :=
  if pgSize ≤ src.length then Kern.panic "uvmfirst: more than a page"
  else do
    let r ← kalloc
    match r with
    -- `memset(0, ..)` in the kernel is a fault.
    | none => Kern.panic "kerneltrap"
    | some mem => do
      memset mem 0
      let _ ← mappages pagetable 0 pgSize mem (pteW ||| pteR ||| pteX ||| pteU)
      modifyState fun m => m.setPage mem ((m.page mem).patch 0 src)

def procPagetable (K : KernelImage) (trapframe : Nat) : Kern Mem (Option Nat) := do
  let r ← uvmcreate
  match r with
  | none => pure none
  | some pagetable => do
    let e ← mappages pagetable trampolineVa pgSize K.trampoline (pteR ||| pteX)
    if e < 0 then do
      uvmfree K pagetable 0
      pure none
    else do
      let e ← mappages pagetable trapframeVa pgSize trapframe (pteR ||| pteW)
      if e < 0 then do
        uvmunmap K pagetable trampolineVa 1 false
        uvmfree K pagetable 0
        pure none
      else pure (some pagetable)

def procFreepagetable (K : KernelImage) (pagetable sz : Nat) : Kern Mem Unit := do
  uvmunmap K pagetable trampolineVa 1 false
  uvmunmap K pagetable trapframeVa 1 false
  uvmfree K pagetable sz

end Xv6
