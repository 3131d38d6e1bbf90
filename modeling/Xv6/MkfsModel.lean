import Xv6.DirEntries

/-! `mkfs`. Blocks and inodes are handed out in order, and the bitmap is written last.
`Mkfs.image` is the disk as it will be once the bitmap is written. -/

namespace Xv6

/-- The image, and the next free inode and block. -/
structure Mkfs where
  disk : Disk
  freeinode : Nat
  freeblock : Nat

/-- A name on the command line, and what `read` returns for the file one call after the other. -/
structure MkfsFile where
  path : List UInt8
  reads : List (List UInt8)

def usedBits (used : Nat) : Block := (List.range used).foldl setBit (Bytes.fill bsize 0)

def sbBlock (sb : Superblock) : Block :=
  (((((((Bytes.fill bsize 0).setField 0 4 sb.magic).setField 4 4 sb.size).setField 8 4
    sb.nblocks).setField 12 4 sb.ninodes).setField 16 4 sb.nlog).setField 20 4 sb.logstart).setField
    24 4 sb.inodestart |>.setField 28 4 sb.bmapstart

namespace Mkfs

def wsect (s : Mkfs) (sec : Nat) (b : Block) : Mkfs := { s with disk := Function.update s.disk sec b }

def rinode (s : Mkfs) (inum : Nat) : Dinode := getDinode (s.disk (iblock mkfsSb inum)) (inum % ipb)

def winode (s : Mkfs) (inum : Nat) (d : Dinode) : Mkfs :=
  s.wsect (iblock mkfsSb inum) (setDinode (s.disk (iblock mkfsSb inum)) (inum % ipb) d)

def ialloc (s : Mkfs) (type : Nat) : Mkfs × Nat :=
  ({ s with freeinode := s.freeinode + 1 }.winode s.freeinode
    (((Dinode.zero.setType type).setNlink 1).setSize 0), s.freeinode)

def grow (s : Mkfs) (d : Dinode) (k : Nat) : Mkfs × Dinode :=
  if d.addrs k = 0 then ({ s with freeblock := s.freeblock + 1 }, d.setAddr k s.freeblock) else (s, d)

def growWord (s : Mkfs) (ind j : Nat) : Mkfs :=
  if getWord (s.disk ind) j = 0 then
    { s with freeblock := s.freeblock + 1 }.wsect ind (setWord (s.disk ind) j s.freeblock)
  else s

def place (s : Mkfs) (d : Dinode) (fbn : Nat) : Mkfs × Dinode × Nat :=
  if fbn < ndirect then
    let r := s.grow d fbn
    (r.1, r.2, r.2.addrs fbn)
  else
    let r := s.grow d ndirect
    let s' := r.1.growWord (r.2.addrs ndirect) (fbn - ndirect)
    (s', r.2, getWord (s'.disk (r.2.addrs ndirect)) (fbn - ndirect))

/-- The loop of `iappend`. -/
def iappendLoop : Nat → Mkfs → Dinode → Nat → List UInt8 → Option (Mkfs × Dinode × Nat)
  | 0, s, d, off, p => if p = [] then some (s, d, off) else none
  | fuel + 1, s, d, off, p =>
    if p = [] then some (s, d, off)
    else if off / bsize < maxfile then
      let r := s.place d (off / bsize)
      let n1 := min p.length ((off / bsize + 1) * bsize - off)
      iappendLoop fuel
      (r.1.wsect r.2.2 ((r.1.disk r.2.2).patch (off - off / bsize * bsize) (p.take n1))) r.2.1
      (off + n1) (p.drop n1)
    else none

def iappend (s : Mkfs) (inum : Nat) (p : List UInt8) : Option Mkfs :=
  match iappendLoop p.length s (s.rinode inum) (s.rinode inum).size p with
  | some (s', d, off) => some (s'.winode inum (d.setSize off))
  | none => none

def baseName (path : List UInt8) : List UInt8 :=
  if strncmp 5 path [117, 115, 101, 114, 47] = 0 then path.drop 5 else path

def shortName (path : List UInt8) : List UInt8 :=
  if (baseName path).head? = some 95 then (baseName path).drop 1 else baseName path

def addFile (s : Mkfs) (f : MkfsFile) : Option Mkfs :=
  if slash ∈ baseName f.path then none
  else do
    let r := s.ialloc tFile
    let s ← r.1.iappend rootino (putDirent r.2 (shortName f.path))
    f.reads.foldlM (fun s p => s.iappend r.2 p) s

def start : Mkfs := ⟨Function.update (fun _ => Bytes.fill bsize 0) 1 (sbBlock mkfsSb), 1, nmeta mkfsSb⟩

def addFiles (files : List MkfsFile) : Option Mkfs := do
  let r := start.ialloc tDir
  if r.2 ≠ rootino then none
  else do
    let s ← r.1.iappend rootino (putDirent rootino dot)
    let s ← s.iappend rootino (putDirent rootino dotdot)
    files.foldlM addFile s

def finish (s : Mkfs) : Option Mkfs :=
  let d := s.rinode rootino
  let s := s.winode rootino (d.setSize ((d.size / bsize + 1) * bsize))
  if s.freeblock < bsize * 8 then some (s.wsect mkfsSb.bmapstart (usedBits s.freeblock)) else none

/-- `main` of `mkfs.c`; none if an assertion fails. -/
def main (files : List MkfsFile) : Option Mkfs := do
  let s ← addFiles files
  finish s

def image (s : Mkfs) : Disk := Function.update s.disk mkfsSb.bmapstart (usedBits s.freeblock)

end Mkfs

end Xv6
