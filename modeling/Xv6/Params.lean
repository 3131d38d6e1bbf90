import Xv6.Lib.Bytes

/-! Constants and on-disk layout of the file system (`param.h`, `fs.h`). A `Disk`
gives the contents of the blocks, on the device or as the buffer cache shows them. -/

namespace Xv6

def maxOpBlocks : Nat := 10

def logSize : Nat := maxOpBlocks * 3

def bsize : Nat := 1024

abbrev Block := Bytes bsize

abbrev Disk := Nat → Block

/-- The `struct superblock`. -/
structure Superblock where
  magic : Nat
  size : Nat
  nblocks : Nat
  ninodes : Nat
  nlog : Nat
  logstart : Nat
  inodestart : Nat
  bmapstart : Nat
  deriving DecidableEq

def fssize : Nat := 2000

def mkfsSb : Superblock :=
  let ninodes := 200
  let nbitmap := fssize / (bsize * 8) + 1
  let ninodeblocks := ninodes / (bsize / 64) + 1
  let nlog := logSize
  let nmeta := 2 + nlog + ninodeblocks + nbitmap
  { magic := 0x10203040, size := fssize, nblocks := fssize - nmeta, ninodes, nlog, logstart := 2,
    inodestart := 2 + nlog, bmapstart := 2 + nlog + ninodeblocks }

end Xv6
