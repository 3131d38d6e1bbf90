import Xv6.Params

/-! On-disk format of the file system (`fs.h`, `stat.h`): where inodes and bitmap
bits lie, and how `struct dinode`, a bitmap bit, a word of an indirect block and
`struct dirent` are stored in a block. An assignment to a `short` or a `uint`
keeps the low 16 or 32 bits. -/

namespace Xv6

def ndirect : Nat := 12

def nindirect : Nat := bsize / 4

def maxfile : Nat := ndirect + nindirect

def ipb : Nat := bsize / 64

def bpb : Nat := bsize * 8

def dirsiz : Nat := 14

def rootino : Nat := 1

def tDir : Nat := 1

def tFile : Nat := 2

def tDevice : Nat := 3

/-- `IBLOCK` of `fs.h`. -/
def iblock (sb : Superblock) (i : Nat) : Nat := i / ipb + sb.inodestart

/-- `BBLOCK` of `fs.h`. -/
def bblock (sb : Superblock) (b : Nat) : Nat := b / bpb + sb.bmapstart

/-- The number of blocks before the data. -/
def nmeta (sb : Superblock) : Nat := sb.size - sb.nblocks

structure Layout (sb : Superblock) : Prop where
  nblocks_le : sb.nblocks ≤ sb.size
  log_pos : 2 ≤ sb.logstart
  log_end : sb.logstart + sb.nlog ≤ sb.inodestart
  iblock_lt : ∀ i < sb.ninodes, iblock sb i < sb.bmapstart
  bmap_le : sb.inodestart ≤ sb.bmapstart
  bblock_lt : ∀ b < sb.size, bblock sb b < nmeta sb
  root_lt : rootino < sb.ninodes
  ninodes_le : sb.ninodes ≤ 2 ^ 16
  size_pos : 0 < sb.size
  size_lt : sb.size < 2 ^ 31

/-- `struct dinode`, and the copy of it in `struct inode`. -/
@[ext] structure Dinode where
  type : Nat
  major : Nat
  minor : Nat
  nlink : Nat
  size : Nat
  addrs : Nat → Nat
  type_lt : type < 2 ^ 16
  major_lt : major < 2 ^ 16
  minor_lt : minor < 2 ^ 16
  nlink_lt : nlink < 2 ^ 16
  size_lt : size < 2 ^ 32
  addrs_lt : ∀ i, addrs i < 2 ^ 32
  addrs_end : ∀ i, ndirect < i → addrs i = 0

namespace Dinode

def setType (d : Dinode) (v : Nat) : Dinode :=
  { d with type := v % 2 ^ 16, type_lt := Nat.mod_lt _ (by decide) }

def setMajor (d : Dinode) (v : Nat) : Dinode :=
  { d with major := v % 2 ^ 16, major_lt := Nat.mod_lt _ (by decide) }

def setMinor (d : Dinode) (v : Nat) : Dinode :=
  { d with minor := v % 2 ^ 16, minor_lt := Nat.mod_lt _ (by decide) }

def setNlink (d : Dinode) (v : Nat) : Dinode :=
  { d with nlink := v % 2 ^ 16, nlink_lt := Nat.mod_lt _ (by decide) }

def setSize (d : Dinode) (v : Nat) : Dinode :=
  { d with size := v % 2 ^ 32, size_lt := Nat.mod_lt _ (by decide) }

def setAddr (d : Dinode) (k v : Nat) : Dinode where
  type := d.type
  major := d.major
  minor := d.minor
  nlink := d.nlink
  size := d.size
  addrs := fun i => if i = k ∧ k ≤ ndirect then v % 2 ^ 32 else d.addrs i
  type_lt := d.type_lt
  major_lt := d.major_lt
  minor_lt := d.minor_lt
  nlink_lt := d.nlink_lt
  size_lt := d.size_lt
  addrs_lt := fun i => by
    by_cases h : i = k ∧ k ≤ ndirect
    · simp only [if_pos h]
      exact Nat.mod_lt _ (by decide)
    · simp only [if_neg h]
      exact d.addrs_lt i
  addrs_end := fun i hi => by
    have h : ¬ (i = k ∧ k ≤ ndirect) := by omega
    simp only [if_neg h]
    exact d.addrs_end i hi

def zero : Dinode where
  type := 0
  major := 0
  minor := 0
  nlink := 0
  size := 0
  addrs := fun _ => 0
  type_lt := by decide
  major_lt := by decide
  minor_lt := by decide
  nlink_lt := by decide
  size_lt := by decide
  addrs_lt := fun _ => by decide
  addrs_end := fun _ _ => rfl

/-- The same type, size and blocks. -/
structure SameFile (d d' : Dinode) : Prop where
  type : d'.type = d.type
  size : d'.size = d.size
  addrs : d'.addrs = d.addrs

lemma SameFile.trans {d d' d'' : Dinode} (h : SameFile d d') (h' : SameFile d' d'') : SameFile d d'' :=
  ⟨h'.type.trans h.type, h'.size.trans h.size, h'.addrs.trans h.addrs⟩

lemma sameFile_setMajor (d : Dinode) (v : Nat) : SameFile d (d.setMajor v) := by
  unfold setMajor
  exact ⟨rfl, rfl, rfl⟩

lemma sameFile_setMinor (d : Dinode) (v : Nat) : SameFile d (d.setMinor v) := by
  unfold setMinor
  exact ⟨rfl, rfl, rfl⟩

lemma sameFile_setNlink (d : Dinode) (v : Nat) : SameFile d (d.setNlink v) := by
  unfold setNlink
  exact ⟨rfl, rfl, rfl⟩

@[simp] lemma setAddr_self (d : Dinode) {k v : Nat} (hk : k ≤ ndirect) (hv : v < 2 ^ 32) :
    (d.setAddr k v).addrs k = v := by
  rw [setAddr]
  simp only [hk, and_self, if_true]
  exact Nat.mod_eq_of_lt hv

@[simp] lemma setAddr_of_ne (d : Dinode) {k i : Nat} (v : Nat) (h : i ≠ k) :
    (d.setAddr k v).addrs i = d.addrs i := by
  simp [setAddr, h]

@[simp] lemma setAddr_type (d : Dinode) (k v : Nat) : (d.setAddr k v).type = d.type := rfl

end Dinode

def short (v : Nat) : Int := if v < 2 ^ 15 then v else (v : Int) - 2 ^ 16

def getDinode (b : Block) (i : Nat) : Dinode where
  type := b.field (64 * i) 2
  major := b.field (64 * i + 2) 2
  minor := b.field (64 * i + 4) 2
  nlink := b.field (64 * i + 6) 2
  size := b.field (64 * i + 8) 4
  addrs := fun k => if k ≤ ndirect then b.field (64 * i + 12 + 4 * k) 4 else 0
  type_lt := Bytes.field_lt b _ 2
  major_lt := Bytes.field_lt b _ 2
  minor_lt := Bytes.field_lt b _ 2
  nlink_lt := Bytes.field_lt b _ 2
  size_lt := Bytes.field_lt b _ 4
  addrs_lt := fun k => by
    by_cases h : k ≤ ndirect
    · simp only [if_pos h]
      exact Bytes.field_lt b _ 4
    · simp only [if_neg h]
      decide
  addrs_end := fun k hk => if_neg (by omega)

def putAddrs (b : Block) (off : Nat) (addrs : Nat → Nat) (n : Nat) : Block :=
  (List.range n).foldl (fun b k => b.setField (off + 4 * k) 4 (addrs k)) b

def putHeadFields (b : Block) (i : Nat) (d : Dinode) : Block :=
  ((((b.setField (64 * i) 2 d.type).setField (64 * i + 2) 2 d.major).setField (64 * i + 4) 2
    d.minor).setField (64 * i + 6) 2 d.nlink).setField (64 * i + 8) 4 d.size

def setDinode (b : Block) (i : Nat) (d : Dinode) : Block :=
  putAddrs (putHeadFields b i d) (64 * i + 12) d.addrs (ndirect + 1)

lemma putAddrs_succ (b : Block) (off : Nat) (addrs : Nat → Nat) (n : Nat) :
    putAddrs b off addrs (n + 1) = (putAddrs b off addrs n).setField (off + 4 * n) 4 (addrs n) := by
  simp [putAddrs, List.range_succ]

variable {off k i j : Nat}

lemma field_putAddrs_of_disjoint (b : Block) {off' : Nat} (addrs : Nat → Nat) (n : Nat)
    (h : off' + k ≤ off ∨ off + 4 * n ≤ off') :
    (putAddrs b off addrs n).field off' k = b.field off' k := by
  induction n with
  | zero => rfl
  | succ n ih =>
    rw [putAddrs_succ, Bytes.field_setField_of_disjoint _ _ (by omega)]
    exact ih (by omega)

lemma field_putAddrs (b : Block) {n : Nat} (addrs : Nat → Nat) (hk : k < n)
    (hoff : off + 4 * n ≤ bsize) :
    (putAddrs b off addrs n).field (off + 4 * k) 4 = addrs k % 2 ^ 32 := by
  induction n with
  | zero => omega
  | succ n ih =>
    rw [putAddrs_succ]
    by_cases hkn : k = n
    · subst hkn
      exact Bytes.field_setField_self _ _ (by omega)
    · rw [Bytes.field_setField_of_disjoint _ _ (by omega)]
      exact ih (by omega) (by omega)

lemma field_putHeadFields_of_disjoint (b : Block) (d : Dinode)
    (h : off + k ≤ 64 * i ∨ 64 * i + 12 ≤ off) : (putHeadFields b i d).field off k = b.field off k := by
  unfold putHeadFields
  rw [Bytes.field_setField_of_disjoint _ _ (by omega), Bytes.field_setField_of_disjoint _ _ (by omega),
    Bytes.field_setField_of_disjoint _ _ (by omega), Bytes.field_setField_of_disjoint _ _ (by omega),
    Bytes.field_setField_of_disjoint _ _ (by omega)]

lemma getDinode_setDinode_self (b : Block) (d : Dinode) (hi : i < ipb) :
    getDinode (setDinode b i d) i = d := by
  have hb : 64 * i + 64 ≤ bsize := by
    simp only [ipb, bsize] at hi ⊢
    omega
  have hhead : ∀ off k, off + k ≤ 64 * i + 12 → (setDinode b i d).field off k =
      (putHeadFields b i d).field off k := fun off k h =>
    field_putAddrs_of_disjoint _ _ _ (.inl h)
  ext
  · show (setDinode b i d).field (64 * i) 2 = _
    rw [hhead _ _ (by omega)]
    refine Eq.trans ?_ (Nat.mod_eq_of_lt (show d.type < 256 ^ 2 from d.type_lt))
    simp (disch := omega) only [putHeadFields, Bytes.field_setField_of_disjoint,
      Bytes.field_setField_self]
  · show (setDinode b i d).field (64 * i + 2) 2 = _
    rw [hhead _ _ (by omega)]
    refine Eq.trans ?_ (Nat.mod_eq_of_lt (show d.major < 256 ^ 2 from d.major_lt))
    simp (disch := omega) only [putHeadFields, Bytes.field_setField_of_disjoint,
      Bytes.field_setField_self]
  · show (setDinode b i d).field (64 * i + 4) 2 = _
    rw [hhead _ _ (by omega)]
    refine Eq.trans ?_ (Nat.mod_eq_of_lt (show d.minor < 256 ^ 2 from d.minor_lt))
    simp (disch := omega) only [putHeadFields, Bytes.field_setField_of_disjoint,
      Bytes.field_setField_self]
  · show (setDinode b i d).field (64 * i + 6) 2 = _
    rw [hhead _ _ (by omega)]
    refine Eq.trans ?_ (Nat.mod_eq_of_lt (show d.nlink < 256 ^ 2 from d.nlink_lt))
    simp (disch := omega) only [putHeadFields, Bytes.field_setField_of_disjoint,
      Bytes.field_setField_self]
  · show (setDinode b i d).field (64 * i + 8) 4 = _
    rw [hhead _ _ (by omega)]
    refine Eq.trans ?_ (Nat.mod_eq_of_lt (show d.size < 256 ^ 4 from d.size_lt))
    simp (disch := omega) only [putHeadFields, Bytes.field_setField_self]
  · rename_i k
    show (if k ≤ ndirect then (setDinode b i d).field (64 * i + 12 + 4 * k) 4 else 0) = d.addrs k
    by_cases hk : k ≤ ndirect
    · rw [if_pos hk, setDinode, field_putAddrs _ _ (by omega) (by simp only [ndirect]; omega)]
      exact Nat.mod_eq_of_lt (d.addrs_lt k)
    · rw [if_neg hk, d.addrs_end k (by omega)]

lemma field_setDinode_of_disjoint (b : Block) (d : Dinode)
    (h : off + k ≤ 64 * i ∨ 64 * i + 64 ≤ off) : (setDinode b i d).field off k = b.field off k := by
  rw [setDinode, field_putAddrs_of_disjoint _ _ _ (by simp only [ndirect]; omega),
    field_putHeadFields_of_disjoint _ _ (by omega)]

lemma getDinode_setDinode_of_ne (b : Block) (d : Dinode) (hij : j ≠ i) :
    getDinode (setDinode b i d) j = getDinode b j := by
  have hf : ∀ off k, 64 * j ≤ off → off + k ≤ 64 * j + 64 →
      (setDinode b i d).field off k = b.field off k := fun off k h1 h2 =>
    field_setDinode_of_disjoint b d (by omega)
  ext
  · exact hf _ _ (by omega) (by omega)
  · exact hf _ _ (by omega) (by omega)
  · exact hf _ _ (by omega) (by omega)
  · exact hf _ _ (by omega) (by omega)
  · exact hf _ _ (by omega) (by omega)
  · rename_i k
    show (if k ≤ ndirect then (setDinode b i d).field _ 4 else 0) = if k ≤ ndirect then
      b.field _ 4 else 0
    by_cases hk : k ≤ ndirect
    · rw [if_pos hk, if_pos hk]
      simp only [ndirect] at hk
      exact hf _ _ (by omega) (by omega)
    · rw [if_neg hk, if_neg hk]

def bitMask (bi : Nat) : UInt8 := 1 <<< UInt8.ofNat (bi % 8)

def getBit (b : Block) (bi : Nat) : Bool := b.get (bi / 8) &&& bitMask bi != 0

def setBit (b : Block) (bi : Nat) : Block := b.patch (bi / 8) [b.get (bi / 8) ||| bitMask bi]

def clearBit (b : Block) (bi : Nat) : Block := b.patch (bi / 8) [b.get (bi / 8) &&& ~~~ bitMask bi]

lemma bitMask_toNat (bi : Nat) : (bitMask bi).toNat = 2 ^ (bi % 8) := by
  have h8 : bi % 8 < 8 := Nat.mod_lt _ (by decide)
  have hpow : 2 ^ (bi % 8) < 2 ^ 8 := Nat.pow_lt_pow_right (by decide) h8
  have hn : (UInt8.ofNat (bi % 8)).toNat = bi % 8 := by
    rw [UInt8.toNat_ofNat']
    exact Nat.mod_eq_of_lt (by omega)
  rw [bitMask, UInt8.toNat_shiftLeft, hn, Nat.mod_eq_of_lt h8, Nat.shiftLeft_eq]
  simpa using hpow

lemma getBit_eq_testBit (b : Block) (bi : Nat) :
    getBit b bi = (b.get (bi / 8)).toNat.testBit (bi % 8) := by
  have hz : (b.get (bi / 8) &&& bitMask bi = 0) ↔ (b.get (bi / 8) &&& bitMask bi).toNat = 0 := by
    rw [← UInt8.toNat_inj]
    rfl
  rw [getBit, bne, beq_eq_decide]
  simp only [hz, UInt8.toNat_and, bitMask_toNat, Nat.and_two_pow]
  cases (b.get (bi / 8)).toNat.testBit (bi % 8) <;> simp

lemma getBit_setBit (b : Block) (hi : i < bpb) (j : Nat) :
    getBit (setBit b i) j = (decide (j = i) || getBit b j) := by
  have hin : i / 8 < bsize := by
    simp only [bpb, bsize] at hi ⊢
    omega
  rw [getBit_eq_testBit, getBit_eq_testBit]
  by_cases hb : j / 8 = i / 8
  · rw [hb, setBit, Bytes.get_patch _ _ _ hin, if_pos (by simp)]
    simp only [Nat.sub_self, List.getD_cons_zero, UInt8.toNat_or, Nat.testBit_or, bitMask_toNat,
      Nat.testBit_two_pow]
    have hji : (i % 8 = j % 8) ↔ j = i := by omega
    rw [Bool.or_comm]
    simp [hji]
  · have hne : j ≠ i := fun h => hb (by rw [h])
    rw [setBit, Bytes.get_patch_of_not_mem _ (by simp; omega)]
    simp [hne]

lemma getBit_clearBit (b : Block) (hi : i < bpb) (j : Nat) :
    getBit (clearBit b i) j = (decide (j ≠ i) && getBit b j) := by
  have hin : i / 8 < bsize := by
    simp only [bpb, bsize] at hi ⊢
    omega
  rw [getBit_eq_testBit, getBit_eq_testBit]
  by_cases hb : j / 8 = i / 8
  · rw [hb, clearBit, Bytes.get_patch _ _ _ hin, if_pos (by simp)]
    have h8 : j % 8 < 8 := Nat.mod_lt _ (by decide)
    have hpow : 2 ^ (i % 8) < 2 ^ 8 := Nat.pow_lt_pow_right (by decide) (Nat.mod_lt _ (by decide))
    have hnot : (~~~ bitMask i).toNat.testBit (j % 8) = !decide (j = i) := by
      have hsub : (~~~ bitMask i).toNat = 2 ^ 8 - (2 ^ (i % 8) + 1) := by
        rw [UInt8.toNat_not, bitMask_toNat, UInt8.size]
        omega
      have hji : (i % 8 = j % 8) ↔ j = i := by omega
      rw [hsub, Nat.testBit_two_pow_sub_succ hpow, Nat.testBit_two_pow]
      simp [h8, hji]
    simp only [Nat.sub_self, List.getD_cons_zero, UInt8.toNat_and, Nat.testBit_and, hnot]
    rw [Bool.and_comm, ← decide_not]
  · have hne : j ≠ i := fun h => hb (by rw [h])
    rw [clearBit, Bytes.get_patch_of_not_mem _ (by simp; omega)]
    simp [hne]

def getWord (b : Block) (j : Nat) : Nat := b.field (4 * j) 4

def setWord (b : Block) (j v : Nat) : Block := b.setField (4 * j) 4 v

lemma getWord_setWord (b : Block) {v : Nat} (hj : j < nindirect) (hv : v < 2 ^ 32) (k : Nat) :
    getWord (setWord b j v) k = if k = j then v else getWord b k := by
  by_cases hk : k = j
  · subst hk
    rw [if_pos rfl, getWord, setWord, Bytes.field_setField_self _ _ (by
      simp only [nindirect, bsize] at hj ⊢
      omega)]
    exact Nat.mod_eq_of_lt hv
  · rw [if_neg hk, getWord, setWord, Bytes.field_setField_of_disjoint _ _ (by omega)]
    rfl

lemma getWord_fill_zero (hj : j < nindirect) : getWord (Bytes.fill bsize 0) j = 0 :=
  Bytes.field_fill_zero (by
    simp only [nindirect, bsize] at hj ⊢
    omega)

/-- A `struct dirent`. -/
structure Dirent where
  inum : Nat
  name : List UInt8
  deriving DecidableEq

def getDirent (l : List UInt8) : Dirent := ⟨Bytes.leNat (l.take 2), l.drop 2⟩

/-- The `n` bytes that `strncpy` stores. -/
def strncpy (t : List UInt8) (n : Nat) : List UInt8 :=
  let l := (t.takeWhile (· ≠ 0)).take n
  l ++ List.replicate (n - l.length) 0

def putDirent (inum : Nat) (name : List UInt8) : List UInt8 :=
  Bytes.leBytes 2 inum ++ strncpy name dirsiz

def strncmp : Nat → List UInt8 → List UInt8 → Int
  | 0, _, _ => 0
  | n + 1, p, q =>
    if p.headD 0 ≠ 0 ∧ p.headD 0 = q.headD 0 then strncmp n p.tail q.tail
    else (p.headD 0).toNat - (q.headD 0).toNat

def namecmp (s t : List UInt8) : Int := strncmp dirsiz s t

end Xv6
