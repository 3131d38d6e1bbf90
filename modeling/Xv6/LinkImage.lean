import Xv6.MkfsContents
import Xv6.TreeRun

/-! A file system of the size that `mkfs` makes, with a file that has 32767 links: one in the
root directory and the others in two directories, the first of which has no room for more. -/

namespace Xv6

open List

def recordBlock (w : Nat) (f : Nat → List UInt8) : Block := fun i => (f (i.val / w)).getD (i.val % w) 0

def linkName (k : Nat) : List UInt8 :=
  [k % 16, k / 16 % 16, k / 256 % 16, k / 4096 % 16].map fun d => UInt8.ofNat (97 + d)

def linkRootEntry (k : Nat) : Nat × List UInt8 :=
  if k = 0 then (1, dot) else if k = 1 then (1, dotdot) else if k = 2 then
    (2, [102]) else if k = 3 then (3, [97]) else (4, [98])

def linksEntry (d k : Nat) : Nat × List UInt8 :=
  if k = 0 then (d, dot) else if k = 1 then (1, dotdot) else (2, linkName k)

def direntBlock (entry : Nat → Nat × List UInt8) (j : Nat) : Block :=
  recordBlock 16 fun e => putDirent (entry (64 * j + e)).1 (entry (64 * j + e)).2

def indirectBlock (n start : Nat) : Block :=
  recordBlock 4 fun j => Bytes.leBytes 4 (if 64 * (j + 12) < n then start + 12 + j else 0)

/-- An inode with `n` entries in the blocks from `start` on; the indirect block is before them. -/
def linkDinode (type nlink n start : Nat) (ht : type < 2 ^ 16) (hl : nlink < 2 ^ 16)
    (hn : 16 * n < 2 ^ 32) (hs : start + 12 < 2 ^ 32) : Dinode where
  type := type
  major := 0
  minor := 0
  nlink := nlink
  size := 16 * n
  addrs := fun i => if i < 12 ∧ 64 * i < n then start + i else if i = 12 ∧ 768 < n then start - 1 else 0
  type_lt := ht
  major_lt := zero_lt16
  minor_lt := zero_lt16
  nlink_lt := hl
  size_lt := hn
  addrs_lt := fun i => by
    split
    · omega
    · split <;> omega
  addrs_end := fun i hi => by
    have hi' : 13 ≤ i := hi
    rw [if_neg (by omega), if_neg (by omega)]

/-- Type, links, entries and first block of inodes 1 to 4: the root directory, the file, `/a` and
`/b`. -/
def linkInode (i : Nat) : Dinode :=
  if i = 1 then linkDinode tDir 3 5 46 tDir_lt16 (by decide) (by decide) (by decide)
  else if i = 2 then linkDinode tFile 32767 0 1 (by decide) (by decide) (by decide) (by decide)
  else if i = 3 then linkDinode tDir 1 17152 48 tDir_lt16 one_lt16 (by decide) (by decide)
  else linkDinode tDir 1 15618 317 tDir_lt16 one_lt16 (by decide) (by decide)

def linkBitmap : Block := fun i => if i.val < 70 then 255 else if i.val = 70 then 3 else 0

def linkImage : Disk := fun b =>
  if b = 32 then [1, 2, 3, 4].foldl (fun blk i => setDinode blk i (linkInode i)) (Bytes.fill bsize 0)
  else if b = 45 then linkBitmap
  else if b = 46 then direntBlock linkRootEntry 0
  else if b = 47 then indirectBlock 17152 48
  else if 48 ≤ b ∧ b < 316 then direntBlock (linksEntry 3) (b - 48)
  else if b = 316 then indirectBlock 15618 317
  else if 317 ≤ b ∧ b < 562 then direntBlock (linksEntry 4) (b - 317)
  else Bytes.fill bsize 0

section

variable {w e : Nat} {f : Nat → List UInt8}

lemma slice_recordBlock (hlen : (f e).length = w) (hw : 0 < w) (he : w * e + w ≤ bsize) :
    (recordBlock w f).slice (w * e) w = f e := by
  refine ext_getElem (by rw [Bytes.slice_length, hlen]) fun i hi _ => ?_
  rw [Bytes.slice_length] at hi
  have hdiv : (w * e + i) / w = e := by
    rw [Nat.mul_add_div hw, Nat.div_eq_of_lt hi, Nat.add_zero]
  have hmod : (w * e + i) % w = i := by
    rw [Nat.mul_add_mod, Nat.mod_eq_of_lt hi]
  simp only [Bytes.slice, getElem_map, getElem_range, Bytes.get, recordBlock]
  rw [dif_pos (by omega), hdiv, hmod, getD_eq_getElem _ _ (by omega)]

lemma slice_direntBlock (entry : Nat → Nat × List UInt8) (k : Nat) :
    (direntBlock entry (k / 64)).slice (16 * (k % 64)) 16 = putDirent (entry k).1 (entry k).2 := by
  have hlt : k % 64 < 64 := Nat.mod_lt _ (by decide)
  rw [direntBlock, slice_recordBlock (putDirent_length _ _) (by decide) (by unfold bsize; omega),
    Nat.div_add_mod]

lemma getWord_indirectBlock {n start j : Nat} (hj : j < 256) (hs : start + 268 < 2 ^ 32) :
    getWord (indirectBlock n start) j = if 64 * (j + 12) < n then start + 12 + j else 0 := by
  have hslice :=
    slice_recordBlock (f := fun j =>
      Bytes.leBytes 4 (if 64 * (j + 12) < n then start + 12 + j else 0)) (e := j)
    (Bytes.leBytes_length _ _) (by decide) (by unfold bsize; omega)
  rw [getWord, Bytes.field, indirectBlock, hslice, Bytes.leNat_leBytes]
  refine Nat.mod_eq_of_lt ?_
  split <;> omega

end

def slotBlock (n start k : Nat) : Nat :=
  if k < 12 ∧ 64 * k < n then start + k
  else if k = 12 ∧ 768 < n then start - 1
  else if 12 < k ∧ k < 269 ∧ 64 * (k - 1) < n then start + (k - 1)
  else 0

section

variable {type nlink n start k : Nat} {disk : Disk} {ht : type < 2 ^ 16} {hl : nlink < 2 ^ 16}
  {hn : 16 * n < 2 ^ 32} {hs : start + 12 < 2 ^ 32} {entry : Nat → Nat × List UInt8}

lemma linkDinode_slot (hstart : n ≤ 768 ∨ 1 < start ∧ start + 268 < 2 ^ 32 ∧
      disk (start - 1) = indirectBlock n start) :
    slotAddr disk (linkDinode type nlink n start ht hl hn hs) k = slotBlock n start k := by
  have hd : ndirect = 12 := rfl
  have hi : nindirect = 256 := rfl
  have haddrs : ∀ i, (linkDinode type nlink n start ht hl hn hs).addrs i =
      if i < 12 ∧ 64 * i < n then start + i else if i = 12 ∧ 768 < n then start - 1 else 0 :=
        fun _ => rfl
  have hlast : (linkDinode type nlink n start ht hl hn hs).addrs 12 = if 768 < n then
    start - 1 else 0 := by
    rw [haddrs, if_neg (by omega)]
    simp
  rw [slotAddr, hd, hi]
  by_cases hk : k ≤ 12
  · rw [if_pos hk, haddrs, slotBlock]
    split_ifs <;> omega
  have hslot : slotBlock n start k = if k < 269 ∧ 64 * (k - 1) < n then start + (k - 1) else 0 := by
    unfold slotBlock
    split_ifs <;> omega
  rw [if_neg hk, hlast, hslot]
  by_cases hbig : 768 < n
  · obtain ⟨h1, h2, hdisk⟩ := hstart.resolve_left (by omega)
    rw [if_pos hbig]
    by_cases hlt : k - 13 < 256
    · rw [if_neg (by omega), hdisk, getWord_indirectBlock hlt h2]
      split_ifs <;> omega
    · rw [if_pos (by omega), if_neg (by omega)]
  · rw [if_neg hbig, if_pos (Or.inl rfl), if_neg (by omega)]

lemma linkDinode_block {bn : Nat}
    (hslot : ∀ k, slotAddr disk (linkDinode type nlink n start ht hl hn hs) k = slotBlock n start k)
    (hbn : 64 * bn < n) (hmax : n ≤ 17152) (hpos : 0 < start) :
    fileBlock disk (linkDinode type nlink n start ht hl hn hs) bn = some (disk (start + bn)) := by
  have haddr : slotBlock n start (slotOf bn) = start + bn := by
    unfold slotBlock slotOf
    have hd : ndirect = 12 := rfl
    rw [hd]
    split_ifs <;> omega
  rw [fileBlock, hslot, haddr, if_neg (by omega)]

lemma linkDinode_dirent (hblock : ∀ bn, 64 * bn < n →
      fileBlock disk (linkDinode type nlink n start ht hl hn hs) bn = some (direntBlock entry bn))
    (hk : k < n) (hinum : (entry k).1 < 2 ^ 16) :
    direntAt disk (linkDinode type nlink n start ht hl hn hs)
    (16 * k) = ⟨(entry k).1, strncpy (entry k).2 dirsiz⟩ := by
  have hslice : fileSlice disk (linkDinode type nlink n start ht hl hn hs)
    (16 * k) 16 = putDirent (entry k).1 (entry k).2 := by
    rw [← slice_direntBlock entry k]
    refine map_congr_left fun j hj => ?_
    rw [mem_range] at hj
    have hdiv : (16 * k + j) / bsize = k / 64 := by
      unfold bsize
      omega
    have hmod : (16 * k + j) % bsize = 16 * (k % 64) + j := by
      unfold bsize
      omega
    rw [fileByte, hdiv, hmod, hblock _ (by omega), Option.getD_some]
  rw [direntAt, hslice, getDirent_putDirent hinum]

end

lemma slotBlock_eq_iff {n start k b : Nat} (hb : b ≠ 0) (hstart : 1 < start) :
    slotBlock n start k = b ↔ (b + 1 = start ∧ 768 < n ∧ k = 12) ∨
    (start ≤ b ∧ b < start + 268 ∧ 64 * (b - start) < n ∧ k = if b < start + 12 then
      b - start else b - start + 1) := by
  unfold slotBlock
  split_ifs <;> omega

/-- Inode `i` is a directory with `n` entries in the blocks from `start` on, or the file. -/
structure LinkDir (i n start : Nat) (entry : Nat → Nat × List UInt8) : Prop where
  inode : ∃ ht hl hn hs,
    linkInode i = linkDinode (linkInode i).type (linkInode i).nlink n start ht hl hn hs
  max : n ≤ 17152
  pos : 0 < start
  indirect : n ≤ 768 ∨ 1 < start ∧ start + 268 < 2 ^ 32 ∧ linkImage (start - 1) = indirectBlock n start
  data : ∀ bn, 64 * bn < n → linkImage (start + bn) = direntBlock entry bn
  low : ∀ k, 0 < (entry k).1 ∧ (entry k).1 ≤ 4

lemma linkRootEntry_low (k : Nat) : 0 < (linkRootEntry k).1 ∧ (linkRootEntry k).1 ≤ 4 := by
  unfold linkRootEntry
  split_ifs <;> decide

lemma linksEntry_low {d : Nat} (hd : 0 < d ∧ d ≤ 4) (k : Nat) :
    0 < (linksEntry d k).1 ∧ (linksEntry d k).1 ≤ 4 := by
  unfold linksEntry
  split_ifs
  · exact hd
  · exact (by decide : 0 < 1 ∧ 1 ≤ 4)
  · exact (by decide : 0 < 2 ∧ 2 ≤ 4)

lemma linkRoot_dir : LinkDir 1 5 46 linkRootEntry where
  inode := ⟨by decide, by decide, by decide, by decide, rfl⟩
  max := by decide
  pos := by decide
  indirect := Or.inl (by decide)
  data := fun bn h => by
    obtain rfl : bn = 0 := by omega
    rfl
  low := linkRootEntry_low

lemma linkFile_dir : LinkDir 2 0 1 linkRootEntry where
  inode := ⟨by decide, by decide, by decide, by decide, rfl⟩
  max := by decide
  pos := by decide
  indirect := Or.inl (by decide)
  data := fun bn h => absurd h (Nat.not_lt_zero _)
  low := linkRootEntry_low

lemma linkDirA_dir : LinkDir 3 17152 48 (linksEntry 3) where
  inode := ⟨by decide, by decide, by decide, by decide, rfl⟩
  max := by decide
  pos := by decide
  indirect := Or.inr ⟨by decide, by decide, rfl⟩
  data := fun bn h => by
    unfold linkImage
    rw [if_neg (by omega), if_neg (by omega), if_neg (by omega), if_neg (by omega),
      if_pos (by omega), Nat.add_sub_cancel_left]
  low := linksEntry_low (by decide)

lemma linkDirB_dir : LinkDir 4 15618 317 (linksEntry 4) where
  inode := ⟨by decide, by decide, by decide, by decide, rfl⟩
  max := by decide
  pos := by decide
  indirect := Or.inr ⟨by decide, by decide, rfl⟩
  data := fun bn h => by
    unfold linkImage
    rw [if_neg (by omega), if_neg (by omega), if_neg (by omega), if_neg (by omega),
      if_neg (by omega), if_neg (by omega), if_pos (by omega), Nat.add_sub_cancel_left]
  low := linksEntry_low (by decide)

section

variable {i n start k b : Nat} {entry : Nat → Nat × List UInt8}

variable (h : LinkDir i n start entry)
include h

lemma LinkDir.size : (linkInode i).size = 16 * n := by
  obtain ⟨_, _, _, _, hd⟩ := h.inode
  rw [hd]
  rfl

lemma LinkDir.slot (k : Nat) : slotAddr linkImage (linkInode i) k = slotBlock n start k := by
  obtain ⟨_, _, _, _, hd⟩ := h.inode
  rw [hd]
  exact linkDinode_slot h.indirect

lemma LinkDir.block {bn : Nat} (hbn : 64 * bn < n) :
    fileBlock linkImage (linkInode i) bn = some (direntBlock entry bn) := by
  have hslot := h.slot
  obtain ⟨_, _, _, _, hd⟩ := h.inode
  rw [hd] at hslot ⊢
  rw [linkDinode_block hslot hbn h.max h.pos, h.data bn hbn]

lemma LinkDir.dirent (hk : k < n) :
    direntAt linkImage (linkInode i) (16 * k) = ⟨(entry k).1, strncpy (entry k).2 dirsiz⟩ := by
  have hblock : ∀ bn, 64 * bn < n →
    fileBlock linkImage (linkInode i) bn = some (direntBlock entry bn) := fun _ => h.block
  obtain ⟨_, _, _, _, hd⟩ := h.inode
  rw [hd] at hblock ⊢
  exact linkDinode_dirent hblock hk ((h.low k).2.trans_lt (by decide))

omit h

lemma linkImage_dir (hi : 1 ≤ i ∧ i ≤ 4) : ∃ n start entry, LinkDir i n start entry := by
  obtain rfl | rfl | rfl | rfl : i = 1 ∨ i = 2 ∨ i = 3 ∨ i = 4 := by omega
  · exact ⟨_, _, _, linkRoot_dir⟩
  · exact ⟨_, _, _, linkFile_dir⟩
  · exact ⟨_, _, _, linkDirA_dir⟩
  · exact ⟨_, _, _, linkDirB_dir⟩

lemma linkImage_low (h : 32 < b) (h' : b < 45) : linkImage b = Bytes.fill bsize 0 := by
  unfold linkImage
  rw [if_neg (by omega), if_neg (by omega), if_neg (by omega), if_neg (by omega), if_neg (by omega),
    if_neg (by omega), if_neg (by omega)]

lemma linkImage_dinode (hi : 1 ≤ i ∧ i ≤ 4) : (mount mkfsSb linkImage).dinode i = linkInode i := by
  have hblock :
    linkImage 32 = setDinode
    (setDinode (setDinode (setDinode (Bytes.fill bsize 0) 1 (linkInode 1)) 2 (linkInode 2))
    3 (linkInode 3)) 4 (linkInode 4) := rfl
  have hdisk : (mount mkfsSb linkImage).dinode i = getDinode (linkImage (i / 16 + 32)) (i % 16) := rfl
  rw [hdisk, show i / 16 + 32 = 32 by omega, show i % 16 = i by omega, hblock]
  obtain rfl | rfl | rfl | rfl : i = 1 ∨ i = 2 ∨ i = 3 ∨ i = 4 := by omega
  all_goals
    repeat rw [getDinode_setDinode_of_ne _ _ (by decide)]
    exact getDinode_setDinode_self _ _ (by decide)

lemma linkImage_free (hi : i < mkfsSb.ninodes) (h : ¬ (1 ≤ i ∧ i ≤ 4)) :
    ((mount mkfsSb linkImage).dinode i).type = 0 := by
  have hi : i < 200 := hi
  have hlt : i % ipb < ipb := Nat.mod_lt _ (by decide)
  show (getDinode (linkImage (i / 16 + 32)) (i % 16)).type = 0
  by_cases hb : i / 16 + 32 = 32
  · rw [hb]
    show (getDinode
      (setDinode (setDinode (setDinode (setDinode (Bytes.fill bsize 0) 1 (linkInode 1)) 2
        (linkInode 2))
      3 (linkInode 3)) 4 (linkInode 4)) (i % 16)).type = 0
    rw [getDinode_setDinode_of_ne _ _ (by omega), getDinode_setDinode_of_ne _ _ (by omega),
      getDinode_setDinode_of_ne _ _ (by omega), getDinode_setDinode_of_ne _ _ (by omega)]
    exact getDinode_zero_type hlt
  · rw [linkImage_low (by omega) (by omega)]
    exact getDinode_zero_type hlt

lemma linkImage_cases (hi : i < mkfsSb.ninodes) (h : ((mount mkfsSb linkImage).dinode i).type ≠ 0) :
    1 ≤ i ∧ i ≤ 4 := by
  by_contra hne
  exact h (linkImage_free hi hne)

lemma linkInode_type (hi : 1 ≤ i ∧ i ≤ 4) : (linkInode i).type = if i = 2 then tFile else tDir := by
  obtain rfl | rfl | rfl | rfl : i = 1 ∨ i = 2 ∨ i = 3 ∨ i = 4 := by omega
  all_goals rfl

lemma linkImage_bit (hb : bblock mkfsSb b < nmeta mkfsSb) :
    (mount mkfsSb linkImage).bit b = decide (b < 562) := by
  obtain ⟨hlt, hbit⟩ := mount_bit linkImage hb
  exact hbit.trans (getBit_of_full (q := 70) (r := 2) hlt (fun _ _ => rfl) (by decide) (by decide))

lemma linkImage_owns {o : Nat × Nat} : Owns mkfsSb linkImage (mount mkfsSb linkImage).dinode o b ↔
    b ≠ 0 ∧ (o.1 = 1 ∧ slotBlock 5 46 o.2 = b ∨ o.1 = 3 ∧ slotBlock 17152 48 o.2 = b ∨ o.1 = 4 ∧
      slotBlock 15618 317 o.2 = b) := by
  obtain ⟨i, k⟩ := o
  constructor
  · rintro ⟨hi, ht, hs, hb⟩
    have hlow := linkImage_cases hi ht
    refine ⟨hb, ?_⟩
    rw [linkImage_dinode hlow] at hs
    obtain rfl | rfl | rfl | rfl : i = 1 ∨ i = 2 ∨ i = 3 ∨ i = 4 := by omega
    · exact .inl ⟨rfl, (linkRoot_dir.slot k).symm.trans hs⟩
    · rw [linkFile_dir.slot, slotBlock] at hs
      split_ifs at hs <;> omega
    · exact .inr (.inl ⟨rfl, (linkDirA_dir.slot k).symm.trans hs⟩)
    · exact .inr (.inr ⟨rfl, (linkDirB_dir.slot k).symm.trans hs⟩)
  · have howns : ∀ {i n start : Nat} {entry : Nat → Nat × List UInt8}, LinkDir i n start entry →
      1 ≤ i ∧ i ≤ 4 → b ≠ 0 → slotBlock n start k = b →
      Owns mkfsSb linkImage (mount mkfsSb linkImage).dinode (i, k) b := by
      intro i n start entry h hi hb hs
      refine ⟨hi.2.trans_lt (by decide), ?_, ?_, hb⟩
      · rw [linkImage_dinode hi, linkInode_type hi]
        split_ifs <;> decide
      · rw [linkImage_dinode hi, h.slot, hs]
    rintro ⟨hb, ⟨rfl, hs⟩ | ⟨rfl, hs⟩ | ⟨rfl, hs⟩⟩
    · exact howns linkRoot_dir (by decide) hb hs
    · exact howns linkDirA_dir (by decide) hb hs
    · exact howns linkDirB_dir (by decide) hb hs

lemma linkImage_blocks : BlocksOwned (mount mkfsSb linkImage) := by
  have howns :
    ∀ {o : Nat × Nat} {b : Nat}, Owns mkfsSb linkImage (mount mkfsSb linkImage).dinode o b → b ≠ 0 ∧
      (o.1 = 1 ∧ b = 46 ∧ o.2 = 0 ∨
        o.1 = 3 ∧ 47 ≤ b ∧ b < 316 ∧
        o.2 = (if b = 47 then 12 else if b < 60 then b - 48 else b - 48 + 1) ∨
        o.1 = 4 ∧ 316 ≤ b ∧ b < 562 ∧ o.2 = if b = 316 then 12 else if b < 329 then
        b - 317 else b - 317 + 1) := by
    intro o b ho
    obtain ⟨hb, hcases⟩ := linkImage_owns.mp ho
    rw [slotBlock_eq_iff hb (by decide), slotBlock_eq_iff hb (by decide),
      slotBlock_eq_iff hb (by decide)] at hcases
    refine ⟨hb, ?_⟩
    split_ifs at hcases ⊢ <;> omega
  refine ⟨fun o o' b h h' => ?_, fun o b h => ?_, fun b hb => ?_⟩
  · obtain ⟨-, h⟩ := howns h
    obtain ⟨-, h'⟩ := howns h'
    refine Prod.ext ?_ ?_ <;> omega
  · obtain ⟨-, h⟩ := howns h
    show 46 ≤ b ∧ b < 2000
    omega
  · rw [linkImage_bit hb, decide_eq_true_eq]
    show b < 562 ↔ b < 46 ∨ _
    constructor
    · intro hlt
      by_cases hm : b < 46
      · exact .inl hm
      refine Or.inr ?_
      have hb0 : b ≠ 0 := by omega
      by_cases h1 : b = 46
      · exact ⟨(1, 0), linkImage_owns.mpr ⟨hb0, .inl ⟨rfl, by rw [h1]; decide⟩⟩⟩
      by_cases h2 : b < 316
      · refine ⟨(3, if b = 47 then 12 else if b < 60 then b - 48 else b - 48 + 1),
          linkImage_owns.mpr ⟨hb0, .inr (.inl ⟨rfl, ?_⟩)⟩⟩
        rw [slotBlock_eq_iff hb0 (by decide)]
        split_ifs <;> omega
      · refine ⟨(4, if b = 316 then 12 else if b < 329 then b - 317 else b - 317 + 1),
          linkImage_owns.mpr ⟨hb0, .inr (.inr ⟨rfl, ?_⟩)⟩⟩
        rw [slotBlock_eq_iff hb0 (by decide)]
        split_ifs <;> omega
    · rintro (hm | ⟨o, ho⟩)
      · omega
      · obtain ⟨-, h⟩ := howns ho
        omega

lemma linkImage_wellFormed : WellFormed mkfsSb linkImage where
  layout := mkfsSb_layout
  blocks := linkImage_blocks
  holes := by
    intro i hi ht
    have hlow := linkImage_cases hi ht
    obtain ⟨n, start, entry, h⟩ := linkImage_dir hlow
    rw [linkImage_dinode hlow]
    refine ⟨?_, fun bn hbn => ?_⟩
    · have hmax : maxfile * bsize = 274432 := rfl
      have hn := h.max
      rw [h.size, hmax]
      omega
    · have hbn : bn * 1024 < (linkInode i).size := hbn
      rw [h.size] at hbn
      show fileBlock linkImage (linkInode i) bn ≠ none
      rw [h.block (by omega)]
      exact Option.some_ne_none _
  dirs := by
    intro i hi ht k hk
    have hlow := linkImage_cases hi (by rw [ht]; decide)
    obtain ⟨n, start, entry, h⟩ := linkImage_dir hlow
    rw [linkImage_dinode hlow] at hk ⊢
    rw [h.size] at hk
    rw [h.dirent (by omega)]
    exact (h.low k).2.trans_lt (by decide)

end

section

lemma linkName_inj {j k : Nat} (hj : j < 65536) (hk : k < 65536)
    (h : linkName j = linkName k) : j = k := by
  have hof : ∀ a b : Nat, a < 16 → b < 16 → UInt8.ofNat (97 + a) = UInt8.ofNat (97 + b) → a = b := by
    intro a b ha hb hab
    have hnat := congrArg UInt8.toNat hab
    rw [UInt8.toNat_ofNat', UInt8.toNat_ofNat'] at hnat
    omega
  simp only [linkName, map_cons, map_nil, List.cons.injEq, and_true] at h
  obtain ⟨h0, h1, h2, h3⟩ := h
  have e0 := hof _ _ (Nat.mod_lt _ (by decide)) (Nat.mod_lt _ (by decide)) h0
  have e1 := hof _ _ (Nat.mod_lt _ (by decide)) (Nat.mod_lt _ (by decide)) h1
  have e2 := hof _ _ (Nat.mod_lt _ (by decide)) (Nat.mod_lt _ (by decide)) h2
  have e3 := hof _ _ (Nat.mod_lt _ (by decide)) (Nat.mod_lt _ (by decide)) h3
  omega

lemma zero_not_mem_linkName (k : Nat) : 0 ∉ linkName k := by
  intro h
  obtain ⟨d, hd, h0⟩ := mem_map.mp h
  have hlt : d < 16 := by
    simp only [mem_cons, not_mem_nil, or_false] at hd
    omega
  have hnat := congrArg UInt8.toNat h0
  rw [UInt8.toNat_ofNat'] at hnat
  have hz : (0 : UInt8).toNat = 0 := rfl
  omega

structure GoodNames (n : Nat) (entry : Nat → Nat × List UInt8) : Prop where
  len : ∀ k, (entry k).2.length ≤ dirsiz
  nul : ∀ k, 0 ∉ (entry k).2
  inj : ∀ j k, j < n → k < n → (entry j).2 = (entry k).2 → j = k

lemma linkRootEntry_names : GoodNames 5 linkRootEntry where
  len := fun k => by
    unfold linkRootEntry
    split_ifs <;> decide
  nul := fun k => by
    unfold linkRootEntry
    split_ifs <;> decide
  inj := by
    have hall : ∀ j < 5, ∀ k < 5, (linkRootEntry j).2 = (linkRootEntry k).2 → j = k := by decide
    exact fun j k hj hk => hall j hj k hk

lemma linksEntry_names (d : Nat) {n : Nat} (hn : n ≤ 65536) : GoodNames n (linksEntry d) where
  len := fun k => by
    unfold linksEntry
    split_ifs
    · exact (by decide : dot.length ≤ dirsiz)
    · exact (by decide : dotdot.length ≤ dirsiz)
    · exact (by decide : 4 ≤ dirsiz)
  nul := fun k => by
    unfold linksEntry
    split_ifs
    · exact (by decide : 0 ∉ dot)
    · exact (by decide : 0 ∉ dotdot)
    · exact zero_not_mem_linkName k
  inj := by
    intro j k hj hk h
    have hlen : ∀ k, (linksEntry d k).2.length = if k = 0 then 1 else if k = 1 then 2 else 4 := by
      intro k
      unfold linksEntry
      split_ifs <;> rfl
    have heq := congrArg List.length h
    rw [hlen, hlen] at heq
    by_cases hsmall : 2 ≤ j ∧ 2 ≤ k
    · unfold linksEntry at h
      rw [if_neg (by omega), if_neg (by omega), if_neg (by omega), if_neg (by omega)] at h
      exact linkName_inj (by omega) (by omega) h
    · split_ifs at heq <;> omega

end

section

variable {n lo : Nat} {m : FileNode} {entry : Nat → Nat × List UInt8} {d : Nat}

/-- The node has the first `n` entries of `entry`. -/
structure HasEntries (m : FileNode) (n : Nat) (entry : Nat → Nat × List UInt8) : Prop where
  size : m.size = 16 * n
  val : ∀ k < n, m.entry k = ⟨(entry k).1, strncpy (entry k).2 dirsiz⟩
  used : ∀ k, (entry k).1 ≠ 0

lemma HasEntries.isDir (h : HasEntries m n entry) (hg : GoodNames n entry) (hn : 2 ≤ n)
    (h0 : entry 0 = (d, dot)) (h1 : (entry 1).2 = dotdot) : m.IsDir d := by
  have hkey : ∀ k < n, m.key k = strncpy (entry k).2 dirsiz := by
    intro k hk
    rw [FileNode.key, h.val k hk, strncpy_strncpy]
  have hsize := h.size
  refine ⟨by omega, by omega, ⟨?_, ?_⟩, ⟨?_, ?_⟩, fun j k hj hk he => ?_⟩
  · rw [h.val 0 (by omega), h0]
  · rw [hkey 0 (by omega), h0]
  · rw [h.val 1 (by omega)]
    exact h.used 1
  · rw [hkey 1 (by omega), h1]
  · have hjn : j < n := by
      have := hj.1
      omega
    have hkn : k < n := by
      have := hk.1
      omega
    rw [hkey j hjn, hkey k hkn] at he
    exact hg.inj j k hjn hkn (strncpy_inj (hg.len j) (hg.nul j) (hg.len k) (hg.nul k) he)

lemma HasEntries.named (h : HasEntries m n entry) : m.named lo = gather n fun k => if lo ≤ k then
    [(entry k).1] else [] := by
  rw [FileNode.named, h.size, Nat.mul_div_cancel_left n (by decide)]
  refine gather_congr fun k hk => ?_
  rw [FileNode.refsAt, h.val k hk]
  by_cases hlo : lo ≤ k
  · rw [if_pos ⟨hlo, h.used k⟩, if_pos hlo]
  · rw [if_neg fun hc => hlo hc.1, if_neg hlo]

variable {G : Nat → List Nat} {i : Nat}

lemma gather_const {a : Nat} (h : ∀ k, 2 ≤ k → G k = [a]) (n : Nat) :
    gather (n + 2) G = G 0 ++ G 1 ++ List.replicate n a := by
  induction n with
  | zero => simp [gather, range_succ]
  | succ n ih => rw [gather_succ, ih, h (n + 2) (by omega), replicate_succ', append_assoc]

lemma gather_low {b : Nat} (h : ∀ k, b ≤ k → G k = []) (n : Nat) : gather (b + n) G = gather b G := by
  induction n with
  | zero => rfl
  | succ n ih => rw [← Nat.add_assoc, gather_succ, ih, h (b + n) (Nat.le_add_right ..), append_nil]

lemma gather_five (G : Nat → List Nat) : gather 5 G = G 0 ++ G 1 ++ G 2 ++ G 3 ++ G 4 := by
  simp [gather, range_succ]

lemma count_links (p q i : Nat) :
    ([1, 2, 3, 4] ++ (1 :: List.replicate p 2) ++ (1 :: List.replicate q 2)).count i =
    if i = 1 then 3 else if i = 2 then 1 + p + q else if i = 3 ∨ i = 4 then 1 else 0 := by
  by_cases h1 : i = 1
  · subst h1
    simp [count_replicate]
  by_cases h2 : i = 2
  · subst h2
    simp
    omega
  by_cases h3 : i = 3
  · subst h3
    simp [count_replicate]
  by_cases h4 : i = 4
  · subst h4
    simp [count_replicate]
  · have e1 : 1 ≠ i := Ne.symm h1
    have e2 : 2 ≠ i := Ne.symm h2
    have e3 : 3 ≠ i := Ne.symm h3
    have e4 : 4 ≠ i := Ne.symm h4
    simp [count_replicate, h1, h2, h3, h4, e1, e2, e3, e4]

lemma count_below (p q i : Nat) (hi : i ≠ 2) :
    ([2, 3, 4] ++ List.replicate p 2 ++ List.replicate q 2).count i =
    if i = 3 ∨ i = 4 then 1 else 0 := by
  have e2 : 2 ≠ i := Ne.symm hi
  by_cases h3 : i = 3
  · subst h3
    simp [count_replicate]
  by_cases h4 : i = 4
  · subst h4
    simp [count_replicate]
  · have e3 : 3 ≠ i := Ne.symm h3
    have e4 : 4 ≠ i := Ne.symm h4
    simp [count_replicate, h3, h4, e2, e3, e4]

lemma linkImage_node : (mount mkfsSb linkImage).node i =
    if 1 ≤ i ∧ i ≤ 4 then some ((linkInode i).toNode linkImage) else none := by
  by_cases hlt : i < mkfsSb.ninodes
  · rw [Fs.node_of_lt hlt]
    by_cases h : 1 ≤ i ∧ i ≤ 4
    · rw [linkImage_dinode h, if_pos h]
      refine if_neg ?_
      rw [linkInode_type h]
      split_ifs <;> decide
    · rw [nodeOf_eq_none.mpr (linkImage_free hlt h), if_neg h]
  · have hge : 200 ≤ i := not_lt.mp hlt
    rw [Fs.node_of_ge hlt, if_neg (by omega)]

lemma linkImage_some {m : FileNode} (h : (mount mkfsSb linkImage).node i = some m) :
    (1 ≤ i ∧ i ≤ 4) ∧ m = (linkInode i).toNode linkImage := by
  rw [linkImage_node] at h
  split_ifs at h with hi
  exact ⟨hi, (Option.some.inj h).symm⟩

lemma LinkDir.entries {n start : Nat} {entry : Nat → Nat × List UInt8} (h : LinkDir i n start entry)
    (hi : 1 ≤ i ∧ i ≤ 4) : HasEntries ((linkInode i).toNode linkImage) n entry where
  size := h.size
  val := fun k hk => by
    have hnode := linkImage_node (i := i)
    rw [if_pos hi, Fs.node_of_lt (hi.2.trans_lt (by decide)), linkImage_dinode hi] at hnode
    rw [← h.dirent hk]
    refine (entry_of_nodeOf hnode ?_).symm
    rw [h.size]
    omega
  used := fun k => (h.low k).1.ne'

lemma linkInode_live (hi : 1 ≤ i ∧ i ≤ 4) : ((linkInode i).toNode linkImage).Live ↔ i ≠ 2 := by
  obtain rfl | rfl | rfl | rfl : i = 1 ∨ i = 2 ∨ i = 3 ∨ i = 4 := by omega
  · exact ⟨fun _ => by decide, fun _ => ⟨rfl, by decide⟩⟩
  · exact ⟨fun h => absurd h.1 (by decide), fun h => absurd rfl h⟩
  · exact ⟨fun _ => by decide, fun _ => ⟨rfl, by decide⟩⟩
  · exact ⟨fun _ => by decide, fun _ => ⟨rfl, by decide⟩⟩

lemma linkImage_names (lo : Nat) : names mkfsSb.ninodes lo (mount mkfsSb linkImage).node =
    ((linkInode 1).toNode linkImage).named lo ++ ((linkInode 3).toNode linkImage).named lo ++
      ((linkInode 4).toNode linkImage).named lo := by
  have hlow : names mkfsSb.ninodes lo (mount mkfsSb linkImage).node = gather 5 fun d =>
    namedBy lo ((mount mkfsSb linkImage).node d) := by
    refine gather_low (b := 5) (fun k hk => ?_) 195
    rw [linkImage_node, if_neg (by omega)]
    rfl
  have hdir : ∀ i, 1 ≤ i ∧ i ≤ 4 → i ≠ 2 →
      namedBy lo ((mount mkfsSb linkImage).node i) = ((linkInode i).toNode linkImage).named lo := by
    intro i hi h2
    rw [linkImage_node, if_pos hi, namedBy, if_pos ((linkInode_live hi).mpr h2)]
  have h0 : namedBy lo ((mount mkfsSb linkImage).node 0) = [] := by
    rw [linkImage_node]
    rfl
  have h2 : namedBy lo ((mount mkfsSb linkImage).node 2) = [] := by
    rw [linkImage_node, if_pos (by decide), namedBy, if_neg fun h =>
      (linkInode_live (by decide)).mp h rfl]
  rw [hlow, gather_five, h0, h2, hdir 1 (by decide) (by decide), hdir 3 (by decide) (by decide),
    hdir 4 (by decide) (by decide), nil_append, append_nil]

lemma HasEntries.named_links {m : FileNode} {n d : Nat} (h : HasEntries m (n + 2) (linksEntry d)) :
    m.named 1 = 1 :: List.replicate n 2 ∧ m.named 2 = List.replicate n 2 := by
  have hlinks : ∀ lo ≤ 2, ∀ k, 2 ≤ k → (if lo ≤ k then [(linksEntry d k).1] else []) = [2] := by
    intro lo hlo k hk
    rw [if_pos (by omega), linksEntry, if_neg (by omega), if_neg (by omega)]
  rw [h.named, h.named, gather_const (hlinks 1 (by decide)), gather_const (hlinks 2 (by decide))]
  exact ⟨rfl, rfl⟩

lemma linkImage_names_one : names mkfsSb.ninodes 1 (mount mkfsSb linkImage).node =
    [1, 2, 3, 4] ++ (1 :: List.replicate 17150 2) ++ (1 :: List.replicate 15616 2) := by
  have hroot : ((linkInode 1).toNode linkImage).named 1 = [1, 2, 3, 4] :=
    (linkRoot_dir.entries (by decide)).named
  rw [linkImage_names, hroot, (linkDirA_dir.entries (by decide)).named_links.1,
    (linkDirB_dir.entries (by decide)).named_links.1]

lemma linkImage_names_two : names mkfsSb.ninodes 2 (mount mkfsSb linkImage).node =
    [2, 3, 4] ++ List.replicate 17150 2 ++ List.replicate 15616 2 := by
  have hroot : ((linkInode 1).toNode linkImage).named 2 = [2, 3, 4] :=
    (linkRoot_dir.entries (by decide)).named
  rw [linkImage_names, hroot, (linkDirA_dir.entries (by decide)).named_links.2,
    (linkDirB_dir.entries (by decide)).named_links.2]

/-- The directories: entries with good names, the second one for the root directory, the others for
the file and, in the root directory, for the other directories. -/
lemma linkImage_live {m : FileNode} (h : (mount mkfsSb linkImage).node i = some m) (hl : m.Live) :
    ∃ n entry, HasEntries m n entry ∧ GoodNames n entry ∧ 2 ≤ n ∧ entry 0 = (i, dot) ∧
    entry 1 = (1, dotdot) ∧ ∀ k < n, 2 ≤ k → (entry k).1 = 2 ∨ i = 1 ∧ (entry k).1 ≠ 1 := by
  obtain ⟨hi, rfl⟩ := linkImage_some h
  have h2 := (linkInode_live hi).mp hl
  have hlinks : ∀ d k, 2 ≤ k → (linksEntry d k).1 = 2 ∨ d = 1 ∧ (linksEntry d k).1 ≠ 1 := by
    intro d k hk
    rw [linksEntry, if_neg (by omega), if_neg (by omega)]
    exact .inl rfl
  obtain rfl | rfl | rfl : i = 1 ∨ i = 3 ∨ i = 4 := by omega
  · refine ⟨5, linkRootEntry, linkRoot_dir.entries hi, linkRootEntry_names, by decide, rfl, rfl,
      fun k hk hk2 => .inr ⟨rfl, ?_⟩⟩
    unfold linkRootEntry
    split_ifs <;> omega
  · exact ⟨_, _, linkDirA_dir.entries hi, linksEntry_names 3 (by decide), by decide, rfl, rfl,
      fun k _ => hlinks 3 k⟩
  · exact ⟨_, _, linkDirB_dir.entries hi, linksEntry_names 4 (by decide), by decide, rfl, rfl,
      fun k _ => hlinks 4 k⟩

lemma linkImage_tree : TreeImage mkfsSb linkImage where
  toWellFormed := linkImage_wellFormed
  tree := by
    have hup : ∀ {d : Nat} {m : FileNode}, (mount mkfsSb linkImage).node d = some m → m.Live →
      (m.entry 1).inum = 1 := by
      intro d m hm hl
      obtain ⟨n, entry, he, -, hn, -, h1, -⟩ := linkImage_live hm hl
      rw [he.val 1 (by omega), h1]
    have hroot : (mount mkfsSb linkImage).node rootino = some ((linkInode 1).toNode linkImage) := by
      rw [linkImage_node]
      rfl
    have hlive := (linkInode_live (i := 1) (by decide)).mpr (by decide)
    refine ⟨fun i hi => (mount mkfsSb linkImage).node_lt hi, by rw [linkImage_node]; rfl,
      fun i m hm => ?_, fun i hi => ?_,
      ⟨_, hroot, hlive, hup hroot hlive⟩, ?_, fun d m hm hl => ?_, fun d m hm hl hd => ?_,
      fun d m k me hm hl hk hu hme htype => ?_, fun d m hm hl => ?_⟩
    · obtain ⟨hi, rfl⟩ := linkImage_some hm
      rw [linkImage_names_one, count_links]
      obtain rfl | rfl | rfl | rfl : i = 1 ∨ i = 2 ∨ i = 3 ∨ i = 4 := by omega
      all_goals rfl
    · rw [linkImage_names_one, count_links]
      rw [linkImage_node] at hi
      split_ifs at hi with h1
      rw [if_neg (by omega), if_neg (by omega), if_neg (by omega)]
    · rw [linkImage_names_two, count_below _ _ _ (by decide)]
      rfl
    · obtain ⟨n, entry, he, hg, hn, h0, h1, -⟩ := linkImage_live hm hl
      exact he.isDir hg hn h0 (congrArg Prod.snd h1)
    · obtain ⟨hi, rfl⟩ := linkImage_some hm
      have h2 := (linkInode_live hi).mp hl
      have hd : d ≠ 1 := hd
      rw [linkImage_names_two, count_below _ _ _ h2, if_pos (by omega)]
    · obtain ⟨n, entry, he, -, -, -, -, hlinks⟩ := linkImage_live hm hl
      have hkn : k < n := by
        have hlt := hu.1
        rw [he.size] at hlt
        omega
      rw [he.val k hkn] at hme
      obtain ⟨hi, rfl⟩ := linkImage_some hme
      have hfile : (entry k).1 = 2 → ((linkInode (entry k).1).toNode linkImage).type ≠ tDir := by
        intro h2
        rw [h2]
        decide
      rcases hlinks k hkn hk with h2 | ⟨rfl, -⟩
      · exact absurd htype (hfile h2)
      · exact hup hme ((linkInode_live hi).mpr fun h2 => hfile h2 htype)
    · by_cases hd : d = rootino
      · rw [hd]
        exact .root
      · exact .up hm hl ((hup hm hl).symm ▸ .root)

end

end Xv6
