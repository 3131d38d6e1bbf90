import Xv6.FsOps

/-! The image that `mkfs` makes of no files: the root directory, with its entries for
itself in the first data block, and nothing else. -/

namespace Xv6

lemma zero_lt16 : 0 < 2 ^ 16 := by decide

lemma one_lt16 : 1 < 2 ^ 16 := by decide

lemma tDir_lt16 : tDir < 2 ^ 16 := by decide

lemma bsize_lt32 : bsize < 2 ^ 32 := by decide

def rootDinode : Dinode where
  type := tDir
  major := 0
  minor := 0
  nlink := 1
  size := bsize
  addrs := fun i => if i = 0 then 46 else 0
  type_lt := tDir_lt16
  major_lt := zero_lt16
  minor_lt := zero_lt16
  nlink_lt := one_lt16
  size_lt := bsize_lt32
  addrs_lt := fun i => by split <;> decide
  addrs_end := fun i hi => if_neg (by omega)

def rootBitmap : Block := fun i => if i.val < 5 then 255 else if i.val = 5 then 127 else 0

def rootDir : Block :=
  ((Bytes.fill bsize 0).patch 0 (putDirent rootino dot)).patch 16 (putDirent rootino dotdot)

def rootImage : Disk := fun b =>
  if b = 32 then setDinode (Bytes.fill bsize 0) rootino rootDinode
  else if b = 45 then rootBitmap
  else if b = 46 then rootDir
  else Bytes.fill bsize 0

lemma mkfsSb_layout : Layout mkfsSb := by
  refine ⟨by decide, by decide, by decide, fun i hi => ?_, by decide, fun b hb => ?_,
    by decide, by decide, by decide, by decide⟩
  · have hi : i < 200 := hi
    show i / 16 + 32 < 45
    omega
  · have hb : b < 2000 := hb
    show b / 8192 + 45 < 46
    omega

variable {b i off : Nat}

lemma rootImage_inodes (h : b ≠ 45) (h' : b ≠ 46) (hne : b ≠ 32) :
    rootImage b = Bytes.fill bsize 0 := by
  simp [rootImage, h, h', hne]

lemma rootImage_root : (mount mkfsSb rootImage).dinode rootino = rootDinode :=
  getDinode_setDinode_self _ _ (by decide)

lemma getDinode_zero_type (hi : i < ipb) : (getDinode (Bytes.fill bsize 0) i).type = 0 := by
  have hi : i < 16 := hi
  exact Bytes.field_fill_zero (by show 64 * i + 2 ≤ 1024; omega)

lemma rootImage_free (hi : i < mkfsSb.ninodes) (h : i ≠ rootino) :
    ((mount mkfsSb rootImage).dinode i).type = 0 := by
  have hi : i < 200 := hi
  have h : i ≠ 1 := h
  have hlt : i % ipb < ipb := Nat.mod_lt _ (by decide)
  show (getDinode (rootImage (i / 16 + 32)) (i % 16)).type = 0
  by_cases hb : i / 16 + 32 = 32
  · rw [hb]
    show (getDinode (setDinode (Bytes.fill bsize 0) rootino rootDinode) (i % 16)).type = 0
    rw [getDinode_setDinode_of_ne _ _ (show i % 16 ≠ rootino by show i % 16 ≠ 1; omega)]
    exact getDinode_zero_type hlt
  · rw [rootImage_inodes (by omega) (by omega) hb]
    exact getDinode_zero_type hlt

lemma getBit_of_full {m : Block} {q r : Nat} {v : UInt8} (hb : b < bpb)
    (hm : ∀ k (hk : k < bsize), m ⟨k, hk⟩ = if k < q then 255 else if k = q then v else 0)
    (hv : ∀ k < 8, v.toNat.testBit k = decide (k < r))
    (hr : r < 8) : getBit m b = decide (b < 8 * q + r) := by
  have hb : b < 8192 := hb
  have hlt : b / 8 < bsize := by
    show b / 8 < 1024
    omega
  have hfull : ∀ r < 8, (255 : UInt8).toNat.testBit r = true := by decide
  have h8 : b % 8 < 8 := Nat.mod_lt _ (by decide)
  rw [getBit_eq_testBit, Bytes.get, dif_pos hlt, hm]
  by_cases h1 : b / 8 < q
  · rw [if_pos h1, decide_eq_true (by omega), hfull _ h8]
  · rw [if_neg h1]
    by_cases h2 : b / 8 = q
    · have hsplit : b < 8 * q + r ↔ b % 8 < r := by omega
      simp only [if_pos h2, hsplit, hv _ h8]
    · rw [if_neg h2, decide_eq_false (by omega)]
      simp

lemma mount_bit (disk : Disk) (hb : bblock mkfsSb b < nmeta mkfsSb) :
    b < bpb ∧ (mount mkfsSb disk).bit b = getBit (disk 45) b := by
  have hlt : b < 8192 := by
    have hb : b / 8192 + 45 < 46 := hb
    omega
  have hblk : bblock mkfsSb b = 45 := by
    show b / 8192 + 45 = 45
    omega
  refine ⟨hlt, ?_⟩
  show getBit (disk (bblock mkfsSb b)) (b % bpb) = _
  rw [hblk, Nat.mod_eq_of_lt (show b < bpb from hlt)]

lemma rootImage_bit (hb : bblock mkfsSb b < nmeta mkfsSb) :
    (mount mkfsSb rootImage).bit b = decide (b < 47) := by
  obtain ⟨hlt, hbit⟩ := mount_bit rootImage hb
  exact hbit.trans (getBit_of_full (q := 5) (r := 7) hlt (fun _ _ => rfl) (by decide) (by decide))

lemma rootImage_owns {o : Nat × Nat} :
    Owns mkfsSb rootImage (mount mkfsSb rootImage).dinode o b ↔ o = (rootino, 0) ∧ b = 46 := by
  constructor
  · rintro ⟨hi, ht, hs, hb⟩
    have ho : o.1 = rootino := by
      by_contra hne
      exact ht (rootImage_free hi hne)
    rw [ho, rootImage_root] at hs
    have hk : o.2 = 0 := by
      by_contra hne
      apply hb
      rw [← hs, slotAddr]
      simp [rootDinode, hne, ndirect]
    have hslot : slotAddr rootImage rootDinode o.2 = 46 := by rw [hk]; rfl
    exact ⟨Prod.ext ho hk, by rw [← hs, hslot]⟩
  · rintro ⟨rfl, rfl⟩
    refine ⟨by decide, ?_, ?_, by decide⟩
    · rw [rootImage_root]
      decide
    · rw [rootImage_root]
      rfl

lemma rootImage_block (bn : Nat) :
    fileBlock rootImage rootDinode bn = if bn = 0 then some rootDir else none := by
  by_cases hbn : bn = 0
  · subst hbn
    rfl
  · rw [if_neg hbn, fileBlock, if_pos]
    have hne : slotOf bn ≠ 0 := by
      unfold slotOf
      split <;> omega
    rw [slotAddr]
    simp [rootDinode, hne, ndirect]

lemma rootImage_byte {x : Nat} (hx : x < bsize) : fileByte rootImage rootDinode x = rootDir.get x := by
  rw [fileByte, rootImage_block, Nat.div_eq_of_lt hx, if_pos rfl, Option.getD_some, Nat.mod_eq_of_lt hx]

lemma rootImage_slice (h : off + 16 ≤ bsize) :
    fileSlice rootImage rootDinode off 16 = rootDir.slice off 16 := by
  refine List.map_congr_left fun j hj => ?_
  rw [List.mem_range] at hj
  exact rootImage_byte (by omega)

lemma slice_patch_dirent (b : Block) (h : off + 16 ≤ bsize) (inum : Nat) (name : List UInt8) :
    (b.patch off (putDirent inum name)).slice off 16 = putDirent inum name := by
  have hlen := putDirent_length inum name
  have hself := Bytes.slice_patch_self b (l := putDirent inum name) (by rw [hlen]; exact h)
  rwa [hlen] at hself

lemma rootImage_dirent {k : Nat} (hk : 16 * k + 16 ≤ bsize) :
    direntAt rootImage rootDinode (16 * k) = if k = 0 then ⟨rootino, strncpy dot dirsiz⟩
      else if k = 1 then ⟨rootino, strncpy dotdot dirsiz⟩
      else ⟨0, List.replicate 14 0⟩ := by
  have hlen := putDirent_length rootino
  rw [direntAt, rootImage_slice hk, rootDir]
  by_cases h0 : k = 0
  · subst h0
    rw [Bytes.slice_patch_of_disjoint _ (by omega), Nat.mul_zero, slice_patch_dirent _ (by decide),
      getDirent_putDirent (by decide), if_pos rfl]
  · rw [if_neg h0]
    by_cases h1 : k = 1
    · subst h1
      rw [Nat.mul_one, slice_patch_dirent _ (by decide), getDirent_putDirent (by decide), if_pos rfl]
    · rw [if_neg h1, Bytes.slice_patch_of_disjoint _ (by rw [hlen]; omega),
        Bytes.slice_patch_of_disjoint _ (by rw [hlen]; omega), ← getDirent_zero]
      congr 1
      refine List.eq_replicate_iff.mpr ⟨Bytes.slice_length _ _ _, fun b hb => ?_⟩
      simp only [Bytes.slice, List.mem_map, List.mem_range] at hb
      obtain ⟨i, hi, rfl⟩ := hb
      exact Bytes.get_fill 0 (by omega)

lemma rootImage_wellFormed : WellFormed mkfsSb rootImage where
  layout := mkfsSb_layout
  blocks := by
    refine ⟨fun o o' b h h' => ?_, fun o b h => ?_, fun b hb => ?_⟩
    · rw [(rootImage_owns.mp h).1, (rootImage_owns.mp h').1]
    · rw [(rootImage_owns.mp h).2]
      decide
    · rw [rootImage_bit hb, decide_eq_true_eq]
      constructor
      · intro hlt
        by_cases h46 : b = 46
        · exact .inr ⟨(rootino, 0), rootImage_owns.mpr ⟨rfl, h46⟩⟩
        · exact .inl (show b < 46 by omega)
      · rintro (hm | ⟨o, ho⟩)
        · have hm : b < 46 := hm
          omega
        · rw [(rootImage_owns.mp ho).2]
          decide
  holes := by
    intro i hi ht
    have hroot : i = rootino := by
      by_contra hne
      exact ht (rootImage_free hi hne)
    rw [hroot, rootImage_root]
    refine ⟨by decide, fun bn hbn => ?_⟩
    have hbn : bn * 1024 < 1024 := hbn
    show fileBlock rootImage rootDinode bn ≠ none
    rw [rootImage_block, if_pos (by omega)]
    exact Option.some_ne_none _
  dirs := by
    intro i hi ht k hk
    have hroot : i = rootino := by
      by_contra hne
      rw [rootImage_free hi hne] at ht
      cases ht
    rw [hroot, rootImage_root] at hk ⊢
    rw [rootImage_dirent hk]
    split
    · decide
    · split <;> decide

lemma rootImage_ialloc : ∃ ip s, FsReach (mount mkfsSb rootImage) [ip] s := by
  have htest : ((FsOp.ialloc tFile).prog []).test (mount mkfsSb rootImage) (fun held _ =>
      held.length = 1) = true := by
    decide +kernel
  obtain ⟨held, s, hr, hlen⟩ := Thread.returns_of_test htest
  obtain ⟨ip, rfl⟩ := List.length_eq_one_iff.mp (of_decide_eq_true hlen)
  have hl : (FsOp.ialloc tFile).Legal (mount mkfsSb rootImage) [] := trivial
  exact ⟨ip, s, FsReach.start.op hl hr⟩

end Xv6
