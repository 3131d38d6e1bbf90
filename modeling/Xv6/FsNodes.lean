import Xv6.DirEntries

/-! Files as a caller sees them: the abstract file behind an inode number, and what the
operations of the inode layer do to it. -/

namespace Xv6

open Kern List
open Function (update update_eq_self update_idem update_of_ne update_self)

/-- An allocated inode. Bytes past the end read as zeros. -/
@[ext] structure FileNode where
  type : Nat
  major : Nat
  minor : Nat
  nlink : Nat
  size : Nat
  data : Nat → UInt8

def Dinode.toNode (d : Dinode) (disk : Disk) : FileNode :=
  ⟨d.type, d.major, d.minor, d.nlink, d.size, fun x => if x < d.size then fileByte disk d x else 0⟩

def nodeOf (disk : Disk) (d : Dinode) : Option FileNode :=
  if d.type = 0 then none else some (d.toNode disk)

def Fs.node (s : Fs) (i : Nat) : Option FileNode :=
  if i < s.sb.ninodes then nodeOf s.disk (s.dinode i) else none

namespace FileNode

def entry (n : FileNode) (k : Nat) : Dirent :=
  getDirent ((List.range 16).map fun j => n.data (16 * k + j))

def setNlink (n : FileNode) (v : Nat) : FileNode := { n with nlink := v % 2 ^ 16 }

def incNlink (n : FileNode) : FileNode := n.setNlink (n.nlink + 1)

def decNlink (n : FileNode) : FileNode := n.setNlink (n.nlink + (2 ^ 16 - 1))

/-- The node after `data` was written from `off` on. -/
def write (n : FileNode) (off : Nat) (bytes : List UInt8) : FileNode :=
  { n with
    size := max n.size (off + bytes.length)
    data := fun x => if off ≤ x ∧ x < off + bytes.length then bytes.getD (x - off) 0 else n.data x }

def cleared (n : FileNode) : FileNode := { n with size := 0, data := fun _ => 0 }

def fresh (type : Nat) : FileNode := ⟨type % 2 ^ 16, 0, 0, 0, 0, fun _ => 0⟩

end FileNode

def srcBytes (src : Src) (k : Nat) : List UInt8 := (List.range k).map fun j => (src j).getD 0

@[simp] lemma srcBytes_length (src : Src) (k : Nat) : (srcBytes src k).length = k := by simp [srcBytes]

lemma srcBytes_getD (src : Src) {k j : Nat} (hj : j < k) :
    (srcBytes src k).getD j 0 = (src j).getD 0 := by
  simp [srcBytes, getD_eq_getElem?_getD, hj]

lemma FileNode.write_nil {m : FileNode} {off : Nat} (h : off ≤ m.size) : m.write off [] = m := by
  unfold write
  have hsize : max m.size (off + ([] : List UInt8).length) = m.size := by simp [h]
  have hdata : (fun x => if off ≤ x ∧ x < off + ([] : List UInt8).length then
    ([] : List UInt8).getD (x - off) 0 else m.data x) = m.data := by
    funext x
    exact if_neg (by simp only [length_nil]; omega)
  rw [hsize, hdata]

section

variable {s s' : Fs} {ip i : Nat} {d d' : Dinode} {disk disk' : Disk} {n : FileNode}

lemma nodeOf_congr (hh : d'.head = d.head)
    (hb : ∀ bn, fileBlock disk' d' bn = fileBlock disk d bn) : nodeOf disk' d' = nodeOf disk d := by
  simp only [Dinode.head, Prod.mk.injEq] at hh
  obtain ⟨ht, hj, hn, hl, hs⟩ := hh
  have hbyte : ∀ x, fileByte disk' d' x = fileByte disk d x := fun x => by rw [fileByte, hb, fileByte]
  simp only [nodeOf, Dinode.toNode, ht, hj, hn, hl, hs, hbyte]

lemma nodeOf_eq_none : nodeOf disk d = none ↔ d.type = 0 := by
  unfold nodeOf
  split <;> simp_all

lemma nodeOf_some (h : nodeOf disk d = some n) : d.type ≠ 0 ∧ n = d.toNode disk := by
  unfold nodeOf at h
  split at h
  · cases h
  · cases h
    exact ⟨by assumption, rfl⟩

lemma Fs.node_of_lt (h : i < s.sb.ninodes) : s.node i = nodeOf s.disk (s.dinode i) := if_pos h

lemma Fs.node_of_ge (h : ¬ i < s.sb.ninodes) : s.node i = none := if_neg h

lemma Fs.node_congr (hsb : s'.sb = s.sb) (hd : s'.disk = s.disk) : s'.node = s.node := by
  funext i
  simp only [Fs.node, Fs.dinode, hsb, hd]

lemma Fs.node_update (hsb : s'.sb = s.sb) (hi : i < s.sb.ninodes)
    (ho : ∀ j < s.sb.ninodes, j ≠ i → s'.dinode j = s.dinode j)
    (hf : ∀ j < s.sb.ninodes, j ≠ i → (s.dinode j).type ≠ 0 → ∀ bn,
      fileBlock s'.disk (s.dinode j) bn = fileBlock s.disk (s.dinode j) bn) :
    s'.node = update s.node i (nodeOf s'.disk (s'.dinode i)) := by
  funext j
  by_cases hji : j = i
  · subst hji
    rw [update_self, Fs.node_of_lt (by rw [hsb]; exact hi)]
  rw [update_of_ne hji]
  by_cases hj : j < s.sb.ninodes
  · rw [Fs.node_of_lt (by rw [hsb]; exact hj), Fs.node_of_lt hj, ho j hj hji]
    by_cases ht : (s.dinode j).type = 0
    · rw [nodeOf_eq_none.mpr ht, nodeOf_eq_none.mpr ht]
    · exact nodeOf_congr rfl (hf j hj hji ht)
  · rw [Fs.node_of_ge (by rw [hsb]; exact hj), Fs.node_of_ge hj]

lemma Saved.node (h : Saved ip s s') (hi : (s.itable ip).inum < s.sb.ninodes) :
    s'.node = update s.node (s.itable ip).inum (nodeOf s'.disk (s'.itable ip).din) := by
  rw [Fs.node_update h.sb hi h.other h.files, h.self]

lemma Freed.node (h : Freed ip s s') (hi : (s.itable ip).inum < s.sb.ninodes) :
    s'.node = update s.node (s.itable ip).inum none := by
  rw [Fs.node_update h.sb hi h.other h.files, nodeOf_eq_none.mpr h.self]

lemma PutDinode.node (h : PutDinode i d s s') (hi : i < s.sb.ninodes) (hinv : DiskInv s) :
    s'.node = update s.node i (nodeOf s'.disk d) := by
  rw [Fs.node_update h.sb hi (fun j _ hj => h.other j hj) fun j hj _ ht =>
    fileBlock_of_data hinv.own hj ht fun x hx => h.data x ?_, h.self]
  exact Nat.le_trans (Nat.le_of_lt hinv.layout.bmap_meta) hx

lemma nodeOf_fresh (type : Nat) (h : type % 2 ^ 16 ≠ 0) :
    nodeOf disk (Dinode.zero.setType type) = some (FileNode.fresh type) := by
  rw [nodeOf, if_neg (by simpa [Dinode.setType] using h)]
  simp [FileNode.fresh, Dinode.toNode, Dinode.setType, Dinode.zero]

lemma FsInv.node_loaded (hi : FsInv s) (hip : Loaded ip s) :
    s.node (s.itable ip).inum = nodeOf s.disk (s.itable ip).din ∧ s.node (s.itable ip).inum ≠ none := by
  obtain ⟨hd, ht⟩ := hi.coherent ip hip.lt hip.ref hip.valid
  rw [Fs.node_of_lt (hi.inum ip hip.lt hip.ref), ← hd]
  exact ⟨rfl, fun hn => ht (nodeOf_eq_none.mp hn)⟩

lemma FsInv.node_type (hi : FsInv s) (hip : Loaded ip s) (hn : s.node (s.itable ip).inum = some n) :
    (s.itable ip).din.type = n.type ∧ (s.itable ip).din.nlink = n.nlink ∧
    (s.itable ip).din.size = n.size := by
  rw [(hi.node_loaded hip).1] at hn
  obtain ⟨-, rfl⟩ := nodeOf_some hn
  exact ⟨rfl, rfl, rfl⟩

variable {k off w : Nat} {E : Panics} {data : List UInt8}

lemma entry_of_nodeOf (h : nodeOf disk d = some n) (hk : 16 * k + 16 ≤ d.size) :
    direntAt disk d (16 * k) = n.entry k := by
  obtain ⟨-, rfl⟩ := nodeOf_some h
  rw [direntAt, fileSlice, FileNode.entry]
  congr 1
  refine map_congr_left fun j hj => ?_
  have hj' := mem_range.mp hj
  exact (if_pos (by omega)).symm

lemma updateDin_node {f : Dinode → Dinode} (hi : FsInv s) (hip : Loaded ip s)
    (htx : 1 ≤ s.outstanding) (hf : (s.itable ip).din.SameFile (f (s.itable ip).din))
    {g : FileNode → FileNode}
    (hg : (f (s.itable ip).din).toNode s.disk = g ((s.itable ip).din.toNode s.disk))
    (hn : s.node (s.itable ip).inum = some n) : Sat (updateDin ip f) s E fun _ s' => FsInv s' ∧
    Saved ip s s' ∧ s'.node = update s.node (s.itable ip).inum (some (g n)) := by
  refine (updateDin_sat hi hip htx hf).imp ?_
  rintro _ s' ⟨hi', hs, hd, hb⟩
  refine ⟨hi', hs, ?_⟩
  rw [hs.node (hi.inum ip hip.lt hip.ref)]
  congr 1
  rw [(hi.node_loaded hip).1] at hn
  obtain ⟨hne, rfl⟩ := nodeOf_some hn
  have hfile :
    ∀ bn, fileBlock s'.disk (s'.itable ip).din bn = fileBlock s.disk (f (s.itable ip).din) bn := by
    intro bn
    rw [hb]
    unfold fileBlock slotAddr
    rw [hf.addrs]
  rw [nodeOf_congr (congrArg Dinode.head hd) hfile, nodeOf, if_neg (by rw [hf.type]; exact hne), hg]

lemma toNode_setNlink (d : Dinode) (disk : Disk) (v : Nat) :
    (d.setNlink v).toNode disk = (d.toNode disk).setNlink v :=
  rfl

lemma toNode_incNlink (d : Dinode) (disk : Disk) : d.incNlink.toNode disk = (d.toNode disk).incNlink :=
  toNode_setNlink d disk _

lemma toNode_decNlink (d : Dinode) (disk : Disk) : d.decNlink.toNode disk = (d.toNode disk).decNlink :=
  toNode_setNlink d disk _

lemma itrunc_node (hi : FsInv s) (hip : Loaded ip s) (htx : 1 ≤ s.outstanding)
    (hn : s.node (s.itable ip).inum = some n) : Sat (itrunc ip) s E fun _ s' => FsInv s' ∧
    Saved ip s s' ∧ s'.node = update s.node (s.itable ip).inum (some n.cleared) := by
  refine (hi.trunc hip htx).imp ?_
  rintro _ s' ⟨hi', hs, hd⟩
  refine ⟨hi', hs, ?_⟩
  rw [hs.node (hi.inum ip hip.lt hip.ref)]
  congr 1
  rw [(hi.node_loaded hip).1] at hn
  obtain ⟨hne, rfl⟩ := nodeOf_some hn
  rw [nodeOf, hd, if_neg (show (s.itable ip).din.cleared.type ≠ 0 from hne)]
  simp [FileNode.cleared, Dinode.cleared, Dinode.toNode]

lemma WroteFile.node {src : Src} {m : Nat} (hi : FsInv s) (hip : Loaded ip s)
    (h : WroteFile ip src off m s s' w) (hn : s.node (s.itable ip).inum = some n) :
    ∃ n' : FileNode, s'.node = update s.node (s.itable ip).inum (some n') ∧ n'.type = n.type ∧
      n'.major = n.major ∧ n'.minor = n.minor ∧ n'.nlink = n.nlink := by
  rw [h.saved.node (hi.inum ip hip.lt hip.ref)]
  rw [(hi.node_loaded hip).1] at hn
  obtain ⟨hne, rfl⟩ := nodeOf_some hn
  rw [nodeOf, if_neg (by rw [h.type]; exact hne)]
  exact ⟨_, rfl, h.type, h.major, h.minor, h.nlink⟩

lemma WroteFile.node_write {src : Src} {m : FileNode} (hi : FsInv s) (hip : Loaded ip s)
    (h : WroteFile ip src off k s s' w)
    (hsrc : ∀ j, src j ≠ none) (hm : s.node (s.itable ip).inum = some m) :
    s'.node = update s.node (s.itable ip).inum (some (m.write off (srcBytes src w))) := by
  rw [h.saved.node (hi.inum ip hip.lt hip.ref)]
  congr 1
  rw [(hi.node_loaded hip).1] at hm
  obtain ⟨hne, rfl⟩ := nodeOf_some hm
  obtain ⟨w', -, hw', hbytes⟩ := h.bytes
  have hww := hw' hsrc
  subst hww
  have hoff := h.off_le
  rw [nodeOf, if_neg (by rw [h.type]; exact hne)]
  simp only [Dinode.toNode, h.type, h.major, h.minor, h.nlink, h.size]
  refine congrArg some (FileNode.ext rfl rfl rfl rfl (by simp [FileNode.write]) (funext fun x => ?_))
  simp only [FileNode.write, hbytes, srcBytes_length]
  by_cases hx : off ≤ x ∧ x < off + w'
  · rw [if_pos (by omega), if_pos hx, if_pos hx, srcBytes_getD src (by omega)]
  · rw [if_neg hx, if_neg hx]
    by_cases hs : x < (s.itable ip).din.size
    · rw [if_pos (by omega), if_pos hs]
    · rw [if_neg (by omega), if_neg hs]

lemma WroteFile.node_kernel (hi : FsInv s) (hip : Loaded ip s)
    (h : WroteFile ip (kernelSrc data) off data.length s s' w) (hw : w = 0 ∨ w = data.length)
    (hn : s.node (s.itable ip).inum = some n) :
    s'.node = update s.node (s.itable ip).inum
    (some (if w = data.length then n.write off data else n)) := by
  rw [h.node_write hi hip (kernelSrc_ne_none data) hn]
  rcases hw with rfl | rfl
  · have hoff : off ≤ n.size := by
      rw [(hi.node_loaded hip).1] at hn
      rw [(nodeOf_some hn).2]
      exact h.off_le
    have hnil : srcBytes (kernelSrc data) 0 = [] := rfl
    rw [hnil, FileNode.write_nil hoff]
    split_ifs with h0
    · rw [length_eq_zero_iff.mp h0.symm, FileNode.write_nil hoff]
    · rfl
  · have hall : srcBytes (kernelSrc data) data.length = data := by
      refine ext_getElem (srcBytes_length _ _) fun j _ hj => ?_
      simp [srcBytes, kernelSrc, hj]
    rw [if_pos rfl, hall]

lemma writeDirent_node {dp : Nat} (hi : FsInv s) (hip : Loaded dp s)
    (htx : 1 ≤ s.outstanding) (hlen : data.length = 16) (hoff : off % 16 = 0) (hlt : off < 2 ^ 31)
    (hnum : (getDirent data).inum < s.sb.ninodes) (hn : s.node (s.itable dp).inum = some n) :
    Sat (writei dp (kernelSrc data) (.ofNat off) 16) s E fun r s' => FsInv s' ∧ Saved dp s s' ∧
      s'.node = update s.node (s.itable dp).inum (some (if r = 16 then n.write off data else n)) ∧
      (off + 16 ≤ n.size → r = 16) ∧ (r = 16 → off ≤ n.size) := by
  have hsz := (hi.node_type hip hn).2.2
  refine ((writeDirent_sat hi hip htx hlen hoff hlt hnum).and (writei_sat hi hip htx _ _)).imp ?_
  rintro r s' ⟨⟨hi', hwrote, hdone, hle⟩, hw⟩
  rw [hsz] at hdone hle
  refine ⟨hi', hwrote.saved, ?_, hdone, hle⟩
  have htoNat : (UInt32.ofNat off).toNat = off := by
    rw [UInt32.toNat_ofNat']
    omega
  have h16 : (16 : UInt32).toNat = 16 := rfl
  rcases hw with ⟨rfl, rfl, -⟩ | ⟨w, rfl, hw⟩
  · rw [if_neg (by decide), ← hn, update_eq_self]
  · rw [htoNat, h16, ← hlen] at hw
    have hcase := hw.chunk (by rw [hlen]; simp only [bsize]; omega)
    have hcast : ((w : Int) = 16) ↔ w = data.length := by omega
    rw [hw.node_kernel hi hip hcase hn]
    simp only [hcast]

end

section

variable {s s' : Fs} {dp ip : Nat} {n : FileNode} {name : List UInt8} {E : Panics}

lemma FileNode.entry_write {data : List UInt8} (hlen : data.length = 16) (j k : Nat) :
    (n.write (16 * j) data).entry k = if k = j then getDirent data else n.entry k := by
  unfold entry write
  by_cases hk : k = j
  · subst hk
    rw [if_pos rfl]
    congr 1
    refine ext_getElem (by simp [hlen]) fun i h1 h2 => ?_
    have hi : i < 16 := by simpa using h1
    simp only [getElem_map, getElem_range]
    rw [if_pos (by omega), Nat.add_sub_cancel_left, getD_eq_getElem _ _ h2]
  · rw [if_neg hk]
    congr 1
    refine map_congr_left fun i hi => ?_
    have hi' := mem_range.mp hi
    exact if_neg (by omega)

/-- Entry `k` of the directory has the name. -/
structure FileNode.Names (n : FileNode) (name : List UInt8) (k : Nat) : Prop where
  lt : 16 * k + 16 ≤ n.size
  used : (n.entry k).inum ≠ 0
  name : namecmp name (n.entry k).name = 0

def FileNode.lookup (n : FileNode) (name : List UInt8) : Option Nat :=
  ((List.range (n.size / 16)).find? fun k => (n.entry k).inum ≠ 0 ∧
    namecmp name (n.entry k).name = 0).map fun k =>
    (n.entry k).inum

variable {k : Nat}

lemma FileNode.scan_eq_some (h : n.Names name k) (hf : ∀ j < k, ¬ n.Names name j) :
    (List.range (n.size / 16)).find? (fun k => (n.entry k).inum ≠ 0 ∧
      namecmp name (n.entry k).name = 0) = some k := by
  have hlt := h.lt
  refine List.find?_range_eq_some.mpr ⟨by simp [h.used, h.name], mem_range.mpr (by omega),
    fun j hj => ?_⟩
  simp only [Bool.not_eq_true', decide_eq_false_iff_not]
  exact fun hc => hf j hj ⟨by omega, hc.1, hc.2⟩

lemma FileNode.scan_eq_none (h : ∀ k, ¬ n.Names name k) :
    (List.range (n.size / 16)).find? (fun k => (n.entry k).inum ≠ 0 ∧
      namecmp name (n.entry k).name = 0) = none := by
  refine List.find?_eq_none.mpr fun k hk => ?_
  have hlt := mem_range.mp hk
  simp only [decide_eq_true_eq]
  exact fun hc => h k ⟨by omega, hc.1, hc.2⟩

lemma FileNode.lookup_eq_some (h : n.Names name k) (hf : ∀ j < k, ¬ n.Names name j) :
    n.lookup name = some (n.entry k).inum := by
  rw [lookup, scan_eq_some h hf, Option.map_some]

lemma FileNode.lookup_eq_none (h : ∀ k, ¬ n.Names name k) : n.lookup name = none := by
  rw [lookup, scan_eq_none h, Option.map_none]

def Looked (name : List UInt8) (n : FileNode) (s s' : Fs) : Option (Nat × Nat) → Prop
  | none => s' = s ∧ n.size % 16 = 0 ∧ ∀ k, ¬ n.Names name k
  | some (ip, off) =>
    ∃ k, off = 16 * k ∧ n.Names name k ∧ (∀ j < k, ¬ n.Names name j) ∧ Got (n.entry k).inum s s' ip

lemma Scanned.names {disk : Disk} {d : Dinode} {hit : Option (Nat × Dirent)}
    (hn : nodeOf disk d = some n)
    (hsc : Scanned disk d (fun de => de.inum ≠ 0 && namecmp name de.name = 0)
      (dirOffs 0 d.size) hit) : match hit with
    | none => n.size % 16 = 0 ∧ ∀ k, ¬ n.Names name k
    | some (off, de) =>
      ∃ k, off = 16 * k ∧ de = n.entry k ∧ n.Names name k ∧ ∀ j < k, ¬ n.Names name j := by
  have hsz : d.size = n.size := by
    obtain ⟨-, rfl⟩ := nodeOf_some hn
    rfl
  have hhit : ∀ {k}, 16 * k + 16 ≤ n.size → ((decide ((direntAt disk d (16 * k)).inum ≠ 0) &&
      decide (namecmp name (direntAt disk d (16 * k)).name = 0)) = true ↔ n.Names name k) := by
    intro k hk
    rw [entry_of_nodeOf hn (by omega)]
    simp only [Bool.and_eq_true, decide_eq_true_eq]
    exact ⟨fun h => ⟨hk, h.1, h.2⟩, fun h => ⟨h.used, h.name⟩⟩
  cases hit with
  | none =>
    have hall : ∀ k, 16 * k < n.size → 16 * k + 16 ≤ n.size ∧ ¬ n.Names name k := by
      intro k hk
      have hsk := hsc (16 * k) (mem_dirOffs.mpr ⟨k, (Nat.zero_add _).symm, by omega⟩)
      have hle : 16 * k + 16 ≤ n.size := by omega
      exact ⟨hle, fun hh => Bool.false_ne_true (hsk.2.symm.trans ((hhit hle).mpr hh))⟩
    refine ⟨?_, fun k hk => (hall k (by have := hk.lt; omega)).2 hk⟩
    by_contra hodd
    have := (hall (n.size / 16) (by omega)).1
    omega
  | some q =>
    obtain ⟨off, de⟩ := q
    obtain ⟨hmem, hle, hde, hq, before, after, hsplit, hbefore⟩ := hsc
    obtain ⟨k, hk, hlt⟩ := mem_dirOffs.mp hmem
    rw [Nat.zero_add] at hk
    rw [hk] at hle hde
    have hlek : 16 * k + 16 ≤ n.size := by omega
    rw [hde] at hq
    refine ⟨k, hk, by rw [hde, entry_of_nodeOf hn (by omega)], (hhit hlek).mp hq, fun j hj hh => ?_⟩
    have hjmem : 16 * j ∈ before := by
      have hm : 16 * j ∈ dirOffs 0 d.size :=
        mem_dirOffs.mpr ⟨j, (Nat.zero_add _).symm, by have := hh.lt; omega⟩
      rw [hsplit] at hm
      rcases mem_append.mp hm with hm | hm
      · exact hm
      · have hsorted : (dirOffs 0 d.size).Pairwise (· < ·) := by
          unfold dirOffs
          refine pairwise_map.mpr (pairwise_lt_range.imp fun hab => ?_)
          omega
        rw [hsplit] at hsorted
        rcases mem_cons.mp hm with he | ha
        · omega
        · have hgt := (pairwise_cons.mp (pairwise_append.mp hsorted).2.1).1 _ ha
          omega
    exact Bool.false_ne_true ((hbefore _ hjmem).2.symm.trans ((hhit hh.lt).mpr hh))

lemma dirlookup_node (hi : FsInv s) (hip : Loaded dp s) (hn : s.node (s.itable dp).inum = some n)
    (htype : E "dirlookup not DIR" ∨ n.type = tDir) (hread : E "dirlookup read" ∨ n.size % 16 = 0)
    (hE : E "iget: no inodes") :
    Sat (dirlookup dp name) s E fun r s' => FsInv s' ∧ n.type = tDir ∧ Looked name n s s' r := by
  obtain ⟨ht, -, hsz⟩ := hi.node_type hip hn
  have hn' := (hi.node_loaded hip).1.symm.trans hn
  refine (dirlookup_sat hi hip (by rw [ht]; exact htype) (by rw [hsz]; exact hread) (.inl hE)).imp ?_
  rintro r s' ⟨hi', htd, hit, hsc, hr⟩
  refine ⟨hi', ht.symm.trans htd, ?_⟩
  have hnames := Scanned.names hn' hsc
  cases hit with
  | none =>
    cases r with
    | some q => exact hr.elim
    | none => exact ⟨hr, hnames⟩
  | some q =>
    cases r with
    | none => exact hr.elim
    | some r =>
      obtain ⟨hoff, hgot⟩ : r.2 = q.1 ∧ Got q.2.inum s s' r.1 := hr
      obtain ⟨k, hk, hde, hk', hfirst⟩ := hnames
      rw [hde] at hgot
      exact ⟨k, hoff.trans hk, hk', hfirst, hgot⟩

structure FileNode.FreeAt (n : FileNode) (k : Nat) : Prop where
  le : 16 * k ≤ n.size
  empty : 16 * k + 16 ≤ n.size → (n.entry k).inum = 0
  last : n.size < 16 * k + 16 → 16 * k = n.size
  first : ∀ j < k, (n.entry j).inum ≠ 0

lemma FreeSlot.freeAt {disk : Disk} {d : Dinode} {off : Nat} (h : FreeSlot disk d off)
    (hn : nodeOf disk d = some n) (hsz : d.size = n.size) : ∃ k, off = 16 * k ∧ n.FreeAt k := by
  have halign := h.aligned
  have hle := h.le
  obtain ⟨k, rfl⟩ : ∃ k, off = 16 * k := ⟨off / 16, by omega⟩
  refine ⟨k, rfl, by omega, fun hk => ?_, fun hk => by rw [h.last (by omega), hsz], fun j hj => ?_⟩
  · rw [← entry_of_nodeOf hn (by omega)]
    exact h.empty (by omega)
  · rw [← entry_of_nodeOf hn (by omega)]
    exact h.first j (by omega)

lemma dirlinkEntry_node {inum : Nat} (hi : FsInv s) (hip : Loaded dp s) (htx : 1 ≤ s.outstanding)
    (hn : s.node (s.itable dp).inum = some n) (hnum : inum < s.sb.ninodes)
    (hread : E "dirlink read" ∨ n.size % 16 = 0) :
    Sat (dirlinkEntry dp name inum) s E fun r s' => FsInv s' ∧ Saved dp s s' ∧
      ((r = -1 ∧ s'.node = s.node) ∨ ∃ k, r = 0 ∧ n.FreeAt k ∧
        s'.node = update s.node (s.itable dp).inum
        (some (n.write (16 * k) (putDirent inum name)))) := by
  have hs := hi.solid_of_loaded hip
  obtain ⟨-, -, hsz⟩ := hi.node_type hip hn
  have hn' := (hi.node_loaded hip).1.symm.trans hn
  unfold dirlinkEntry
  rw [sat_bind, sat_getState]
  refine (dirScan_sat hs (dirOffs_lt hs) (hread.imp_right fun h =>
    dirOffs_end (by rw [hsz]; exact h) rfl)).bind ?_
  rintro hit s1 ⟨rfl, hsc⟩
  have hslot := FreeSlot.of_scanned hsc
  generalize linkOff (s1.itable dp).din.size hit = off at hslot ⊢
  have hsize := hs.size_le
  have hle := hslot.le
  have hmax : maxfile * bsize = 274432 := rfl
  have hget := getDirent_putDirent (Nat.lt_of_lt_of_le hnum hi.layout.ninodes_le) name
  refine (writeDirent_node hi hip htx (putDirent_length inum name) hslot.aligned (by omega)
    (by rw [hget]; exact hnum) hn).bind ?_
  rintro r s' ⟨hi', hsaved, hnode, -⟩
  rw [sat_pure]
  refine ⟨hi', hsaved, ?_⟩
  by_cases hr : r = 16
  · rw [if_neg (not_not_intro hr)]
    rw [if_pos hr] at hnode
    obtain ⟨k, rfl, hfree⟩ := hslot.freeAt hn' hsz
    exact .inr ⟨k, rfl, hfree, hnode⟩
  · rw [if_pos hr]
    rw [if_neg hr, ← hn, update_eq_self] at hnode
    exact .inl ⟨rfl, hnode⟩

lemma isdirempty_node {E : String → Prop} (hi : FsInv s) (hip : Loaded dp s)
    (hn : s.node (s.itable dp).inum = some n)
    (hread : E "isdirempty: readi" ∨ n.size % 16 = 0) : Sat (isdirempty dp) s E fun r s' => s' = s ∧
      (r = true ↔ ∀ k, 2 ≤ k → 16 * k < n.size → (n.entry k).inum = 0 ∧ 16 * k + 16 ≤ n.size) := by
  have hs := hi.solid_of_loaded hip
  obtain ⟨-, -, hsz⟩ := hi.node_type hip hn
  have hn' := (hi.node_loaded hip).1.symm.trans hn
  unfold isdirempty
  rw [sat_bind, sat_getState]
  refine (dirScan_sat hs (dirOffs_lt hs) (hread.imp_right fun h =>
    dirOffs_end (by rw [hsz]; exact h) rfl)).bind ?_
  rintro hit s1 ⟨rfl, hsc⟩
  rw [sat_pure]
  refine ⟨rfl, ?_⟩
  cases hit with
  | none =>
    refine iff_of_true rfl fun k hk hlt => ?_
    have hmem := hsc (16 * k) (mem_dirOffs.mpr ⟨k - 2, by omega, by omega⟩)
    rw [entry_of_nodeOf hn' hmem.1] at hmem
    exact ⟨by simpa using hmem.2, by omega⟩
  | some q =>
    obtain ⟨hmem, hle, hde, hhit, -⟩ := hsc
    obtain ⟨k, hk, hlt⟩ := mem_dirOffs.mp hmem
    refine iff_of_false (by simp) fun h => ?_
    have h0 := (h (k + 2) (by omega) (by omega)).1
    rw [show q.1 = 16 * (k + 2) by omega] at hde hle
    rw [← entry_of_nodeOf hn' hle, ← hde] at h0
    simp [h0] at hhit

/-- The test of `isdirempty`. -/
def FileNode.Bare (n : FileNode) : Prop :=
  ∀ k, 2 ≤ k → 16 * k < n.size → (n.entry k).inum = 0 ∧ 16 * k + 16 ≤ n.size

lemma unlinkCheck_node (hi : FsInv s) (hip : Loaded ip s) (hn : s.node (s.itable ip).inum = some n)
    (hlink : E "unlink: nlink < 1" ∨ 1 ≤ short n.nlink) (hread : E "isdirempty: readi") :
    Sat (unlinkCheck ip) s E fun r s' => s' = s ∧ 1 ≤ short n.nlink ∧
    (r = true ↔ (n.type = tDir → n.Bare)) := by
  obtain ⟨ht, hl, -⟩ := hi.node_type hip hn
  unfold unlinkCheck
  rw [sat_bind, sat_getState, ht, hl]
  by_cases hlt : short n.nlink < 1
  · rw [if_pos hlt, sat_panic]
    exact hlink.resolve_right (by omega)
  · rw [if_neg hlt]
    by_cases hd : n.type = tDir
    · rw [if_pos hd]
      refine (isdirempty_node hi hip hn (.inl hread)).imp ?_
      rintro r s' ⟨rfl, hr⟩
      refine ⟨rfl, by omega, ?_⟩
      simp only [hd, forall_true_left]
      exact hr
    · rw [if_neg hd, sat_pure]
      exact ⟨rfl, by omega, by simp [hd]⟩

/-- A directory after `unlink` of its entry `k`. -/
def FileNode.unlinked (n : FileNode) (k : Nat) (dir : Prop) [Decidable dir] : FileNode :=
  if dir then (n.write (16 * k) (List.replicate 16 0)).decNlink
  else n.write (16 * k) (List.replicate 16 0)

lemma unlinkEntry_node (hi : FsInv s) (hdp : Loaded dp s) (htx : 1 ≤ s.outstanding)
    (hn : s.node (s.itable dp).inum = some n) (hk : 16 * k + 16 ≤ n.size) :
    Sat (unlinkEntry dp ip (16 * k)) s E fun _ s' => FsInv s' ∧ SameRefs s s' ∧ s'.node =
      update s.node (s.itable dp).inum (some (n.unlinked k ((s.itable ip).din.type = tDir))) := by
  have hsz := (hi.node_type hdp hn).2.2
  have hmax := (hi.solid_of_loaded hdp).size_le
  have hval : maxfile * bsize = 274432 := rfl
  have hpos : 0 < s.sb.ninodes := Nat.lt_of_lt_of_le (by decide) (Nat.le_of_lt hi.layout.root_lt)
  unfold unlinkEntry
  refine (writeDirent_node hi hdp htx length_replicate (by omega) (by omega)
    (by rw [getDirent_zero]; exact hpos) hn).bind ?_
  rintro r s1 ⟨hi1, hs1, hnode1, hdone, -⟩
  have hr := hdone hk
  rw [if_pos hr] at hnode1
  rw [if_neg (not_not_intro hr), sat_bind, sat_getState]
  have htype : (s1.itable ip).din.type = (s.itable ip).din.type := by
    by_cases hx : ip = dp
    · subst hx
      have hdp1 : Loaded ip s1 :=
        ⟨hdp.lt, by rw [(hs1.ref ip).1]; exact hdp.ref, by rw [(hs1.ref ip).2.2.1]; exact hdp.valid⟩
      have h₁ := hi1.node_type hdp1 (n := n.write (16 * k) (List.replicate 16 0))
        (by rw [(hs1.ref ip).2.1, hnode1, update_self])
      rw [h₁.1, (hi.node_type hdp hn).1]
      rfl
    · rw [hs1.slots ip hx]
  rw [htype]
  by_cases hd : (s.itable ip).din.type = tDir
  · rw [if_pos hd]
    have hdp1 : Loaded dp s1 :=
      ⟨hdp.lt, by rw [(hs1.ref dp).1]; exact hdp.ref, by rw [(hs1.ref dp).2.2.1]; exact hdp.valid⟩
    have hn1 : s1.node (s1.itable dp).inum = some (n.write (16 * k) (List.replicate 16 0)) := by
      rw [(hs1.ref dp).2.1, hnode1, update_self]
    refine (updateDin_node hi1 hdp1 (by rw [hs1.outstanding]; exact htx)
      (Dinode.sameFile_decNlink _) (toNode_decNlink _ _) hn1).imp ?_
    rintro _ s' ⟨hi', hs', hnode'⟩
    refine ⟨hi', hs1.sameRefs.trans hs'.sameRefs, ?_⟩
    rw [hnode', (hs1.ref dp).2.1, hnode1, update_idem, FileNode.unlinked, if_pos hd]
  · rw [if_neg hd, sat_pure]
    refine ⟨hi1, hs1.sameRefs, ?_⟩
    rw [hnode1, FileNode.unlinked, if_neg hd]

end

end Xv6
