import Xv6.DirTree
import Xv6.FileContents

/-! Directories are finite maps on names of `DIRSIZ` bytes: `dirlookup` reads the map,
`dirlink` adds a name that it does not have, and `unlink` takes one out. -/

namespace Xv6

open Kern List
open Function (update update_eq_self update_self)

def SameName (a b : List UInt8) : Prop := strncpy a dirsiz = strncpy b dirsiz

instance (a b : List UInt8) : Decidable (SameName a b) := inferInstanceAs (Decidable (_ = _))

variable {a b : List UInt8}

lemma namecmp_eq_zero : namecmp a b = 0 ↔ SameName a b := strncmp_eq_zero

lemma sameName_strncpy : SameName a (strncpy b dirsiz) ↔ SameName a b := by
  unfold SameName
  rw [strncpy_strncpy]

/-- The first entry with the name. -/
def FileNode.find (m : FileNode) (name : List UInt8) : Option (Nat × Nat) :=
  ((List.range (m.size / 16)).find? fun k => (m.entry k).inum ≠ 0 ∧
    namecmp name (m.entry k).name = 0).map fun k =>
    ((m.entry k).inum, 16 * k)

structure FileNode.IsMap (m : FileNode) : Prop where
  dir : m.type = tDir
  sized : m.size % 16 = 0
  distinct : ∀ j k, m.Used j → m.Used k → m.key j = m.key k → j = k

section

variable {m m' : FileNode} {name a : List UInt8} {k inum : Nat}

lemma FileNode.find_eq_some (h : m.Names name k) (hf : ∀ j < k, ¬ m.Names name j) :
    m.find name = some ((m.entry k).inum, 16 * k) := by
  rw [find, scan_eq_some h hf, Option.map_some]

lemma FileNode.find_eq_none (h : ∀ k, ¬ m.Names name k) : m.find name = none := by
  rw [find, scan_eq_none h, Option.map_none]

lemma FileNode.find_cases (m : FileNode) (name : List UInt8) :
    ((∀ k, ¬ m.Names name k) ∧ m.find name = none) ∨ ∃ k, m.Names name k ∧
    (∀ j < k, ¬ m.Names name j) ∧ m.find name = some ((m.entry k).inum, 16 * k) := by
  by_cases h : ∃ k, m.Names name k
  · classical
    refine .inr ⟨Nat.find h, Nat.find_spec h, fun j hj => Nat.find_min h hj, ?_⟩
    exact find_eq_some (Nat.find_spec h) fun j hj => Nat.find_min h hj
  · have hno : ∀ k, ¬ m.Names name k := fun k hk => h ⟨k, hk⟩
    exact .inl ⟨hno, find_eq_none hno⟩

lemma FileNode.find_congr (h : ∀ k, m'.Names a k ↔ m.Names a k)
    (he : ∀ k, m.Names a k → m'.entry k = m.entry k) : m'.find a = m.find a := by
  rcases m.find_cases a with ⟨hno, heq⟩ | ⟨k, hk, hf, heq⟩
  · rw [heq, find_eq_none fun k hk => hno k ((h k).mp hk)]
  · rw [heq, find_eq_some ((h k).mpr hk) fun j hj hh => hf j hj ((h j).mp hh), he k hk]

lemma FileNode.Names.key (h : m.Names name k) : m.Used k ∧ m.key k = strncpy name dirsiz :=
  ⟨⟨h.lt, h.used⟩, (namecmp_eq_zero.mp h.name).symm⟩

variable {j : Nat}

lemma FileNode.IsMap.unique (hd : m.IsMap) (h : m.Names name k) (h' : m.Names a j)
    (hs : SameName a name) : j = k :=
  hd.distinct j k h'.key.1 h.key.1 (h'.key.2.trans (hs.trans h.key.2.symm))

lemma FileNode.names_of_sameName (hs : SameName a name) : m.Names a k ↔ m.Names name k := by
  have hiff : ∀ {x y : List UInt8}, SameName x y → m.Names x k → m.Names y k := by
    intro x y hxy h
    refine ⟨h.lt, h.used, namecmp_eq_zero.mpr ?_⟩
    exact hxy.symm.trans (namecmp_eq_zero.mp h.name)
  exact ⟨hiff hs, hiff hs.symm⟩

/-- Entry `k` of the directory was set to `name`. -/
structure FileNode.Entered (m m' : FileNode) (name : List UInt8) (inum k : Nat) : Prop where
  type : m'.type = m.type
  size : m'.size = max m.size (16 * k + 16)
  entry : ∀ j, m'.entry j = if j = k then ⟨inum, strncpy name dirsiz⟩ else m.entry j

lemma FileNode.Entered.used (h : m.Entered m' name inum k) (hs : m.size % 16 = 0) (hf : m.FreeAt k)
    (hj : j ≠ k) : m'.Used j ↔ m.Used j := by
  unfold Used
  rw [h.size, h.entry, if_neg hj]
  have hle := hf.le
  constructor
  · rintro ⟨h1, h2⟩
    exact ⟨by omega, h2⟩
  · rintro ⟨h1, h2⟩
    exact ⟨by omega, h2⟩

lemma FileNode.Entered.find (h : m.Entered m' name inum k) (hd : m.IsMap) (hf : m.FreeAt k)
    (hi : inum ≠ 0) (hno : ∀ j, ¬ m.Names name j) (a : List UInt8) :
    m'.find a = if SameName a name then some (inum, 16 * k) else m.find a := by
  have hself : m'.entry k = ⟨inum, strncpy name dirsiz⟩ := by rw [h.entry, if_pos rfl]
  have hother : ∀ j, j ≠ k → (m'.Names a j ↔ m.Names a j) := by
    intro j hj
    have hu := h.used hd.sized hf hj
    have he : m'.entry j = m.entry j := by rw [h.entry, if_neg hj]
    constructor
    · intro hn
      exact ⟨(hu.mp hn.key.1).1, by rw [← he]; exact hn.used, by rw [← he]; exact hn.name⟩
    · intro hn
      exact ⟨(hu.mpr hn.key.1).1, by rw [he]; exact hn.used, by rw [he]; exact hn.name⟩
  by_cases hs : SameName a name
  · rw [if_pos hs]
    have hk : m'.Names a k := by
      refine ⟨by rw [h.size]; omega, by rw [hself]; exact hi, ?_⟩
      rw [hself]
      exact namecmp_eq_zero.mpr (sameName_strncpy.mpr hs)
    rw [find_eq_some hk fun j hj hh => ?_, hself]
    exact hno j ((names_of_sameName hs).mp ((hother j (by omega)).mp hh))
  · rw [if_neg hs]
    have hk' : ¬ m'.Names a k := by
      intro hh
      have hn := hh.name
      rw [hself] at hn
      exact hs (sameName_strncpy.mp (namecmp_eq_zero.mp hn))
    have hk : ¬ m.Names a k := fun hh => hh.used (hf.empty hh.lt)
    refine find_congr (fun j => ?_) fun j hj => ?_
    · by_cases hjk : j = k
      · subst hjk
        exact iff_of_false hk' hk
      · exact hother j hjk
    · rw [h.entry, if_neg]
      rintro rfl
      exact hk hj

/-- Entry `k` of the directory was cleared. -/
structure FileNode.Cleared (m m' : FileNode) (k : Nat) : Prop where
  type : m'.type = m.type
  size : m'.size = m.size
  empty : (m'.entry k).inum = 0
  entry : ∀ j, j ≠ k → m'.entry j = m.entry j

lemma FileNode.Cleared.used (h : m.Cleared m' k) : m'.Used j ↔ m.Used j ∧ j ≠ k := by
  unfold Used
  by_cases hj : j = k
  · subst hj
    simp [h.empty]
  · rw [h.size, h.entry j hj]
    simp [hj]

lemma FileNode.Cleared.find (h : m.Cleared m' k) (hd : m.IsMap) (hk : m.Names name k)
    (a : List UInt8) : m'.find a = if SameName a name then none else m.find a := by
  have hnames : ∀ j, m'.Names a j ↔ m.Names a j ∧ j ≠ k := by
    intro j
    constructor
    · intro hn
      obtain ⟨hu, hj⟩ := h.used.mp hn.key.1
      exact ⟨⟨hu.1, hu.2, by rw [← h.entry j hj]; exact hn.name⟩, hj⟩
    · rintro ⟨hn, hj⟩
      have hu := h.used.mpr ⟨hn.key.1, hj⟩
      exact ⟨hu.1, hu.2, by rw [h.entry j hj]; exact hn.name⟩
  by_cases hs : SameName a name
  · rw [if_pos hs]
    refine find_eq_none fun j hj => ?_
    obtain ⟨hj, hne⟩ := (hnames j).mp hj
    exact hne (hd.unique hk hj hs)
  · rw [if_neg hs]
    have hk' : ¬ m.Names a k := by
      intro hh
      exact hs ((namecmp_eq_zero.mp hh.name).trans (namecmp_eq_zero.mp hk.name).symm)
    refine find_congr (fun j => ?_) fun j hj => h.entry j ?_
    · rw [hnames]
      refine and_iff_left_of_imp fun hj => ?_
      rintro rfl
      exact hk' hj
    · rintro rfl
      exact hk' hj

end

section

variable {s s' : Fs} {dp ip : Nat} {m : FileNode} {name a : List UInt8} {E : Panics}

lemma dirlookup_any {E : String → Prop} (hs : Solid s.disk (s.itable dp).din)
    (hm : nodeOf s.disk (s.itable dp).din = some m) (hd : m.type = tDir) (hsz : m.size % 16 = 0)
    (hE : E "iget: no inodes" ∨ ∃ x < ninode, (s.itable x).ref = 0) :
    Sat (dirlookup dp name) s E fun r s' => Looked name m s s' r := by
  obtain ⟨-, rfl⟩ := nodeOf_some hm
  have ht : (s.itable dp).din.type = tDir := hd
  unfold dirlookup
  rw [sat_bind, sat_getState, if_neg (not_not_intro ht)]
  refine (dirScan_sat hs (dirOffs_lt hs) (.inr (dirOffs_end hsz rfl))).bind ?_
  rintro hit s1 ⟨rfl, hsc⟩
  have hnames := Scanned.names hm hsc
  cases hit with
  | none =>
    rw [sat_pure]
    exact ⟨rfl, hnames⟩
  | some q =>
    obtain ⟨k, hk, hde, hk', hfirst⟩ := hnames
    refine (iget_sat hE).bind ?_
    intro ip s' hgot
    rw [sat_pure]
    rw [hde] at hgot
    exact ⟨k, hk, hk', hfirst, hgot⟩

variable {inum : Nat}

lemma Got.not_lastUse (h : Got inum s s' ip) : ¬ LastUse s' ip := by
  rintro ⟨href, hvalid, -⟩
  rw [h.eq] at href hvalid
  simp only [Fs.setInode, update_self, Bool.and_eq_true, decide_eq_true_eq] at href hvalid
  omega

end

lemma rootOpen_dir : ∃ (s : Fs) (m : FileNode), FsInv s ∧ Loaded 0 s ∧ 1 ≤ s.outstanding ∧
    s.logged = [] ∧ s.logCap = 29 ∧ (s.itable 0).inum = rootino ∧
    s.node (s.itable 0).inum = some m ∧
    m.IsMap ∧ m.nlink ≠ 0 ∧ (∀ k, m.Used k → (m.entry k).inum = rootino) ∧
    ∀ ip < ninode, (s.itable ip).lock = none := by
  have htest : (callsFromBoot [(0, .open (some [slash]) oRdonly)]).any (fun t =>
      decide ((t.fs.itable 0).ref ≠ 0) && decide ((t.fs.itable 0).valid = true) &&
      decide (t.fs.logged = []) && decide (t.fs.logCap = 29) &&
      decide ((t.fs.itable 0).inum = rootino) && (t.fs.node rootino).any fun m =>
        decide (m.type = tDir) && decide (m.size = 1024) && decide (m.nlink ≠ 0) &&
        (List.range 64).all (fun k =>
          decide ((m.entry k).inum = 0 ∨ ((m.entry k).inum = rootino ∧ k < 2))) &&
        decide (m.key 0 ≠ m.key 1) &&
        (List.range ninode).all fun ip => decide ((t.fs.itable ip).lock = none)) = true := by
    decide +kernel
  obtain ⟨t, ht, htest⟩ := (Option.any_eq_true _ _).mp htest
  rw [Bool.and_eq_true] at htest
  obtain ⟨hmem, htest⟩ := htest
  simp only [Bool.and_eq_true, decide_eq_true_eq] at hmem
  obtain ⟨⟨⟨⟨href, hvalid⟩, hlog⟩, hcap⟩, hnum⟩ := hmem
  obtain ⟨hi, hip⟩ := loaded_of_calls ht (by decide) href hvalid
  obtain ⟨m, hm, htest⟩ := (Option.any_eq_true _ _).mp htest
  simp only [Bool.and_eq_true, decide_eq_true_eq, all_eq_true, mem_range] at htest
  obtain ⟨⟨⟨⟨⟨hdir, hsize⟩, hlink⟩, hent⟩, hkey⟩, hlock⟩ := htest
  have hused : ∀ k, m.Used k → (m.entry k).inum = rootino ∧ k < 2 := fun k hk =>
    (hent k (by have := hk.1; omega)).resolve_left hk.2
  refine ⟨_, m, hi, hip, Nat.le_refl 1, hlog, hcap, hnum, ?_,
    ⟨hdir, by rw [hsize], fun j k hj hk he => ?_⟩, hlink, fun k hk => (hused k hk).1, hlock⟩
  · exact (congrArg t.fs.node hnum).trans hm
  · have hj2 := (hused j hj).2
    have hk2 := (hused k hk).2
    by_contra hne
    rcases (by omega : (j = 0 ∧ k = 1) ∨ (j = 1 ∧ k = 0)) with ⟨rfl, rfl⟩ | ⟨rfl, rfl⟩
    · exact hkey he
    · exact hkey he.symm

end Xv6
