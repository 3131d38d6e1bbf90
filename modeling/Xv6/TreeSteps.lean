import Xv6.DirTree

/-! What system calls do to the directory tree: a new entry, an entry less, and changes
that leave the directories alone. -/

namespace Xv6

open List
open Function (update_self update_of_ne update_comm update)

/-- The inode is allocated and has links. -/
def HasLinks (N : Nat → Option FileNode) (i : Nat) : Prop := ∃ m, N i = some m ∧ m.nlink ≠ 0

/-- The parent of a linked directory. -/
def upBy : Option FileNode → List Nat
  | some m => if m.Live then [(m.entry 1).inum] else []
  | none => []

section

variable {B lo d i k a x : Nat} {N N' : Nat → Option FileNode} {m md : FileNode} {name : List UInt8}

lemma HasLinks.live (h : HasLinks N d) (hm : N d = some m) (ht : m.type = tDir) : m.Live := by
  obtain ⟨m', hm', hz⟩ := h
  rw [hm] at hm'
  cases hm'
  exact ⟨ht, hz⟩

lemma HasLinks.ne_none (h : HasLinks N i) : N i ≠ none := by
  obtain ⟨m, hm, -⟩ := h
  rw [hm]
  exact Option.some_ne_none m

lemma FileNode.IsDir.free_ge (h : m.IsDir d) (hd : d ≠ 0) (hf : m.FreeAt k) : 2 ≤ k := by
  have h2 := h.two
  by_contra hk
  have hlt : 16 * k + 16 ≤ m.size := by omega
  have h0 := hf.empty hlt
  have hk01 : k = 0 ∨ k = 1 := by omega
  rcases hk01 with rfl | rfl
  · rw [h.self.1] at h0
    exact hd h0
  · exact h.parent.1 h0

lemma FileNode.IsDir.count_named (h : m.IsDir d) (a : Nat) :
    (m.named 1).count a = [(m.entry 1).inum].count a + (m.named 2).count a := by
  have h2 := h.two
  have hx := count_gather_exchange (n := m.size / 16) (G := m.refsAt 2) (H := m.refsAt 1)
    (by omega : 1 < m.size / 16) (fun j _ hj => by
      unfold refsAt
      by_cases hj0 : j = 0
      · rw [hj0, if_neg (by omega), if_neg (by omega)]
      · simp [show 1 ≤ j ↔ 2 ≤ j by omega]) a
  have hone : m.refsAt 1 1 = [(m.entry 1).inum] := if_pos ⟨le_rfl, h.parent.1⟩
  have htwo : m.refsAt 2 1 = [] := if_neg (by omega)
  rw [hone, htwo, count_nil, Nat.zero_add] at hx
  exact hx

lemma FileNode.withDots_isDir (hs : m.size = 0) (hi : i < 2 ^ 16) (hd : d < 2 ^ 16) (hd0 : d ≠ 0) :
    (m.withDots i d).IsDir i ∧ ((m.withDots i d).entry 1).inum = d ∧
    (m.withDots i d).named 1 = [d] ∧ (m.withDots i d).named 2 = [] := by
  have hsize : (m.withDots i d).size = 32 := by rw [withDots, linked_size, linked_size, hs]; rfl
  have h0 : (m.withDots i d).entry 0 = ⟨i, strncpy dot dirsiz⟩ := by
    rw [withDots, linked_entry hd, if_neg (by omega), linked_entry hi, if_pos rfl]
  have h1 : (m.withDots i d).entry 1 = ⟨d, strncpy dotdot dirsiz⟩ := by
    rw [withDots, linked_entry hd, if_pos rfl]
  have hkey0 : (m.withDots i d).key 0 = strncpy dot dirsiz := by rw [key, h0, strncpy_strncpy]
  have hkey1 : (m.withDots i d).key 1 = strncpy dotdot dirsiz := by rw [key, h1, strncpy_strncpy]
  have hne : strncpy dot dirsiz ≠ strncpy dotdot dirsiz := by decide
  refine ⟨⟨by rw [hsize], by rw [hsize], ⟨by rw [h0], hkey0⟩, ⟨by rw [h1]; exact hd0, hkey1⟩, ?_⟩,
    by rw [h1], ?_, ?_⟩
  · rintro j k ⟨hj, -⟩ ⟨hk, -⟩ he
    have hj01 : j = 0 ∨ j = 1 := by omega
    have hk01 : k = 0 ∨ k = 1 := by omega
    rcases hj01 with rfl | rfl <;> rcases hk01 with rfl | rfl
    · rfl
    · exact absurd (hkey0.symm.trans (he.trans hkey1)) hne
    · exact absurd (hkey0.symm.trans (he.symm.trans hkey1)) hne
    · rfl
  · have hr0 : (m.withDots i d).refsAt 1 0 = [] := if_neg (by omega)
    have hr1 : (m.withDots i d).refsAt 1 1 = [d] := by
      rw [refsAt, if_pos ⟨le_rfl, by rw [h1]; exact hd0⟩, h1]
    rw [named, hsize, show 32 / 16 = 0 + 1 + 1 from rfl, gather_succ, gather_succ, hr0, hr1]
    rfl
  · have hr0 : (m.withDots i d).refsAt 2 0 = [] := if_neg (by omega)
    have hr1 : (m.withDots i d).refsAt 2 1 = [] := if_neg (by omega)
    rw [named, hsize, show 32 / 16 = 0 + 1 + 1 from rfl, gather_succ, gather_succ, hr0, hr1]
    rfl

lemma withFile_new {type major minor : Nat} (hdi : i ≠ d) :
    ∃ m', withFile N d i k type name (FileNode.made type major minor) md i = some m' ∧
    m'.nlink ≠ 0 := by
  unfold withFile
  rw [update_of_ne hdi, update_self]
  refine ⟨_, rfl, ?_⟩
  split
  · exact Nat.one_ne_zero
  · exact Nat.one_ne_zero

variable {keep : List Nat}

lemma MinorEffect.linked (h : MinorEffect keep N N') (hi : HasLinks N i) : HasLinks N' i := by
  obtain ⟨m, hm, hz⟩ := hi
  cases h with
  | free j mj hmj hzj hj hN =>
    have hij : i ≠ j := by
      rintro rfl
      rw [hm] at hmj
      cases hmj
      exact hz hzj
    exact ⟨m, by rw [hN, update_of_ne hij, hm], hz⟩
  | store j mj m' hmj ht htype hlink hN =>
    by_cases hij : i = j
    · subst hij
      rw [hm] at hmj
      cases hmj
      exact ⟨m', by rw [hN, update_self], by rw [hlink]; exact hz⟩
    · exact ⟨m, by rw [hN, update_of_ne hij, hm], hz⟩

lemma Minors.linked (h : Minors keep N N') (hi : HasLinks N i) : HasLinks N' i := by
  induction h with
  | refl => exact hi
  | tail _ he ih => exact he.linked ih

lemma Rooted.transfer (h : Rooted N d) (hd : d ≠ x) (hstep : ∀ e m, N e = some m → m.Live → e ≠ x →
    ∃ m', N' e = some m' ∧ m'.Live ∧ (m'.entry 1).inum = (m.entry 1).inum ∧
    ((m.entry 1).inum = x → e = rootino)) :
    Rooted N' d := by
  induction h with
  | root => exact .root
  | @up e m hm hl _ ih =>
    obtain ⟨m', hm', hl', he, hx⟩ := hstep e m hm hl hd
    by_cases hp : (m.entry 1).inum = x
    · rw [hx hp]
      exact .root
    · refine .up hm' hl' ?_
      rw [he]
      exact ih hp

namespace DirTree

lemma ne_zero (h : DirTree B N) (hm : N i = some m) : i ≠ 0 := by
  rintro rfl
  rw [h.zero] at hm
  cases hm

lemma bound (h : DirTree B N) (hm : N i = some m) : i < B :=
  h.lt i (by rw [hm]; exact Option.some_ne_none m)

lemma named (h : DirTree B N) (hm : N d = some m) (hl : m.Live) (hk : 1 ≤ k) (hu : m.Used k) :
    HasLinks N (m.entry k).inum := by
  have hmem : (m.entry k).inum ∈ names B 1 N := mem_names.mpr ⟨d, h.bound hm, m, hm, hl, k, hk, hu, rfl⟩
  have hpos := count_pos_iff.mpr hmem
  cases he : N (m.entry k).inum with
  | none =>
    rw [h.free _ he] at hpos
    omega
  | some me => exact ⟨me, he, by rw [h.count _ me he]; omega⟩

lemma closed (h : DirTree B N) : Closed N (HasLinks N) := by
  rintro i m ⟨m', hm', hz⟩ hm ht k hk hne
  rw [hm] at hm'
  cases hm'
  by_cases hk0 : k = 0
  · subst hk0
    rw [(h.dirs i m hm ⟨ht, hz⟩).self.1]
    exact ⟨m, hm, hz⟩
  · exact h.named hm ⟨ht, hz⟩ (by omega) ⟨hk, hne⟩

lemma root_linked (h : DirTree B N) : HasLinks N rootino := by
  obtain ⟨m, hm, hl, -⟩ := h.root
  exact ⟨m, hm, hl.2⟩

lemma count_two_le (hz : (names B 1 N).count i = 0) : (names B 2 N).count i = 0 := by
  rw [count_eq_zero] at hz ⊢
  intro hmem
  obtain ⟨d, hd, m, hm, hl, k, hk, hu⟩ := mem_names.mp hmem
  exact hz (mem_names.mpr ⟨d, hd, m, hm, hl, k, by omega, hu⟩)

lemma namedBy_nil (hold : ∀ m, N i = some m → ¬ m.Live) : namedBy lo (N i) = [] := by
  cases hN : N i with
  | none => rfl
  | some m => exact if_neg (hold m hN)

lemma count_extra {extra : List Nat} (h : extra = [] ∨ extra = [d]) :
    extra.count d = extra.length ∧ ∀ a, a ≠ d → extra.count a = 0 := by
  rcases h with rfl | rfl
  · exact ⟨rfl, fun a _ => rfl⟩
  · exact ⟨count_singleton_self, fun a ha => count_eq_zero.mpr fun hm => ha (mem_singleton.mp hm)⟩

variable {md' m' : FileNode} {keep : List Nat}

lemma used_of_linked {j : Nat} (hi : i < 2 ^ 16) (hfree : md.FreeAt k)
    (hsize : md'.size = (md.linked k i name).size)
    (hentry : ∀ j, md'.entry j = (md.linked k i name).entry j) (hj : j ≠ k)
    (hu : md'.Used j) : md.Used j := by
  obtain ⟨h1, h2⟩ := hu
  rw [hentry, FileNode.linked_entry hi, if_neg hj] at h2
  rw [hsize, FileNode.linked_size] at h1
  refine ⟨?_, h2⟩
  have hle := hfree.le
  by_cases hkk : 16 * k + 16 ≤ md.size
  · omega
  · have := hfree.last (by omega)
    omega

lemma isDir_of_linked (hi : i < 2 ^ 16) (hdir : md.IsDir d) (hk : 2 ≤ k) (hfree : md.FreeAt k)
    (hno : ∀ j, ¬ md.Names name j) (hsize : md'.size = (md.linked k i name).size)
    (hentry : ∀ j, md'.entry j = (md.linked k i name).entry j) : md'.IsDir d := by
  have hother : ∀ j, j ≠ k → md'.entry j = md.entry j := fun j hj => by
    rw [hentry, FileNode.linked_entry hi, if_neg hj]
  have hkey : ∀ j, j ≠ k → md'.key j = md.key j := fun j hj => by rw [FileNode.key, hother j hj]; rfl
  have hkeyk : md'.key k = strncpy name dirsiz := by
    rw [FileNode.key, hentry, FileNode.linked_entry hi, if_pos rfl, strncpy_strncpy]
  have hdiff : ∀ j, j ≠ k → md'.Used j → md'.key j ≠ md'.key k := by
    intro j hj hu he
    rw [hkey j hj, hkeyk] at he
    have hu' := used_of_linked hi hfree hsize hentry hj hu
    exact hno j ⟨hu'.1, hu'.2, strncmp_eq_zero.mpr he.symm⟩
  refine ⟨?_, ?_, ?_, ?_, fun j j' hu hu' he => ?_⟩
  · rw [hsize, FileNode.linked_size]
    have := hdir.sized
    omega
  · rw [hsize, FileNode.linked_size]
    have := hdir.two
    omega
  · rw [FileNode.key, hother 0 (by omega)]
    exact hdir.self
  · rw [FileNode.key, hother 1 (by omega)]
    exact hdir.parent
  · by_cases hjk : j = k
    · by_cases hjk' : j' = k
      · rw [hjk, hjk']
      · exact absurd (by rw [← he, hjk]) (hdiff j' hjk' hu')
    · by_cases hjk' : j' = k
      · exact absurd (by rw [he, hjk']) (hdiff j hjk hu)
      · rw [hkey j hjk, hkey j' hjk'] at he
        exact hdir.distinct j j' (used_of_linked hi hfree hsize hentry hjk hu)
          (used_of_linked hi hfree hsize hentry hjk' hu') he

def relink (N : Nat → Option FileNode) (d : Nat) (md : FileNode) (i : Nat) (mi : FileNode) :
    Nat → Option FileNode :=
  update (update N i (some mi)) d (some md)

section

variable {mi : FileNode}

lemma relink_dir : relink N d md i mi d = some md := update_self ..

lemma relink_entry (hdi : d ≠ i) : relink N d md i mi i = some mi := by
  rw [relink, update_of_ne hdi.symm, update_self]

lemma relink_other (hd : a ≠ d) (hi : a ≠ i) : relink N d md i mi a = N a := by
  rw [relink, update_of_ne hd, update_of_ne hi]

lemma relink_some (hdi : d ≠ i) (ha : relink N d md i mi a = some m) :
    a = d ∧ m = md ∨ a = i ∧ m = mi ∨ a ≠ d ∧ a ≠ i ∧ N a = some m := by
  by_cases hd : a = d
  · subst hd
    rw [relink_dir] at ha
    cases ha
    exact .inl ⟨rfl, rfl⟩
  by_cases hi : a = i
  · subst hi
    rw [relink_entry hdi] at ha
    cases ha
    exact .inr (.inl ⟨rfl, rfl⟩)
  · rw [relink_other hd hi] at ha
    exact .inr (.inr ⟨hd, hi, ha⟩)

lemma relink_none (hdi : d ≠ i) (ha : relink N d md i mi a = none) :
    a ≠ d ∧ a ≠ i ∧ N a = none := by
  have hd : a ≠ d := by
    rintro rfl
    rw [relink_dir] at ha
    cases ha
  have hi : a ≠ i := by
    rintro rfl
    rw [relink_entry hdi] at ha
    cases ha
  rw [relink_other hd hi] at ha
  exact ⟨hd, hi, ha⟩

lemma relink_lt (hdi : d ≠ i) (h : ∀ a, N a ≠ none → a < B) (hd : d < B) (hi : i < B) (a : Nat)
    (ha : relink N d md i mi a ≠ none) : a < B := by
  obtain ⟨m, hm⟩ := Option.ne_none_iff_exists'.mp ha
  rcases relink_some hdi hm with ⟨rfl, -⟩ | ⟨rfl, -⟩ | ⟨-, -, hm⟩
  · exact hd
  · exact hi
  · exact h a (by rw [hm]; exact Option.some_ne_none m)

end

lemma count_singleton_ne (h : a ≠ i) : [i].count a = 0 :=
  count_eq_zero.mpr fun hm => h (mem_singleton.mp hm)

structure Entering (B : Nat) (N : Nat → Option FileNode) (d : Nat) (md md' : FileNode) (k : Nat)
    (name : List UInt8) (i : Nat) (mi : FileNode) (extra : List Nat) : Prop where
  tree : DirTree B N
  bound : B ≤ 2 ^ 16
  dir : N d = some md
  live : md.Live
  free : md.FreeAt k
  fresh : ∀ j, ¬ md.Names name j
  lt : i < B
  pos : i ≠ 0
  old : ∀ m, N i = some m → m.type ≠ tDir
  link : mi.nlink = (names B 1 N).count i + 1
  type : md'.type = tDir
  size : md'.size = (md.linked k i name).size
  entry : ∀ j, md'.entry j = (md.linked k i name).entry j
  nlink : md'.nlink = md.nlink + extra.length
  named : namedBy 1 (some mi) = extra
  kind : mi.type ≠ tDir ∧ extra = [] ∨ mi.type = tDir ∧ extra = [d] ∧ N i = none ∧ mi.IsDir i ∧
    (mi.entry 1).inum = d ∧ namedBy 2 (some mi) = []

namespace Entering

variable {mi : FileNode} {extra : List Nat} {j : Nat}

variable (e : Entering B N d md md' k name i mi extra)
include e

lemma lt16 : i < 2 ^ 16 := e.lt.trans_le e.bound

lemma isDir : md.IsDir d := e.tree.dirs d md e.dir e.live

lemma two_le : 2 ≤ k := e.isDir.free_ge (e.tree.ne_zero e.dir) e.free

lemma ne : d ≠ i := by
  rintro rfl
  exact e.old md e.dir e.live.1

lemma live_dir : md'.Live := by
  have hn := e.nlink
  have hl := e.live.2
  exact ⟨e.type, by omega⟩

lemma not_live (hm : N i = some m) : ¬ m.Live := fun hl => e.old m hm hl.1

lemma entry_ne (hj : j ≠ k) : md'.entry j = md.entry j := by
  rw [e.entry, FileNode.linked_entry e.lt16, if_neg hj]

lemma entry_new : md'.entry k = ⟨i, strncpy name dirsiz⟩ := by
  rw [e.entry, FileNode.linked_entry e.lt16, if_pos rfl]

lemma entry_up : md'.entry 1 = md.entry 1 := e.entry_ne (by have := e.two_le; omega)

lemma used (hj : j ≠ k) (hu : md'.Used j) : md.Used j :=
  used_of_linked e.lt16 e.free e.size e.entry hj hu

lemma named_two : namedBy 2 (some mi) = [] := by
  rcases e.kind with ⟨ht, -⟩ | ⟨-, -, -, -, -, hn⟩
  · exact if_neg fun hl => ht hl.1
  · exact hn

lemma made (hl : mi.Live) : N i = none ∧ mi.IsDir i ∧ (mi.entry 1).inum = d := by
  rcases e.kind with ⟨ht, -⟩ | ⟨-, -, hnone, hdir, hup, -⟩
  · exact absurd hl.1 ht
  · exact ⟨hnone, hdir, hup⟩

lemma count_names {lo : Nat} (hlo : lo ≤ 2) (a : Nat) : (names B lo (relink N d md' i mi)).count a =
    [i].count a + (namedBy lo (some mi)).count a + (names B lo N).count a := by
  have hk := e.two_le
  have h1 := count_names_update (N := N) lo e.lt (some mi) a
  have h2 := count_names_update (N := update N i (some mi)) lo (e.tree.bound e.dir) (some md') a
  rw [namedBy_nil fun _ => e.not_live, count_nil] at h1
  rw [update_of_ne e.ne, e.dir] at h2
  have h3 : namedBy lo (some md) = md.named lo := if_pos e.live
  have h4 : namedBy lo (some md') = (md.linked k i name).named lo := by
    rw [show namedBy lo (some md') = md'.named lo from if_pos e.live_dir]
    unfold FileNode.named FileNode.refsAt
    simp only [e.size, e.entry]
  rw [h3, h4, FileNode.count_linked e.free e.isDir.sized (by omega) e.lt16 e.pos] at h2
  rw [relink]
  omega

lemma count_extra : extra.count d = extra.length ∧ ∀ a, a ≠ d → extra.count a = 0 :=
  DirTree.count_extra (e.kind.imp And.right fun hk => hk.2.1)

lemma count (ha : relink N d md' i mi a = some m) :
    m.nlink = (names B 1 (relink N d md' i mi)).count a := by
  obtain ⟨hextrad, hextra⟩ := e.count_extra
  rw [e.count_names (by omega), e.named]
  rcases relink_some e.ne ha with ⟨rfl, rfl⟩ | ⟨rfl, rfl⟩ | ⟨hd, hi, ha⟩
  · rw [e.nlink, count_singleton_ne e.ne, hextrad, e.tree.count a md e.dir]
    omega
  · rw [e.link, hextra a e.ne.symm, count_singleton_self]
    omega
  · rw [count_singleton_ne hi, hextra a hd, e.tree.count a m ha]
    omega

lemma free_count (ha : relink N d md' i mi a = none) :
    (names B 1 (relink N d md' i mi)).count a = 0 := by
  obtain ⟨hd, hi, ha⟩ := relink_none e.ne ha
  rw [e.count_names (by omega), e.named, count_singleton_ne hi, e.count_extra.2 a hd,
    e.tree.free a ha]

/-- An old directory is one of the new tree, with the same parent. -/
lemma keeps (hm : N a = some m) (hl : m.Live) : ∃ m', relink N d md' i mi a = some m' ∧ m'.Live ∧
    (m'.entry 1).inum = (m.entry 1).inum := by
  by_cases hd : a = d
  · subst hd
    rw [e.dir] at hm
    cases hm
    exact ⟨md', relink_dir, e.live_dir, by rw [e.entry_up]⟩
  · have hi : a ≠ i := by
      rintro rfl
      exact e.not_live hm hl
    exact ⟨m, by rw [relink_other hd hi, hm], hl, rfl⟩

lemma root : ∃ m, relink N d md' i mi rootino = some m ∧ m.Live ∧ (m.entry 1).inum = rootino := by
  obtain ⟨mr, hmr, hlr, her⟩ := e.tree.root
  obtain ⟨m', hm', hl', he'⟩ := e.keeps hmr hlr
  exact ⟨m', hm', hl', he'.trans her⟩

lemma top : (names B 2 (relink N d md' i mi)).count rootino = 0 := by
  have hri : rootino ≠ i := by
    obtain ⟨mr, hmr, hlr, -⟩ := e.tree.root
    rintro rfl
    exact e.not_live hmr hlr
  rw [e.count_names le_rfl, e.named_two, count_singleton_ne hri, e.tree.top]
  rfl

lemma dirs (ha : relink N d md' i mi a = some m) (hl : m.Live) : m.IsDir a := by
  rcases relink_some e.ne ha with ⟨rfl, rfl⟩ | ⟨rfl, rfl⟩ | ⟨-, -, ha⟩
  · exact isDir_of_linked e.lt16 e.isDir e.two_le e.free e.fresh e.size e.entry
  · exact (e.made hl).2.1
  · exact e.tree.dirs a m ha hl

lemma child (ha : relink N d md' i mi a = some m) (hl : m.Live) (hr : a ≠ rootino) :
    (names B 2 (relink N d md' i mi)).count a = 1 := by
  rw [e.count_names le_rfl, e.named_two, count_nil]
  rcases relink_some e.ne ha with ⟨rfl, rfl⟩ | ⟨rfl, rfl⟩ | ⟨-, hi, ha⟩
  · rw [count_singleton_ne e.ne, e.tree.child a md e.dir e.live hr]
  · rw [count_two_le (e.tree.free a (e.made hl).1), count_singleton_self]
  · rw [count_singleton_ne hi, e.tree.child a m ha hl hr]

lemma old_entry (hj : 2 ≤ j) (hne : ¬ (a = d ∧ j = k)) (ha : relink N d md' i mi a = some m)
    (hl : m.Live) (hu : m.Used j) :
    ∃ mo, N a = some mo ∧ mo.Live ∧ mo.Used j ∧ m.entry j = mo.entry j := by
  rcases relink_some e.ne ha with ⟨rfl, rfl⟩ | ⟨rfl, rfl⟩ | ⟨-, -, ha⟩
  · have hjk : j ≠ k := fun hh => hne ⟨rfl, hh⟩
    exact ⟨md, e.dir, e.live, e.used hjk hu, e.entry_ne hjk⟩
  · have hmem : (m.entry j).inum ∈ namedBy 2 (some m) := by
      rw [namedBy, if_pos hl]
      exact FileNode.mem_named.mpr ⟨j, hj, hu, rfl⟩
    rw [e.named_two] at hmem
    cases hmem
  · exact ⟨m, ha, hl, hu, rfl⟩

/-- An old entry that names `i` names a file. -/
lemma old_file {mo : FileNode} (hm : N a = some mo) (hl : mo.Live) (hj : 1 ≤ j) (hu : mo.Used j)
    (hi : (mo.entry j).inum = i) : mi.type ≠ tDir := by
  obtain ⟨m, hm, -⟩ := e.tree.named hm hl hj hu
  rw [hi] at hm
  rcases e.kind with ⟨ht, -⟩ | ⟨-, -, hnone, -⟩
  · exact ht
  · rw [hnone] at hm
    cases hm

lemma back {me : FileNode} (ha : relink N d md' i mi a = some m) (hl : m.Live) (hj : 2 ≤ j)
    (hu : m.Used j) (hme : relink N d md' i mi (m.entry j).inum = some me) (ht : me.type = tDir) :
    (me.entry 1).inum = a := by
  by_cases hnew : a = d ∧ j = k
  · obtain ⟨rfl, rfl⟩ := hnew
    rw [relink_dir] at ha
    cases ha
    rw [e.entry_new, relink_entry e.ne] at hme
    cases hme
    rcases e.kind with ⟨hk, -⟩ | ⟨-, -, -, -, hk, -⟩
    · exact absurd ht hk
    · exact hk
  · obtain ⟨mo, hmo, hlo, huo, heo⟩ := e.old_entry hj hnew ha hl hu
    rw [heo] at hme
    rcases relink_some e.ne hme with ⟨hd, rfl⟩ | ⟨hi, rfl⟩ | ⟨-, -, hme⟩
    · rw [e.entry_up]
      exact e.tree.back a mo j md hmo hlo hj huo (by rw [hd]; exact e.dir) e.live.1
    · exact absurd ht (e.old_file hmo hlo (by omega) huo hi)
    · exact e.tree.back a mo j me hmo hlo hj huo hme ht

lemma rooted_old (hm : N a = some m) (hl : m.Live) : Rooted (relink N d md' i mi) a := by
  refine (e.tree.rooted a m hm hl).transfer (x := 0) (e.tree.ne_zero hm) fun c mc hc hlc _ => ?_
  obtain ⟨m', hm', hl', he'⟩ := e.keeps hc hlc
  exact ⟨m', hm', hl', he', fun h0 => absurd h0 (e.tree.dirs c mc hc hlc).parent.1⟩

lemma rooted (ha : relink N d md' i mi a = some m) (hl : m.Live) :
    Rooted (relink N d md' i mi) a := by
  rcases relink_some e.ne ha with ⟨rfl, rfl⟩ | ⟨rfl, rfl⟩ | ⟨-, -, ha⟩
  · exact e.rooted_old e.dir e.live
  · refine .up ha hl ?_
    rw [(e.made hl).2.2]
    exact e.rooted_old e.dir e.live
  · exact e.rooted_old ha hl

lemma dirTree : DirTree B (relink N d md' i mi) where
  lt := relink_lt e.ne e.tree.lt (e.tree.bound e.dir) e.lt
  zero := by rw [relink_other (e.tree.ne_zero e.dir).symm e.pos.symm, e.tree.zero]
  count _ _ := e.count
  free _ := e.free_count
  root := e.root
  top := e.top
  dirs _ _ := e.dirs
  child _ _ := e.child
  back _ _ _ _ := e.back
  rooted _ _ := e.rooted

end Entering

lemma count_ups (h : DirTree B N) (a : Nat) :
    (names B 1 N).count a = (gather B fun d => upBy (N d)).count a + (names B 2 N).count a := by
  refine count_gather_add fun d hd => ?_
  cases hN : N d with
  | none => rfl
  | some m =>
    by_cases hl : m.Live
    · simp only [namedBy, upBy, if_pos hl]
      exact (h.dirs d m hN hl).count_named a
    · simp only [namedBy, upBy, if_neg hl]
      rfl

lemma mem_ups (hm : N d = some m) (hl : m.Live) (hd : d < B) :
    (m.entry 1).inum ∈ gather B fun d => upBy (N d) := by
  refine mem_gather.mpr ⟨d, hd, ?_⟩
  rw [hm, upBy, if_pos hl]
  exact mem_singleton.mpr rfl

lemma bare_ups (h : DirTree B N) (hm : N i = some m) (hi : i ≠ rootino) (hb : m.Bare) :
    (gather B fun d => upBy (N d)).count i = 0 := by
  refine count_eq_zero.mpr fun hmem => ?_
  obtain ⟨c, hc, hup⟩ := mem_gather.mp hmem
  cases hN : N c with
  | none =>
    rw [hN] at hup
    cases hup
  | some mc =>
    rw [hN, upBy] at hup
    split at hup
    next hlc =>
      have hpar := mem_singleton.mp hup
      by_cases hcr : c = rootino
      · obtain ⟨mr, hmr, -, her⟩ := h.root
        rw [hcr, hmr] at hN
        cases hN
        exact hi (hpar.trans her)
      · -- `c` is a child of `i`
        have hone := h.child c mc hN hlc hcr
        obtain ⟨d, hd, md, hmd, hld, k, hk, hu, he⟩ :=
          mem_names.mp (count_pos_iff.mp (by omega : 0 < (names B 2 N).count c))
        have hback := h.back d md k mc hmd hld hk hu (by rw [he]; exact hN) hlc.1
        have hdi : d = i := hback.symm.trans hpar.symm
        subst hdi
        rw [hm] at hmd
        cases hmd
        exact hu.2 (hb k hk (by have := hu.1; omega)).1
    next => cases hup

lemma bare_links (h : DirTree B N) (hmd : N d = some md) (hl : md.Live) (hk : 2 ≤ k) (hu : md.Used k)
    (hi : (md.entry k).inum = i) (hm : N i = some m) (ht : m.type = tDir) (hb : m.Bare) :
    m.Live ∧ i ≠ rootino ∧ (m.entry 1).inum = d ∧ m.nlink = 1 ∧ 2 ≤ md.nlink := by
  have hnz : m.nlink ≠ 0 := by
    obtain ⟨m', hm', hz⟩ := h.named hmd hl (by omega) hu
    rw [hi, hm] at hm'
    cases hm'
    exact hz
  have hlm : m.Live := ⟨ht, hnz⟩
  have hmem : i ∈ names B 2 N := mem_names.mpr ⟨d, h.bound hmd, md, hmd, hl, k, hk, hu, hi⟩
  have hir : i ≠ rootino := by
    rintro rfl
    exact count_eq_zero.mp h.top hmem
  have hpar := h.back d md k m hmd hl hk hu (by rw [hi]; exact hm) ht
  refine ⟨hlm, hir, hpar, ?_, ?_⟩
  · rw [h.count i m hm, h.count_ups, h.bare_ups hm hir hb, h.child i m hm hlm hir]
  · have hup : d ∈ gather B fun d => upBy (N d) := by
      have := mem_ups hm hlm (h.bound hm)
      rwa [hpar] at this
    rw [h.count d md hmd, h.count_ups]
    by_cases hdr : d = rootino
    · -- the ".." of the root itself and that of `i`
      obtain ⟨mr, hmr, hlr, her⟩ := h.root
      have hx := count_gather_exchange (n := B) (G := fun j => upBy (N j))
        (H := fun j => upBy (update N i none j))
        (h.bound hm) (fun j _ hj => by rw [update_of_ne hj]) d
      have hold : upBy (N i) = [d] := by rw [hm, upBy, if_pos hlm, hpar]
      rw [hold, update_self, show upBy none = [] from rfl, count_nil, count_singleton_self] at hx
      have hself : d ∈ gather B fun j => upBy (update N i none j) := by
        have hmem := mem_ups (B := B) (N := update N i none) (d := rootino) (m := mr)
          (by rw [update_of_ne (Ne.symm hir), hmr]) hlr (h.bound hmr)
        rwa [her, ← hdr] at hmem
      have hpos := count_pos_iff.mpr hself
      omega
    · have hpos := count_pos_iff.mpr hup
      have hone := h.child d md hmd hl hdr
      omega

lemma nlink_dec {v : Nat} (h0 : v ≠ 0) (hlt : v < 2 ^ 16) : (v + (2 ^ 16 - 1)) % 2 ^ 16 = v - 1 := by
  norm_num at hlt ⊢
  omega

lemma isDir_of_unlinked (hdir : md.IsDir d) (hk : 2 ≤ k) (hsize : md'.size = md.size)
    (hentry : ∀ j, j ≠ k → md'.entry j = md.entry j) (hused : ∀ j, md'.Used j → j ≠ k ∧
      md.Used j) : md'.IsDir d := by
  refine ⟨by rw [hsize]; exact hdir.sized, by rw [hsize]; exact hdir.two, ?_, ?_,
    fun j j' hu hu' he => ?_⟩
  · rw [FileNode.key, hentry 0 (by omega)]
    exact hdir.self
  · rw [FileNode.key, hentry 1 (by omega)]
    exact hdir.parent
  · rw [FileNode.key, FileNode.key, hentry j (hused j hu).1, hentry j' (hused j' hu').1] at he
    exact hdir.distinct j j' (hused j hu).2 (hused j' hu').2 he

lemma not_parent {e : Nat} {me : FileNode} (h : DirTree B N) (hm : N i = some m) (hir : i ≠ rootino)
    (hkind : m.type ≠ tDir ∨ m.Bare) (hme : N e = some me) (hle : me.Live)
    (he : (me.entry 1).inum = i) : e = rootino := by
  by_contra hr
  rcases hkind with ht | hb
  · -- the parent of a directory is a directory
    have hone := h.child e me hme hle hr
    obtain ⟨c, hc, mc, hmc, hlc, j, hj, hju, hje⟩ :=
      mem_names.mp (count_pos_iff.mp (by omega : 0 < (names B 2 N).count e))
    have hback := h.back c mc j me hmc hlc hj hju (by rw [hje]; exact hme) hle.1
    rw [he] at hback
    rw [← hback, hm] at hmc
    cases hmc
    exact ht hlc.1
  · have hz := h.bare_ups hm hir hb
    have hmem := mem_ups hme hle (h.bound hme)
    rw [he] at hmem
    exact count_eq_zero.mp hz hmem

structure Removing (B : Nat) (N : Nat → Option FileNode) (d : Nat) (md md' : FileNode) (k i : Nat)
    (m m' : FileNode) (extra : List Nat) : Prop where
  tree : DirTree B N
  dir : N d = some md
  live : md.Live
  two_le : 2 ≤ k
  used_old : md.Used k
  names_i : (md.entry k).inum = i
  node : N i = some m
  ne : d ≠ i
  type : md'.type = tDir
  size : md'.size = md.size
  entry : ∀ j, md'.entry j = (md.unlinked k (m.type = tDir)).entry j
  nlink : md'.nlink + extra.length = md.nlink
  linked : md'.nlink ≠ 0
  type_eq : m'.type = m.type
  link : m'.nlink + 1 = m.nlink
  kind : m.type ≠ tDir ∧ extra = [] ∨ m.type = tDir ∧ extra = [d] ∧ m.Bare

namespace Removing

variable {extra : List Nat} {j : Nat} {ma : FileNode}

variable (r : Removing B N d md md' k i m m' extra)
include r

lemma live_dir : md'.Live := ⟨r.type, r.linked⟩

lemma entry_ne (hj : j ≠ k) : md'.entry j = md.entry j := by
  rw [r.entry, FileNode.entry_unlinked, if_neg hj]

lemma entry_up : md'.entry 1 = md.entry 1 := r.entry_ne (by have := r.two_le; omega)

lemma used (hu : md'.Used j) : j ≠ k ∧ md.Used j := by
  have hjk : j ≠ k := by
    rintro rfl
    refine hu.2 ?_
    rw [r.entry, FileNode.entry_unlinked, if_pos rfl]
    rfl
  obtain ⟨h1, h2⟩ := hu
  rw [r.entry_ne hjk] at h2
  exact ⟨hjk, r.size ▸ h1, h2⟩

lemma bare (ht : m.type = tDir) (hb : m.Bare) :
    m.Live ∧ i ≠ rootino ∧ (m.entry 1).inum = d ∧ m.nlink = 1 ∧ 2 ≤ md.nlink :=
  r.tree.bare_links r.dir r.live r.two_le r.used_old r.names_i r.node ht hb

lemma not_live : ¬ m'.Live := by
  intro hl
  have hlink := r.link
  rcases r.kind with ⟨ht, -⟩ | ⟨ht, -, hb⟩
  · exact ht (r.type_eq ▸ hl.1)
  · have hone := (r.bare ht hb).2.2.2.1
    exact hl.2 (by omega)

lemma ne_root : i ≠ rootino := by
  rintro rfl
  exact count_eq_zero.mp r.tree.top
    (mem_names.mpr ⟨d, r.tree.bound r.dir, md, r.dir, r.live, k, r.two_le, r.used_old, r.names_i⟩)

lemma named_two : namedBy 2 (some m) = [] := by
  rcases r.kind with ⟨ht, -⟩ | ⟨ht, -, hb⟩
  · exact if_neg fun hl => ht hl.1
  · rw [namedBy, if_pos (r.bare ht hb).1]
    refine eq_nil_iff_forall_not_mem.mpr fun a ha => ?_
    obtain ⟨j, hj, hu, -⟩ := FileNode.mem_named.mp ha
    exact hu.2 (hb j hj (by have := hu.1; omega)).1

lemma named_one (a : Nat) : (namedBy 1 (some m)).count a = extra.count a := by
  have htwo := r.named_two
  rcases r.kind with ⟨ht, rfl⟩ | ⟨ht, rfl, hb⟩
  · rw [namedBy, if_neg fun hl => ht hl.1]
  · obtain ⟨hl, -, hup, -⟩ := r.bare ht hb
    rw [namedBy, if_pos hl] at htwo ⊢
    rw [(r.tree.dirs i m r.node hl).count_named, htwo, hup, count_nil, Nat.add_zero]

lemma count_names {lo : Nat} (hlo : lo ≤ 2) (a : Nat) :
    [i].count a + (namedBy lo (some m)).count a + (names B lo (relink N d md' i m')).count a =
      (names B lo N).count a := by
  have hk := r.two_le
  have h1 := count_names_update (N := N) lo (r.tree.bound r.node) (some m') a
  have h2 := count_names_update (N := update N i (some m')) lo (r.tree.bound r.dir) (some md') a
  rw [r.node, show namedBy lo (some m') = [] from if_neg r.not_live, count_nil] at h1
  rw [update_of_ne r.ne, r.dir] at h2
  have h3 : namedBy lo (some md) = md.named lo := if_pos r.live
  have h4 : namedBy lo (some md') = (md.unlinked k (m.type = tDir)).named lo := by
    rw [show namedBy lo (some md') = md'.named lo from if_pos r.live_dir]
    unfold FileNode.named FileNode.refsAt
    simp only [r.size, r.entry, FileNode.unlinked_size _ r.used_old.1]
  have h5 := FileNode.count_unlinked (m.type = tDir) r.used_old (by omega : lo ≤ k) a
  rw [r.names_i] at h5
  rw [h3, h4] at h2
  rw [relink]
  omega

lemma count_extra : extra.count d = extra.length ∧ ∀ a, a ≠ d → extra.count a = 0 :=
  DirTree.count_extra (r.kind.imp And.right fun hk => hk.2.1)

lemma count (ha : relink N d md' i m' a = some ma) :
    ma.nlink = (names B 1 (relink N d md' i m')).count a := by
  obtain ⟨hextrad, hextra⟩ := r.count_extra
  have hnlink := r.nlink
  have hlink := r.link
  have hc := r.count_names (Nat.le_succ 1) a
  rw [r.named_one] at hc
  rcases relink_some r.ne ha with ⟨rfl, rfl⟩ | ⟨rfl, rfl⟩ | ⟨hd, hi, ha⟩
  · rw [count_singleton_ne r.ne, hextrad, ← r.tree.count a md r.dir] at hc
    omega
  · rw [hextra a r.ne.symm, count_singleton_self, ← r.tree.count a m r.node] at hc
    omega
  · rw [count_singleton_ne hi, hextra a hd, ← r.tree.count a ma ha] at hc
    omega

lemma free_count (ha : relink N d md' i m' a = none) :
    (names B 1 (relink N d md' i m')).count a = 0 := by
  obtain ⟨-, -, ha⟩ := relink_none r.ne ha
  have hc := r.count_names (Nat.le_succ 1) a
  rw [r.tree.free a ha] at hc
  omega

lemma keeps (hm : N a = some ma) (hl : ma.Live) (hi : a ≠ i) :
    ∃ ma', relink N d md' i m' a = some ma' ∧
    ma'.Live ∧ (ma'.entry 1).inum = (ma.entry 1).inum ∧ ((ma.entry 1).inum = i → a = rootino) := by
  have hup := r.tree.not_parent r.node r.ne_root (r.kind.imp And.left fun hk => hk.2.2) hm hl
  by_cases hd : a = d
  · subst hd
    rw [r.dir] at hm
    cases hm
    exact ⟨md', relink_dir, r.live_dir, by rw [r.entry_up], hup⟩
  · exact ⟨ma, by rw [relink_other hd hi, hm], hl, rfl, hup⟩

lemma left (ha : relink N d md' i m' a = some ma) (hl : ma.Live) : a ≠ i ∧ ∃ mo, N a = some mo ∧
    mo.Live ∧ ∀ j, ma.Used j → mo.Used j ∧ ma.entry j = mo.entry j := by
  rcases relink_some r.ne ha with ⟨rfl, rfl⟩ | ⟨rfl, rfl⟩ | ⟨-, hi, ha⟩
  · exact ⟨r.ne, md, r.dir, r.live, fun j hj => ⟨(r.used hj).2, r.entry_ne (r.used hj).1⟩⟩
  · exact absurd hl r.not_live
  · exact ⟨hi, ma, ha, hl, fun j hj => ⟨hj, rfl⟩⟩

lemma root : ∃ ma, relink N d md' i m' rootino = some ma ∧ ma.Live ∧
    (ma.entry 1).inum = rootino := by
  obtain ⟨mr, hmr, hlr, her⟩ := r.tree.root
  obtain ⟨mr', hmr', hlr', her', -⟩ := r.keeps hmr hlr r.ne_root.symm
  exact ⟨mr', hmr', hlr', her'.trans her⟩

lemma top : (names B 2 (relink N d md' i m')).count rootino = 0 := by
  have hc := r.count_names le_rfl rootino
  rw [r.tree.top] at hc
  omega

lemma dirs (ha : relink N d md' i m' a = some ma) (hl : ma.Live) : ma.IsDir a := by
  rcases relink_some r.ne ha with ⟨rfl, rfl⟩ | ⟨rfl, rfl⟩ | ⟨-, -, ha⟩
  · exact isDir_of_unlinked (r.tree.dirs a md r.dir r.live) r.two_le r.size (fun _ => r.entry_ne)
      fun _ => r.used
  · exact absurd hl r.not_live
  · exact r.tree.dirs a ma ha hl

lemma child (ha : relink N d md' i m' a = some ma) (hl : ma.Live) (hr : a ≠ rootino) :
    (names B 2 (relink N d md' i m')).count a = 1 := by
  obtain ⟨hi, mo, hmo, hlo, -⟩ := r.left ha hl
  have hc := r.count_names le_rfl a
  rw [count_singleton_ne hi, r.named_two, r.tree.child a mo hmo hlo hr] at hc
  simpa using hc

lemma no_name (ht : m.type = tDir) : (names B 2 (relink N d md' i m')).count i = 0 := by
  rcases r.kind with ⟨hf, -⟩ | ⟨-, -, hb⟩
  · exact absurd ht hf
  · have hc := r.count_names le_rfl i
    rw [r.tree.child i m r.node (r.bare ht hb).1 r.ne_root, r.named_two, count_singleton_self] at hc
    rw [count_nil] at hc
    omega

lemma back {me : FileNode} (ha : relink N d md' i m' a = some ma) (hl : ma.Live) (hj : 2 ≤ j)
    (hu : ma.Used j) (hme : relink N d md' i m' (ma.entry j).inum = some me) (ht : me.type = tDir) :
    (me.entry 1).inum = a := by
  obtain ⟨hi, mo, hmo, hlo, huse⟩ := r.left ha hl
  obtain ⟨huo, heo⟩ := huse j hu
  rw [heo] at hme
  rcases relink_some r.ne hme with ⟨hd, rfl⟩ | ⟨hei, rfl⟩ | ⟨-, -, hme⟩
  · rw [r.entry_up]
    exact r.tree.back a mo j md hmo hlo hj huo (by rw [hd]; exact r.dir) r.live.1
  · refine absurd (mem_names.mpr ⟨a, r.tree.bound hmo, ma, ha, hl, j, hj, hu, ?_⟩)
      (count_eq_zero.mp (r.no_name (r.type_eq ▸ ht)))
    rw [heo, hei]
  · exact r.tree.back a mo j me hmo hlo hj huo hme ht

lemma rooted (ha : relink N d md' i m' a = some ma) (hl : ma.Live) :
    Rooted (relink N d md' i m') a := by
  obtain ⟨hi, mo, hmo, hlo, -⟩ := r.left ha hl
  exact (r.tree.rooted a mo hmo hlo).transfer hi fun _ _ => r.keeps

lemma dirTree : DirTree B (relink N d md' i m') where
  lt := relink_lt r.ne r.tree.lt (r.tree.bound r.dir) (r.tree.bound r.node)
  zero := by
    rw [relink_other (r.tree.ne_zero r.dir).symm (r.tree.ne_zero r.node).symm, r.tree.zero]
  count _ _ := r.count
  free _ := r.free_count
  root := r.root
  top := r.top
  dirs _ _ := r.dirs
  child _ _ := r.child
  back _ _ _ _ := r.back
  rooted _ _ := r.rooted

end Removing

variable (h : DirTree B N)
include h

lemma leaf {v : Option FileNode} (hm : N i = some m) (hl : ¬ m.Live)
    (hv : v = none ∧ m.nlink = 0 ∨ ∃ m', v = some m' ∧ m'.nlink = m.nlink ∧ ¬ m'.Live) : DirTree B
    (update N i v) := by
  have hsame : ∀ d me, me.Live → (update N i v d = some me ↔ N d = some me) := by
    intro d me hle
    by_cases hdi : d = i
    · subst hdi
      rw [update_self, hm]
      refine iff_of_false (fun hh => ?_) fun hh => hl (by cases hh; exact hle)
      rcases hv with ⟨hn, -⟩ | ⟨m', hn, -, hl'⟩
      · rw [hn] at hh
        cases hh
      · rw [hn] at hh
        cases hh
        exact hl' hle
    · rw [update_of_ne hdi]
  have hnames : ∀ lo, names B lo (update N i v) = names B lo N := by
    intro lo
    refine gather_congr fun d _ => ?_
    by_cases hdi : d = i
    · subst hdi
      rw [update_self, hm]
      rcases hv with ⟨hn, -⟩ | ⟨m', hn, -, hl'⟩
      · rw [hn, namedBy, namedBy, if_neg hl]
      · rw [hn, namedBy, namedBy, if_neg hl, if_neg hl']
    · rw [update_of_ne hdi]
  have hcount : ∀ a ma, update N i v a = some ma → ma.nlink = (names B 1 N).count a := by
    intro a ma ha
    by_cases hai : a = i
    · subst hai
      rw [update_self] at ha
      rcases hv with ⟨hn, -⟩ | ⟨m', hn, hlink, -⟩
      · rw [hn] at ha
        cases ha
      · rw [hn] at ha
        cases ha
        exact hlink.trans (h.count a m hm)
    · rw [update_of_ne hai] at ha
      exact h.count a ma ha
  refine ⟨fun a ha => ?_, ?_, fun a ma ha => (hnames 1).symm ▸ hcount a ma ha, fun a ha => ?_, ?_,
    (hnames 2).symm ▸ h.top, fun a ma ha hla => h.dirs a ma ((hsame a ma hla).mp ha) hla,
    fun a ma ha hla har => (hnames 2).symm ▸ h.child a ma ((hsame a ma hla).mp ha) hla har,
    fun a ma j me ha hla hj hju hme hmt => ?_, fun a ma ha hla => ?_⟩
  · by_cases hai : a = i
    · exact hai ▸ h.bound hm
    · rw [update_of_ne hai] at ha
      exact h.lt a ha
  · rw [update_of_ne (Ne.symm (h.ne_zero hm))]
    exact h.zero
  · rw [hnames]
    by_cases hai : a = i
    · subst hai
      rw [update_self] at ha
      rcases hv with ⟨-, hz⟩ | ⟨m', hn, -⟩
      · rw [← h.count a m hm, hz]
      · rw [hn] at ha
        cases ha
    · rw [update_of_ne hai] at ha
      exact h.free a ha
  · obtain ⟨mr, hmr, hlr, her⟩ := h.root
    exact ⟨mr, (hsame rootino mr hlr).mpr hmr, hlr, her⟩
  · have hma := (hsame a ma hla).mp ha
    have hmem : (ma.entry j).inum ∈ names B 1 N :=
      mem_names.mpr ⟨a, h.bound hma, ma, hma, hla, j, by omega, hju, rfl⟩
    have hpos := count_pos_iff.mpr hmem
    rw [← hcount _ me hme] at hpos
    exact h.back a ma j me hma hla hj hju ((hsame _ me ⟨hmt, by omega⟩).mp hme) hmt
  · refine (h.rooted a ma ((hsame a ma hla).mp ha) hla).transfer (x := 0)
      (h.ne_zero ((hsame a ma hla).mp ha))
      fun e me hme hle _ => ⟨me, (hsame e me hle).mpr hme, hle, rfl, fun h0 => ?_⟩
    exact absurd h0 (h.dirs e me hme hle).parent.1

lemma minor (he : MinorEffect keep N N') : DirTree B N' := by
  cases he with
  | free i m hm hz hi hN =>
    rw [hN]
    exact h.leaf hm (fun hl => hl.2 hz) (.inl ⟨rfl, hz⟩)
  | store i m m' hm ht htype hlink hN =>
    rw [hN]
    exact h.leaf hm (fun hl => ht hl.1) (.inr ⟨m', rfl, hlink, fun hl => ht (htype ▸ hl.1)⟩)

lemma minors (he : Minors keep N N') : DirTree B N' := by
  induction he with
  | refl => exact h
  | tail _ he ih => exact ih.minor he

lemma names_ge (hm : N d = some m) (hl : m.Live) (hk : m.Names name k)
    (hdot : ¬ (namecmp name dot = 0 ∨ namecmp name dotdot = 0)) : 2 ≤ k := by
  have hdir := h.dirs d m hm hl
  have hname : strncpy name dirsiz = m.key k := strncmp_eq_zero.mp hk.name
  by_contra hlt
  have hk01 : k = 0 ∨ k = 1 := by omega
  rcases hk01 with rfl | rfl
  · exact hdot (.inl (strncmp_eq_zero.mpr (hname.trans hdir.self.2)))
  · exact hdot (.inr (strncmp_eq_zero.mpr (hname.trans hdir.parent.2)))

lemma unlink (hlow : ∀ i m, N i = some m → m.nlink < 32767) (hP : HasLinks N d)
    (hdot : ¬ (namecmp name dot = 0 ∨ namecmp name dotdot = 0)) (hmd : N d = some md)
    (ht : md.type = tDir)
    (hk : md.Names name k) (hi : (md.entry k).inum = i) (hm : N i = some m)
    (hempty : m.type = tDir → m.Bare)
    (hm' : update N d (some (md.unlinked k (m.type = tDir))) i = some m') :
    DirTree B (update (update N d (some (md.unlinked k (m.type = tDir)))) i (some m'.decNlink)) := by
  have hl := hP.live hmd ht
  have hk2 := h.names_ge hmd hl hk hdot
  have hu : md.Used k := ⟨hk.lt, hk.used⟩
  have hdi : d ≠ i := by
    rintro rfl
    rw [hmd] at hm
    cases hm
    exact hk.used (hempty ht k hk2 (by have := hk.lt; omega)).1
  rw [update_of_ne (Ne.symm hdi), hm] at hm'
  cases hm'
  obtain ⟨m1, hm1, hz⟩ := h.named hmd hl (by omega) hu
  rw [hi, hm] at hm1
  cases hm1
  have hlowm := hlow i m hm
  have hlowd := hlow d md hmd
  have hdec : m.decNlink.nlink + 1 = m.nlink := by
    change (m.nlink + (2 ^ 16 - 1)) % 2 ^ 16 + 1 = m.nlink
    rw [nlink_dec hz (by omega)]
    omega
  rw [update_comm hdi]
  by_cases hmt : m.type = tDir
  · have hb := hempty hmt
    obtain ⟨-, -, -, -, h2⟩ := h.bare_links hmd hl hk2 hu hi hm hmt hb
    have hnl : (md.unlinked k (m.type = tDir)).nlink + 1 = md.nlink := by
      rw [FileNode.unlinked, if_pos hmt]
      change (md.nlink + (2 ^ 16 - 1)) % 2 ^ 16 + 1 = md.nlink
      rw [nlink_dec hl.2 (by omega)]
      omega
    have r : Removing B N d md _ k i m _ [d] := ⟨h, hmd, hl, hk2, hu, hi, hm, hdi,
      by rw [FileNode.unlinked_type, ht], FileNode.unlinked_size _ hk.lt, fun _ => rfl, hnl,
      by omega, (FileNode.same_setNlink _ _).1, hdec, .inr ⟨hmt, rfl, hb⟩⟩
    exact r.dirTree
  · have hnl : (md.unlinked k (m.type = tDir)).nlink = md.nlink := by
      rw [FileNode.unlinked, if_neg hmt]
      rfl
    have r : Removing B N d md _ k i m _ [] := ⟨h, hmd, hl, hk2, hu, hi, hm, hdi,
      by rw [FileNode.unlinked_type, ht], FileNode.unlinked_size _ hk.lt, fun _ => rfl, hnl,
      by rw [hnl]; exact hl.2, (FileNode.same_setNlink _ _).1, hdec, .inl ⟨hmt, rfl⟩⟩
    exact r.dirTree

lemma make {type major minor : Nat} (hB : B ≤ 2 ^ 16) (hlow : ∀ i m, N i = some m → m.nlink < 32767)
    (htype : type < 2 ^ 16) (hP : HasLinks N d) (hmd : N d = some md) (ht : md.type = tDir)
    (hno : ∀ j, ¬ md.Names name j)
    (hfree : md.FreeAt k) (hnew : N i = none) (hi : i ≠ 0) (hiB : i < B) :
    DirTree B (withFile N d i k type name (FileNode.made type major minor) md) := by
  have hl := hP.live hmd ht
  have hold : ∀ m, N i = some m → m.type ≠ tDir := fun m hm => by rw [hnew] at hm; cases hm
  have hdB := h.bound hmd
  have hlowd := hlow d md hmd
  have hcount : (names B 1 N).count i = 0 := h.free i hnew
  unfold withFile
  by_cases hdir : type = tDir
  · rw [if_pos hdir]
    have hnl : (md.parentOf k i type name).nlink = md.nlink + 1 := by
      rw [FileNode.parentOf, if_pos hdir]
      exact Nat.mod_eq_of_lt (by change md.nlink + 1 < _; omega)
    have hsize : (md.parentOf k i type name).size = (md.linked k i name).size := by
      rw [FileNode.parentOf, if_pos hdir]
      rfl
    have hentry : ∀ j, (md.parentOf k i type name).entry j = (md.linked k i name).entry j := by
      intro j
      rw [FileNode.parentOf, if_pos hdir]
      exact FileNode.entry_setNlink ..
    have hdots := FileNode.withDots_isDir (m := FileNode.made type major minor) (i := i)
      (d := d) rfl (by omega) (by omega) (h.ne_zero hmd)
    have hmt : ((FileNode.made type major minor).withDots i d).type = tDir := by
      subst hdir
      rfl
    have hlive : ((FileNode.made type major minor).withDots i d).Live := ⟨hmt, Nat.one_ne_zero⟩
    have e : Entering B N d md _ k name i _ [d] := ⟨h, hB, hmd, hl, hfree, hno, hiB, hi, hold,
      by rw [hcount]; rfl, by rw [FileNode.parentOf_type, ht], hsize, hentry, hnl,
      by rw [namedBy, if_pos hlive, hdots.2.2.1],
      .inr ⟨hmt, rfl, hnew, hdots.1, hdots.2.1, by rw [namedBy, if_pos hlive, hdots.2.2.2]⟩⟩
    exact e.dirTree
  · rw [if_neg hdir]
    have hmt : (FileNode.made type major minor).type ≠ tDir := by
      rw [FileNode.made, Nat.mod_eq_of_lt htype]
      exact hdir
    have hpar : md.parentOf k i type name = md.linked k i name := if_neg hdir
    rw [hpar]
    have e : Entering B N d md (md.linked k i name) k name i _ [] :=
      ⟨h, hB, hmd, hl, hfree, hno, hiB, hi, hold,
      by rw [hcount]; rfl, ht, rfl, fun _ => rfl, rfl, if_neg fun hh => hmt hh.1, .inl ⟨hmt, rfl⟩⟩
    exact e.dirTree

lemma link (hB : B ≤ 2 ^ 16) (hlow : ∀ i m, N i = some m → m.nlink < 32767) (hm : N i = some m)
    (hfile : m.type ≠ tDir) (hP : HasLinks N d) (hmd : N d = some md) (ht : md.type = tDir)
    (hno : ∀ j, ¬ md.Names name j)
    (hfree : md.FreeAt k) :
    DirTree B (update (update N i (some m.incNlink)) d (some (md.linked k i name))) := by
  have hl := hP.live hmd ht
  have hold : ∀ m', N i = some m' → m'.type ≠ tDir := fun m' hm' => by
    rw [hm] at hm'
    cases hm'
    exact hfile
  have hlowm := hlow i m hm
  have hnl : m.incNlink.nlink = (names B 1 N).count i + 1 := by
    rw [← h.count i m hm]
    exact Nat.mod_eq_of_lt (by omega)
  have e : Entering B N d md (md.linked k i name) k name i _ [] :=
    ⟨h, hB, hmd, hl, hfree, hno, h.bound hm, h.ne_zero hm, hold,
    hnl, ht, rfl, fun _ => rfl, rfl, if_neg fun hh => hfile hh.1, .inl ⟨hfile, rfl⟩⟩
  exact e.dirTree

lemma evolves {W : List UInt8 → Prop} (hB : B ≤ 2 ^ 16)
    (hlow : ∀ i m, N i = some m → m.nlink < 32767) (he : Evolves keep (HasLinks N) W N N')
    (hlt : ∀ i, N' i ≠ none → i < B) :
    DirTree B N' := by
  obtain ⟨N1, rfl | h0, h1⟩ := he
  · exact h.minors h1
  · refine DirTree.minors ?_ h1
    cases h0 with
    | make d i k type major minor name md htype hP hname hmd ht hsz hno hfree hnew hi hN =>
      have hiB : i < B := by
        have hdi : i ≠ d := by
          rintro rfl
          rw [hnew] at hmd
          cases hmd
        have hnewl : HasLinks N1 i := hN ▸ withFile_new hdi
        exact hlt i (h1.linked hnewl).ne_none
      rw [hN]
      exact h.make hB hlow htype hP hmd ht hno hfree hnew hi hiB
    | link i d k name m md hPi hm hfile hP hname hmd ht hsz hno hfree hN =>
      rw [hN]
      exact h.link hB hlow hm hfile hP hmd ht hno hfree
    | unlink i d k name m md m' hP hdot hmd ht hk hi hm hpos hempty hm' hN =>
      rw [hN]
      exact h.unlink hlow hP hdot hmd ht hk hi hm hempty hm'

omit h

end DirTree

end

end Xv6
