import Xv6.FsNodes

/-! What one process that runs alone does to the files. `refs` are all references to
inodes, as pairs of a table entry and an inode number; `locked` are the entries that the
process has locked. `lost` are inodes of the image that no path leads to. No other
allocated inode without links is unreferenced: `iput` frees an inode with its last
reference and its last link. -/

namespace Xv6

open Function (update_self update_of_ne update_eq_self)

open Kern List

def fsPanics : List String :=
  ["iget: no inodes", "iunlock", "sched locks", "dirlookup not DIR", "dirlookup read",
    "dirlink read", "isdirempty: readi", "unlink: nlink < 1"]

def stepPanics : List String :=
  ["iget: no inodes", "iunlock", "sched locks", "dirlookup not DIR", "dirlookup read",
    "dirlink read", "isdirempty: readi"]

lemma mem_fsPanics : ∀ e ∈ stepPanics, e ∈ fsPanics := by decide

def FileNode.Within (m : FileNode) (P : Nat → Prop) : Prop :=
  m.type = tDir → ∀ k, 16 * k + 16 ≤ m.size → (m.entry k).inum ≠ 0 → P (m.entry k).inum

def Closed (N : Nat → Option FileNode) (P : Nat → Prop) : Prop := ∀ i m, P i → N i = some m → m.Within P

/-- An inode without links is in use. -/
def Settled (lost : Nat → Prop) (N : Nat → Option FileNode) (refs : List (Nat × Nat)) : Prop :=
  ∀ i n, ¬ lost i → N i = some n → n.nlink = 0 → i ∈ refs.map Prod.snd

structure Tidy (lost : Nat → Prop) (N : Nat → Option FileNode) : Prop where
  root : ¬ lost rootino
  free : ∀ i, N i = none → ¬ lost i
  closed : Closed N fun i => ¬ lost i

structure Run (sb : Superblock) (lost : Nat → Prop) (s : Fs) (refs : List (Nat × Nat))
    (locked : List Nat) (n : Nat) : Prop where
  inv : FsInv s
  sb : s.sb = sb
  txn : s.outstanding = n
  lt : ∀ {ip i}, (ip, i) ∈ refs → ip < ninode
  num : ∀ {ip i}, (ip, i) ∈ refs → (s.itable ip).inum = i
  exact : ∀ ip < ninode, (s.itable ip).ref = (refs.map Prod.fst).count ip
  held : ∀ ip ∈ locked, ip ∈ refs.map Prod.fst
  valid : ∀ ip ∈ locked, (s.itable ip).valid = true
  clean : ∀ {ip i}, (ip, i) ∈ refs → ¬ lost i
  tidy : Tidy lost s.node
  settled : Settled lost s.node refs
  unread : ∀ ip < ninode, 0 < (s.itable ip).ref → (s.itable ip).valid = false →
    ∀ m, s.node (s.itable ip).inum = some m → m.nlink ≠ 0

section

variable {P : Nat → Prop} {N : Nat → Option FileNode} {m m' : FileNode} {i : Nat}

lemma FileNode.Within.of_same (h : m.Within P) (ht : m'.type = m.type) (hs : m'.size = m.size)
    (hd : m'.data = m.data) : m'.Within P := by
  unfold Within entry at *
  rw [ht, hs, hd]
  exact h

lemma FileNode.within_of_file (ht : m.type ≠ tDir) : m.Within P := fun h => absurd h ht

lemma FileNode.within_of_empty (hs : m.size = 0) : m.Within P := fun _ k hk => by omega

lemma FileNode.Within.write {data : List UInt8} {k : Nat} (h : m.Within P) (hlen : data.length = 16)
    (hk : 16 * k ≤ m.size) (hd : (getDirent data).inum ≠ 0 → P (getDirent data).inum) :
    (m.write (16 * k) data).Within P := by
  intro ht j hj h0
  rw [entry_write hlen] at h0 ⊢
  have hsz : (m.write (16 * k) data).size = max m.size (16 * k + 16) := by rw [FileNode.write, hlen]
  rw [hsz] at hj
  by_cases hjk : j = k
  · rw [if_pos hjk] at h0 ⊢
    exact hd h0
  · rw [if_neg hjk] at h0 ⊢
    exact h ht j (by omega) h0

lemma Closed.update (h : Closed N P) (hm : m.Within P) : Closed (Function.update N i (some m)) P := by
  intro j m' hj hm'
  by_cases hji : j = i
  · rw [hji, update_self] at hm'
    cases hm'
    exact hm
  · rw [update_of_ne hji] at hm'
    exact h j m' hj hm'

lemma Closed.remove (h : Closed N P) : Closed (Function.update N i none) P := by
  intro j m' hj hm'
  by_cases hji : j = i
  · rw [hji, update_self] at hm'
    cases hm'
  · rw [update_of_ne hji] at hm'
    exact h j m' hj hm'

variable {lost : Nat → Prop}

lemma Tidy.update (h : Tidy lost N) (hm : m.Within fun i => ¬ lost i) :
    Tidy lost (Function.update N i (some m)) := by
  refine ⟨h.root, fun j hj => ?_, h.closed.update hm⟩
  by_cases hji : j = i
  · rw [hji, update_self] at hj
    cases hj
  · rw [update_of_ne hji] at hj
    exact h.free j hj

lemma Tidy.remove (h : Tidy lost N) (hi : ¬ lost i) : Tidy lost (Function.update N i none) := by
  refine ⟨h.root, fun j hj => ?_, h.closed.remove⟩
  by_cases hji : j = i
  · rw [hji]
    exact hi
  · rw [update_of_ne hji] at hj
    exact h.free j hj

end

section

variable {sb : Superblock} {lost : Nat → Prop} {s s' : Fs} {refs : List (Nat × Nat)}
  {locked : List Nat} {p ip i n : Nat} {E : Panics}

variable (h : Run sb lost s refs locked n)
include h

lemma Run.ref_pos (hip : (ip, i) ∈ refs) : 0 < (s.itable ip).ref := by
  rw [h.exact ip (h.lt hip)]
  exact count_pos_iff.mpr (mem_map_of_mem hip)

lemma Run.inum_lt (hip : (ip, i) ∈ refs) : i < sb.ninodes := by
  rw [← h.num hip, ← h.sb]
  exact h.inv.inum ip (h.lt hip) (h.ref_pos hip)

lemma Run.loaded (hip : (ip, i) ∈ refs) (hl : ip ∈ locked) : Loaded ip s :=
  ⟨h.lt hip, h.ref_pos hip, h.valid ip hl⟩

lemma Run.slot_unique {x : Nat} (hip : (ip, i) ∈ refs) (hx : x < ninode)
    (hr : 0 < (s.itable x).ref) (hi : (s.itable x).inum = i) : x = ip :=
  h.inv.unique x hx ip (h.lt hip) hr (h.ref_pos hip) (hi.trans (h.num hip).symm)

omit h

lemma Run.mem_fst_iff (h : Run sb lost s ((ip, i) :: refs) locked n) :
    ip ∈ refs.map Prod.fst ↔ i ∈ refs.map Prod.snd := by
  have hi := h.num mem_cons_self
  constructor
  · rintro hm
    obtain ⟨⟨x, j⟩, hr, rfl⟩ := mem_map.mp hm
    have hj := h.num (mem_cons_of_mem _ hr)
    exact mem_map.mpr ⟨_, hr, hj.symm.trans hi⟩
  · rintro hm
    obtain ⟨⟨x, j⟩, hr, rfl⟩ := mem_map.mp hm
    have hmem := mem_cons_of_mem (ip, j) hr
    have hx := h.slot_unique mem_cons_self (h.lt hmem) (h.ref_pos hmem) (h.num hmem)
    exact mem_map.mpr ⟨_, hr, hx⟩

lemma Run.node_some (h : Run sb lost s refs locked n) (hip : (ip, i) ∈ refs) (hl : ip ∈ locked) :
    ∃ m, s.node i = some m := by
  have hn := (h.inv.node_loaded (h.loaded hip hl)).2
  rw [h.num hip] at hn
  exact Option.ne_none_iff_exists'.mp hn

lemma Run.perm {refs' : List (Nat × Nat)} (h : Run sb lost s refs locked n) (hp : refs.Perm refs') :
    Run sb lost s refs' locked n where
  inv := h.inv
  sb := h.sb
  txn := h.txn
  lt := fun hr => h.lt (hp.mem_iff.mpr hr)
  num := fun hr => h.num (hp.mem_iff.mpr hr)
  exact := fun x hx => by rw [← (hp.map Prod.fst).count_eq]; exact h.exact x hx
  held := fun x hx => (hp.map Prod.fst).mem_iff.mp (h.held x hx)
  valid := h.valid
  clean := fun hr => h.clean (hp.mem_iff.mpr hr)
  tidy := h.tidy
  settled := fun j m hc hj hm => (hp.map Prod.snd).mem_iff.mp (h.settled j m hc hj hm)
  unread := h.unread

variable {L : List Nat} {N : Nat → Option FileNode} {m : FileNode} {name : List UInt8}
  {dp d type : Nat} {parent : Bool}

include h

lemma Run.forget (hs : ∀ x ∈ L, x ∈ locked) : Run sb lost s refs L n :=
  { h with
    held := fun x hx => h.held x (hs x hx)
    valid := fun x hx => h.valid x (hs x hx) }

lemma Run.changed (hi : FsInv s') (hs : SameRefs s s') (hip : (ip, i) ∈ refs)
    (hl : ip ∈ locked) {m' : FileNode} (hw : m'.Within fun i => ¬ lost i)
    (hn : s'.node = Function.update s.node i (some m')) : Run sb lost s' refs locked n where
  inv := hi
  sb := hs.sb.trans h.sb
  txn := hs.outstanding.trans h.txn
  lt := h.lt
  num := fun hr => (hs.slot _).2.1.trans (h.num hr)
  exact := fun x hx => (hs.slot x).1.trans (h.exact x hx)
  held := h.held
  valid := fun x hx => (hs.slot x).2.2.1.trans (h.valid x hx)
  clean := h.clean
  tidy := by
    rw [hn]
    exact h.tidy.update hw
  settled := by
    intro j m hc hj hm
    by_cases hji : j = i
    · subst hji
      exact mem_map_of_mem hip
    · rw [hn, update_of_ne hji] at hj
      exact h.settled j m hc hj hm
  unread := by
    intro x hx hr hv m hm
    rw [(hs.slot x).1] at hr
    rw [(hs.slot x).2.2.1] at hv
    rw [(hs.slot x).2.1] at hm
    by_cases hxi : (s.itable x).inum = i
    · have hx := h.slot_unique hip hx hr hxi
      rw [hx, h.valid ip hl] at hv
      cases hv
    · rw [hn, update_of_ne hxi] at hm
      exact h.unread x hx hr hv m hm

lemma Run.got (hi : i < sb.ninodes) (hc : ¬ lost i) (hg : Got i s s' ip) :
    Run sb lost s' ((ip, i) :: refs) locked n ∧ s'.node = s.node := by
  have hsb : s'.sb = s.sb := by rw [hg.eq]; rfl
  have hnode : s'.node = s.node := Fs.node_congr hsb (by rw [hg.eq]; rfl)
  have hsame : ∀ x, x ≠ ip → s'.itable x = s.itable x := fun x hx => by
    rw [hg.eq]
    exact update_of_ne hx _ _
  have hself : s'.itable ip = { s.itable ip with
      inum := i
      ref := (s.itable ip).ref + 1
      valid := (s.itable ip).valid && decide (0 < (s.itable ip).ref) } := by
    rw [hg.eq]
    exact update_self _ _ _
  have hpos : ∀ {j}, (ip, j) ∈ refs → i = j := fun hr => by
    rw [← h.num hr]
    exact (hg.hit (h.ref_pos hr)).symm
  refine ⟨⟨h.inv.got (by rw [h.sb]; exact hi) hg, hsb.trans h.sb, ?_, fun {x j} hr => ?_,
    fun {x j} hr => ?_, fun x hx => ?_, fun x hx => mem_cons_of_mem _ (h.held x hx), fun x hx => ?_,
    fun {x j} hr => ?_, by rw [hnode]; exact h.tidy,
    fun j m hc hj hm => ?_, fun x hx hr hv m hm => ?_⟩, hnode⟩
  · rw [hg.eq]
    exact h.txn
  · rcases mem_cons.mp hr with he | hr
    · cases he
      exact hg.lt
    · exact h.lt hr
  · rcases mem_cons.mp hr with he | hm
    · cases he
      rw [hself]
    · by_cases hx : x = ip
      · subst hx
        rw [hself]
        exact hpos hm
      · rw [hsame x hx]
        exact h.num hm
  · rw [map_cons]
    by_cases hxi : x = ip
    · subst hxi
      rw [hself, count_cons_self, ← h.exact x hx]
    · rw [hsame x hxi, count_cons_of_ne (Ne.symm hxi)]
      exact h.exact x hx
  · by_cases hxi : x = ip
    · subst hxi
      obtain ⟨⟨y, j⟩, hr, rfl⟩ := mem_map.mp (h.held _ hx)
      rw [hself]
      simp only [h.valid _ hx, Bool.true_and, decide_eq_true_eq]
      exact h.ref_pos hr
    · rw [hsame x hxi]
      exact h.valid x hx
  · rcases mem_cons.mp hr with he | hr
    · cases he
      exact hc
    · exact h.clean hr
  · rw [hnode] at hj
    exact mem_cons_of_mem _ (h.settled j m hc hj hm)
  · rw [hnode] at hm
    by_cases hxi : x = ip
    · subst hxi
      rw [hself] at hv hm
      by_cases hr0 : 0 < (s.itable x).ref
      · simp only [hr0, decide_true, Bool.and_true] at hv
        refine h.unread x hx hr0 hv m ?_
        rw [hg.hit hr0]
        exact hm
      · intro hz
        obtain ⟨⟨y, j⟩, hr', rfl⟩ := mem_map.mp (h.settled i m hc hm hz)
        exact hg.miss (by omega) y (h.lt hr') (h.ref_pos hr') (h.num hr')
    · rw [hsame x hxi] at hr hv hm
      exact h.unread x hx hr hv m hm

lemma Run.dup (hip : (ip, i) ∈ refs) :
    Run sb lost (s.setInode ip { s.itable ip with ref := (s.itable ip).ref + 1 })
    ((ip, i) :: refs) locked n ∧
      (s.setInode ip { s.itable ip with ref := (s.itable ip).ref + 1 }).node = s.node := by
  refine h.got (h.inum_lt hip) (h.clean hip) ⟨h.lt hip, fun _ => h.num hip, fun h0 => ?_, ?_⟩
  · have hr := h.ref_pos hip
    omega
  · rw [← h.num hip]
    simp [h.ref_pos hip]

lemma Run.ilocked (hip : (ip, i) ∈ refs) (hn : s.node i ≠ none) :
    Run sb lost (s.locked p ip) refs (ip :: locked) n ∧ (s.locked p ip).node = s.node := by
  have hnode : (s.locked p ip).node = s.node := Fs.node_congr rfl rfl
  have hself : (s.locked p ip).itable ip = { s.itable ip with
      lock := some p, valid := true, din := s.dinode (s.itable ip).inum } := update_self _ _ _
  have hsame : ∀ x, x ≠ ip → (s.locked p ip).itable x = s.itable x := fun x hx => update_of_ne hx _ _
  have hkeep : ∀ x, ((s.locked p ip).itable x).ref = (s.itable x).ref ∧
      ((s.locked p ip).itable x).inum = (s.itable x).inum := by
    intro x
    by_cases hx : x = ip
    · rw [hx, hself]
      exact ⟨rfl, rfl⟩
    · rw [hsame x hx]
      exact ⟨rfl, rfl⟩
  have ht : (s.dinode (s.itable ip).inum).type ≠ 0 := by
    intro h0
    refine hn ?_
    rw [← h.num hip, Fs.node_of_lt (h.inv.inum ip (h.lt hip) (h.ref_pos hip)), nodeOf_eq_none.mpr h0]
  refine ⟨⟨h.inv.locked (h.lt hip) ht, h.sb, h.txn, h.lt, fun hr => (hkeep _).2.trans (h.num hr),
    fun x hx => (hkeep x).1.trans (h.exact x hx), fun x hx => ?_, fun x hx => ?_, h.clean,
    by rw [hnode]; exact h.tidy, ?_,
    fun x hx hr hv => ?_⟩, hnode⟩
  · rcases mem_cons.mp hx with rfl | hx
    · exact mem_map_of_mem hip
    · exact h.held x hx
  · by_cases hxi : x = ip
    · rw [hxi, hself]
    · rw [hsame x hxi]
      exact h.valid x ((mem_cons.mp hx).resolve_left hxi)
  · rw [hnode]
    exact h.settled
  · rw [hnode]
    by_cases hxi : x = ip
    · rw [hxi, hself] at hv
      cases hv
    · rw [hsame x hxi] at hr hv ⊢
      exact h.unread x hx hr hv

lemma Run.setLock (hip : ip < ninode) (l : Option Nat) :
    Run sb lost (s.setLock ip l) refs locked n ∧ (s.setLock ip l).node = s.node := by
  have hkeep : ∀ x, ((s.setLock ip l).itable x).ref = (s.itable x).ref ∧
      ((s.setLock ip l).itable x).inum = (s.itable x).inum ∧
      ((s.setLock ip l).itable x).valid = (s.itable x).valid := by
    intro x
    by_cases hx : x = ip
    · simp [Fs.setLock, Fs.setInode, hx]
    · simp [Fs.setLock, Fs.setInode, hx]
  have hnode : (s.setLock ip l).node = s.node := Fs.node_congr rfl rfl
  refine ⟨{ h with
    inv := h.inv.setLock hip l
    num := fun hr => (hkeep _).2.1.trans (h.num hr)
    exact := fun x hx => (hkeep x).1.trans (h.exact x hx)
    valid := fun x hx => (hkeep x).2.2.trans (h.valid x hx)
    tidy := by rw [hnode]; exact h.tidy
    settled := by rw [hnode]; exact h.settled
    unread := fun x hx hr hv => ?_ }, hnode⟩
  rw [hnode, (hkeep x).2.1]
  rw [(hkeep x).1] at hr
  rw [(hkeep x).2.2] at hv
  exact h.unread x hx hr hv

omit h

lemma Run.drop (h : Run sb lost s ((ip, i) :: refs) locked n)
    (hl : ∀ x ∈ locked, x ∈ refs.map Prod.fst) (hs : Settled lost s.node refs) : Run sb lost
    (s.dropRef ip) refs locked n ∧ (s.dropRef ip).node = s.node := by
  have hip := h.lt mem_cons_self
  have hnode : (s.dropRef ip).node = s.node := Fs.node_congr rfl rfl
  have hself : (s.dropRef ip).itable ip = { s.itable ip with ref := (s.itable ip).ref - 1 } :=
    update_self _ _ _
  have hsame : ∀ x, x ≠ ip → (s.dropRef ip).itable x = s.itable x := fun x hx => update_of_ne hx _ _
  have hkeep : ∀ x, ((s.dropRef ip).itable x).inum = (s.itable x).inum ∧
      ((s.dropRef ip).itable x).valid = (s.itable x).valid ∧
      ((s.dropRef ip).itable x).ref ≤ (s.itable x).ref := by
    intro x
    by_cases hx : x = ip
    · rw [hx, hself]
      exact ⟨rfl, rfl, Nat.sub_le _ _⟩
    · rw [hsame x hx]
      exact ⟨rfl, rfl, Nat.le_refl _⟩
  refine ⟨⟨h.inv.dropRef hip, h.sb, h.txn, fun hr => h.lt (mem_cons_of_mem _ hr),
    fun hr => (hkeep _).1.trans (h.num (mem_cons_of_mem _ hr)), fun x hx => ?_, hl,
    fun x hx => (hkeep x).2.1.trans (h.valid x hx), fun hr => h.clean (mem_cons_of_mem _ hr),
    by rw [hnode]; exact h.tidy, by rw [hnode]; exact hs, fun x hx hr hv => ?_⟩, hnode⟩
  · have hx' := h.exact x hx
    rw [map_cons] at hx'
    by_cases hxi : x = ip
    · subst hxi
      rw [count_cons_self] at hx'
      rw [hself]
      simp only [hx', Nat.add_sub_cancel]
    · rw [hsame x hxi, hx', count_cons_of_ne (Ne.symm hxi)]
  · rw [hnode, (hkeep x).1]
    rw [(hkeep x).2.1] at hv
    exact h.unread x hx (Nat.lt_of_lt_of_le hr (hkeep x).2.2) hv

def putNode (N : Nat → Option FileNode) (refs : List (Nat × Nat)) (i : Nat) : Nat → Option FileNode :=
  match N i with
  | some m => if m.nlink = 0 ∧ i ∉ refs.map Prod.snd then Function.update N i none else N
  | none => N

lemma putNode_eq_self (h : ∀ m, N i = some m → m.nlink = 0 → i ∈ refs.map Prod.snd) :
    putNode N refs i = N := by
  unfold putNode
  split
  next m hm => exact if_neg fun hc => hc.2 (h m hm hc.1)
  next => rfl

lemma putNode_last (hm : N i = some m) (hz : m.nlink = 0)
    (hi : i ∉ refs.map Prod.snd) : putNode N refs i = Function.update N i none := by
  unfold putNode
  rw [hm]
  exact if_pos ⟨hz, hi⟩

lemma iput_run (h : Run sb lost s ((ip, i) :: refs) locked n) (hn : 1 ≤ n)
    (hl : ∀ x ∈ locked, x ∈ refs.map Prod.fst) (hE : ∀ e ∈ stepPanics, E e) :
    Thread.Upholds FsInv (iput p ip) s E fun _ s' => Run sb lost s' refs locked n ∧
    s'.node = putNode s.node refs i := by
  have hmem : (ip, i) ∈ (ip, i) :: refs := mem_cons_self
  have hip := h.lt hmem
  have hnum := h.num hmem
  unfold iput
  refine Thread.Upholds.bind
    (Thread.upholds_step h.inv (iputStart_sat (.inl (hE _ (by simp [stepPanics])))) ?_) ?_
  · rintro r s1 (⟨-, -, rfl⟩ | ⟨-, -, rfl⟩)
    · exact h.inv.setLock hip _
    · exact h.inv.dropRef hip
  rintro r s1 (⟨rfl, hlast, rfl⟩ | ⟨rfl, hlast, rfl⟩)
  · -- the last reference: no other one is held, so `ip` is not locked
    have hone : ip ∉ refs.map Prod.fst := by
      intro hm
      have hc := h.exact ip hip
      rw [map_cons, count_cons_self, hlast.1] at hc
      have hpos := count_pos_iff.mpr hm
      omega
    have hload0 : Loaded ip s := ⟨hip, h.ref_pos hmem, hlast.2.1⟩
    obtain ⟨m, hm⟩ : ∃ m, s.node i = some m := by
      have hne := (h.inv.node_loaded hload0).2
      rw [hnum] at hne
      exact Option.ne_none_iff_exists'.mp hne
    have hz : m.nlink = 0 := by
      rw [← (h.inv.node_type hload0 (by rw [hnum]; exact hm)).2.1]
      exact hlast.2.2
    obtain ⟨h1, hnode1⟩ := h.setLock hip (some p)
    have hload : Loaded ip (s.setLock ip (some p)) :=
      ⟨hip, h1.ref_pos hmem, by simp [Fs.setLock, Fs.setInode, hlast.2.1]⟩
    refine Thread.Upholds.bind
      (Thread.upholds_step h1.inv (iputFree_sat h1.inv hload (by rw [h1.txn]; exact hn))
      fun _ _ h => h.1) ?_
    rintro _ s2 ⟨hi2, hfreed⟩
    have hnode2 : s2.node = Function.update s.node i none := by
      rw [hfreed.node (h1.inv.inum ip hip (h1.ref_pos hmem)), h1.num hmem, hnode1]
    have hkeep :
      ∀ x, (s2.itable x).inum = (s.itable x).inum ∧ (s2.itable x).ref = (s.itable x).ref := by
      intro x
      by_cases hx : x = ip
      · rw [hx, hfreed.slot]
        simp [Fs.setLock, Fs.setInode]
      · rw [hfreed.slots x hx]
        simp [Fs.setLock, Fs.setInode, hx]
    have hother : ∀ x, x ≠ ip → s2.itable x = s.itable x := fun x hx => by
      rw [hfreed.slots x hx]
      simp [Fs.setLock, Fs.setInode, hx]
    have h2 : Run sb lost s2 ((ip, i) :: refs) locked n := by
      refine ⟨hi2, hfreed.sb.trans h1.sb, hfreed.outstanding.trans h1.txn, h.lt,
        fun hr => (hkeep _).1.trans (h.num hr), fun x hx => (hkeep x).2.trans (h.exact x hx),
        h.held, fun x hx => ?_, h.clean, ?_, fun j m' hc hj hm' => ?_,
        fun x hx hr hv m' hm' => ?_⟩
      · rw [hother x fun he => hone (he ▸ hl x hx)]
        exact h.valid x hx
      · rw [hnode2]
        exact h.tidy.remove (h.clean hmem)
      · by_cases hji : j = i
        · rw [hji]
          exact mem_cons_self
        · rw [hnode2, update_of_ne hji] at hj
          exact h.settled j m' hc hj hm'
      · rw [(hkeep x).1, hnode2] at hm'
        rw [(hkeep x).2] at hr
        by_cases hxi : x = ip
        · rw [hxi, hnum, update_self] at hm'
          cases hm'
        · rw [hother x hxi] at hv
          have hji : (s.itable x).inum ≠ i := fun he => hxi (h.slot_unique hmem hx hr he)
          rw [update_of_ne hji] at hm'
          exact h.unread x hx hr hv m' hm'
    have hset : Settled lost s2.node refs := by
      intro j m' hc hj hm'
      rw [hnode2] at hj
      have hji : j ≠ i := by
        rintro rfl
        rw [update_self] at hj
        cases hj
      rw [update_of_ne hji] at hj
      exact (mem_cons.mp (h.settled j m' hc hj hm')).resolve_left hji
    obtain ⟨h3, hnode3⟩ := h2.drop hl hset
    refine Thread.upholds_step h2.inv (sat_modifyState.mpr ⟨h3, ?_⟩) fun _ _ h => h.1.inv
    rw [hnode3, hnode2, putNode_last hm hz (fun hi => hone (h.mem_fst_iff.mpr hi))]
  · -- there are links, or other references
    have hset : Settled lost s.node refs := by
      intro j m hc hj hm
      rcases mem_cons.mp (h.settled j m hc hj hm) with hji | hj'
      · have hji : j = i := hji
        subst hji
        by_contra hno
        have hone : ip ∉ refs.map Prod.fst := fun hm => hno (h.mem_fst_iff.mp hm)
        have hr1 : (s.itable ip).ref = 1 := by
          rw [h.exact ip hip, map_cons, count_cons_self, count_eq_zero_of_not_mem hone]
        cases hv : (s.itable ip).valid with
        | false => exact h.unread ip hip (by omega) hv m (by rw [hnum]; exact hj) hm
        | true =>
          have hload : Loaded ip s := ⟨hip, by omega, hv⟩
          refine hlast ⟨hr1, hv, ?_⟩
          rw [(h.inv.node_type hload (by rw [hnum]; exact hj)).2.1]
          exact hm
      · exact hj'
    obtain ⟨h1, hnode1⟩ := h.drop hl hset
    refine Thread.upholds_pure h1.inv ⟨h1, ?_⟩
    rw [hnode1, putNode_eq_self fun m hm hz => hset i m (h.clean hmem) hm hz]

lemma ilock_run (h : Run sb lost s refs locked n) (hip : (ip, i) ∈ refs)
    (hno : E "ilock: no type" ∨ s.node i ≠ none) : Thread.Upholds FsInv (ilock p ip) s E fun _ s' =>
      Run sb lost s' refs (ip :: locked) n ∧ s'.node = s.node ∧ s.node i ≠ none := by
  have hnode : s.node i = nodeOf s.disk (s.dinode (s.itable ip).inum) := by
    rw [← Fs.node_of_lt (h.inv.inum ip (h.lt hip) (h.ref_pos hip)), h.num hip]
  have htype : s.node i ≠ none ↔ (s.dinode (s.itable ip).inum).type ≠ 0 := by
    rw [hnode, ne_eq, nodeOf_eq_none]
  refine Thread.upholds_await h.inv (fun _ => (ilockStep_sat h.inv (h.lt hip) (h.ref_pos hip)
    (hno.imp_right htype.mp)).imp ?_) fun _ _ h => h.1.inv
  rintro _ s' ⟨rfl, ht⟩
  obtain ⟨h1, hnode1⟩ := h.ilocked (p := p) hip (htype.mpr ht)
  exact ⟨h1, hnode1, htype.mpr ht⟩

lemma iunlock_run (h : Run sb lost s refs locked n) (hip : (ip, i) ∈ refs)
    (hE : ∀ e ∈ stepPanics, E e) : Thread.Upholds FsInv (iunlock p ip) s E fun _ s' =>
    Run sb lost s' refs locked n ∧ s'.node = s.node := by
  refine Thread.upholds_step h.inv ((iunlockStep_sat (.inl (hE _ (by simp [stepPanics])))).imp ?_)
    fun _ _ h => h.1.inv
  rintro _ s' rfl
  exact h.setLock (h.lt hip) none

lemma iunlockput_run (h : Run sb lost s ((ip, i) :: refs) locked n) (hn : 1 ≤ n)
    (hl : ∀ x ∈ L, x ∈ locked ∧ x ∈ refs.map Prod.fst) (hE : ∀ e ∈ stepPanics, E e) :
    Thread.Upholds FsInv (iunlockput p ip) s E fun _ s' =>
      Run sb lost s' refs L n ∧ s'.node = putNode s.node refs i := by
  unfold iunlockput
  refine (iunlock_run h mem_cons_self hE).bind ?_
  rintro _ s1 ⟨h1, hnode1⟩
  refine (iput_run (h1.forget fun x hx => (hl x hx).1) hn (fun x hx => (hl x hx).2) hE).imp ?_
  rintro _ s2 ⟨h2, hnode2⟩
  rw [hnode1] at hnode2
  exact ⟨h2, hnode2⟩

lemma iunlockput_settled (h : Run sb lost s ((ip, i) :: refs) locked n) (hn : 1 ≤ n)
    (hs : Settled lost s.node refs)
    (hl : ∀ x ∈ L, x ∈ locked ∧ x ∈ refs.map Prod.fst) (hE : ∀ e ∈ stepPanics, E e) :
    Thread.Upholds FsInv (iunlockput p ip) s E fun _ s' => Run sb lost s' refs L n ∧
    s'.node = s.node := by
  refine (iunlockput_run h hn hl hE).imp ?_
  rintro _ s' ⟨h', hnode⟩
  rw [putNode_eq_self fun m hm hz => hs i m (h.clean mem_cons_self) hm hz] at hnode
  exact ⟨h', hnode⟩

include h

lemma typeOf_run (hip : (ip, i) ∈ refs) (hl : ip ∈ locked)
    (hm : s.node i = some m) :
    Thread.Upholds FsInv (fsStep (typeOf ip)) s E fun r s' => r = m.type ∧ s' = s := by
  refine Thread.upholds_step h.inv ((sat_of_eq (by rfl)).mpr ⟨?_, rfl⟩) ?_
  · exact (h.inv.node_type (h.loaded hip hl) (by rw [h.num hip]; exact hm)).1
  · rintro _ _ ⟨-, rfl⟩
    exact h.inv

lemma inumOf_run (hip : (ip, i) ∈ refs) :
    Thread.Upholds FsInv (fsStep (inumOf ip)) s E fun r s' => r = i ∧ s' = s := by
  refine Thread.upholds_step h.inv ((sat_of_eq (by rfl)).mpr ⟨h.num hip, rfl⟩) ?_
  rintro _ _ ⟨-, rfl⟩
  exact h.inv

lemma Run.begun : Run sb lost { s with outstanding := s.outstanding + 1 } refs locked (n + 1) :=
  { h with
    inv := ⟨h.inv.toDiskInv.congr rfl rfl, ⟨h.inv.inum, h.inv.unique, h.inv.coherent⟩⟩
    txn := congrArg (· + 1) h.txn }

lemma beginOp_run :
    Thread.Upholds FsInv (fsStep Fs.beginOp) s E fun _ s' => Run sb lost s' refs locked (n + 1) ∧
    s'.node = s.node :=
  Thread.upholds_step h.inv (sat_modifyState.mpr ⟨h.begun, rfl⟩) fun _ _ h => h.1.inv

omit h

lemma endOp_run (h : Run sb lost s refs locked (n + 1)) :
    Thread.Upholds FsInv (fsStep Fs.endOp) s E fun _ s' => Run sb lost s' refs locked n ∧
    s'.node = s.node := by
  refine Thread.upholds_step h.inv (sat_modifyState.mpr ⟨?_, rfl⟩) fun _ _ h => h.1.inv
  exact { h with
    inv := ⟨h.inv.toDiskInv.congr rfl rfl, ⟨h.inv.inum, h.inv.unique, h.inv.coherent⟩⟩
    txn := congrArg (· - 1) h.txn }

lemma FsInv.entry_lt (hi : FsInv s) (hm : s.node i = some m) (ht : m.type = tDir) {k : Nat}
    (hk : 16 * k + 16 ≤ m.size) : (m.entry k).inum < s.sb.ninodes := by
  unfold Fs.node at hm
  split at hm
  next hlt =>
    rw [← entry_of_nodeOf hm (by obtain ⟨-, rfl⟩ := nodeOf_some hm; exact hk)]
    obtain ⟨-, rfl⟩ := nodeOf_some hm
    exact hi.dirs i hlt ht k hk
  next => cases hm

def Sought (sb : Superblock) (lost : Nat → Prop) (s' : Fs) (refs : List (Nat × Nat))
    (locked : List Nat) (n : Nat) (name : List UInt8) (m : FileNode) : Option (Nat × Nat) → Prop
  | none => Run sb lost s' refs locked n ∧ m.size % 16 = 0 ∧ ∀ k, ¬ m.Names name k
  | some (ip, off) => ∃ k, off = 16 * k ∧ m.Names name k ∧ m.lookup name = some (m.entry k).inum ∧
      Run sb lost s' ((ip, (m.entry k).inum) :: refs) locked n

lemma Sought.inv {r : Option (Nat × Nat)}
    (h : Sought sb lost s' refs locked n name m r) : FsInv s' := by
  cases r with
  | none => exact h.1.inv
  | some q =>
    obtain ⟨k, -, -, -, h⟩ := h
    exact h.inv

lemma dirlookup_run (h : Run sb lost s refs locked n)
    (hdp : (dp, d) ∈ refs) (hl : dp ∈ locked) (hm : s.node d = some m) (hE : ∀ e ∈ stepPanics, E e) :
    Thread.Upholds FsInv (fsStep (dirlookup dp name)) s E fun r s' =>
      s'.node = s.node ∧ m.type = tDir ∧ Sought sb lost s' refs locked n name m r := by
  have hm' : s.node (s.itable dp).inum = some m := by rw [h.num hdp]; exact hm
  refine Thread.upholds_step h.inv
    ((dirlookup_node h.inv (h.loaded hdp hl) hm' (.inl (hE _ (by simp [stepPanics])))
      (.inl (hE _ (by simp [stepPanics]))) (hE _ (by simp [stepPanics]))).imp ?_) fun _ _ h => h.2.2.inv
  rintro r s' ⟨hi', ht, hr⟩
  cases r with
  | none =>
    obtain ⟨rfl, hsz, hno⟩ := hr
    exact ⟨rfl, ht, h, hsz, hno⟩
  | some q =>
    obtain ⟨k, hoff, hname, hfirst, hgot⟩ := hr
    have hlt := h.inv.entry_lt hm ht hname.lt
    rw [h.sb] at hlt
    obtain ⟨h', hnode⟩ := h.got hlt (h.tidy.closed d m (h.clean hdp) hm ht k hname.lt hname.used) hgot
    exact ⟨hnode, ht, k, hoff, hname, FileNode.lookup_eq_some hname hfirst, h'⟩

def follow (N : Nat → Option FileNode) : Nat → List (List UInt8) → Option Nat
  | i, [] => some i
  | i, name :: rest =>
    match N i with
    | some m => if m.type = tDir then (m.lookup name).bind fun j => follow N j rest else none
    | none => none

lemma follow_cons (hm : N i = some m) (ht : m.type = tDir)
    (name : List UInt8) (rest : List (List UInt8)) :
    follow N i (name :: rest) = (m.lookup name).bind fun j => follow N j rest := by
  rw [follow, hm]
  exact if_pos ht

def Resolved (sb : Superblock) (lost : Nat → Prop) (s' : Fs) (refs : List (Nat × Nat))
    (locked : List Nat) (n : Nat) (P : Nat → Prop) (parent : Bool) (start : Nat)
    (elems : List (List UInt8)) : Option (Nat × List UInt8) → Prop
  | none => Run sb lost s' refs locked n ∧ (parent = false → follow s'.node start elems = none)
  | some (ip, name) => ∃ i, P i ∧ Run sb lost s' ((ip, i) :: refs) locked n ∧
      (parent = false → follow s'.node start elems = some i) ∧
      (parent = true → name ∈ elems ∧ follow s'.node start elems = follow s'.node i [name] ∧
        ∃ m, s'.node i = some m ∧ m.type = tDir)

lemma namexLoop_run {P : Nat → Prop} {elems : List (List UInt8)}
    (h : Run sb lost s ((ip, i) :: refs) locked n) (hn : 1 ≤ n)
    (hl : ∀ x ∈ locked, x ∈ refs.map Prod.fst)
    (hs : Settled lost s.node refs) (hP : P i) (hclosed : Closed s.node P)
    (hno : E "ilock: no type" ∨ ∀ j, P j → s.node j ≠ none) (hE : ∀ e ∈ stepPanics, E e) :
    Thread.Upholds FsInv (namexLoop p parent ip elems) s E fun r s' =>
      s'.node = s.node ∧ Resolved sb lost s' refs locked n P parent i elems r := by
  induction elems generalizing s ip i with
  | nil =>
    unfold namexLoop
    split
    next hp =>
      refine (iput_run h hn hl hE).bind ?_
      rintro _ s1 ⟨h1, hnode1⟩
      rw [putNode_eq_self fun m hm hz => hs i m (h.clean mem_cons_self) hm hz] at hnode1
      exact Thread.upholds_pure h1.inv ⟨hnode1, h1,
        fun hp' => absurd hp (by rw [hp']; exact Bool.false_ne_true)⟩
    next hp => exact Thread.upholds_pure h.inv ⟨rfl, i, hP, h, fun _ => rfl, fun hp' => absurd hp' hp⟩
  | cons name rest ih =>
    unfold namexLoop
    have hself : (ip, i) ∈ (ip, i) :: refs := mem_cons_self
    have hdrop : ∀ x ∈ locked, x ∈ ip :: locked ∧ x ∈ refs.map Prod.fst := fun x hx =>
      ⟨mem_cons_of_mem _ hx, hl x hx⟩
    refine (ilock_run h hself (hno.imp_right fun ha => ha i hP)).bind ?_
    rintro _ s1 ⟨h1, hnode1, hne⟩
    obtain ⟨m, hm⟩ := Option.ne_none_iff_exists'.mp hne
    rw [← hnode1] at hs hclosed hno hm ⊢
    refine (typeOf_run h1 hself mem_cons_self hm).bind ?_
    rintro t s2 ⟨rfl, rfl⟩
    split
    next ht =>
      refine (iunlockput_settled h1 hn hs hdrop hE).bind ?_
      rintro _ s3 ⟨h3, hnode3⟩
      refine Thread.upholds_pure h3.inv ⟨hnode3, h3, fun _ => ?_⟩
      rw [follow, hnode3, hm]
      exact if_neg ht
    next ht =>
      have ht' : m.type = tDir := by simpa using ht
      split
      next hlast =>
        refine (iunlock_run h1 hself hE).bind ?_
        rintro _ s3 ⟨h3, hnode3⟩
        refine Thread.upholds_pure h3.inv ⟨hnode3, i, hP, h3.forget fun x hx =>
          mem_cons_of_mem _ hx, fun hp => absurd hlast.1 (by rw [hp]; exact Bool.false_ne_true),
          fun _ => ⟨mem_cons_self, by rw [hlast.2], m, ?_, ht'⟩⟩
        rw [hnode3]
        exact hm
      next =>
        refine (dirlookup_run h1 hself mem_cons_self hm hE).bind ?_
        rintro r s3 ⟨hnode3, -, hr⟩
        rw [← hnode3] at hs hclosed hno hm ⊢
        cases r with
        | none =>
          refine (iunlockput_settled hr.1 hn hs hdrop hE).bind ?_
          rintro _ s4 ⟨h4, hnode4⟩
          refine Thread.upholds_pure h4.inv ⟨hnode4, h4, fun _ => ?_⟩
          rw [hnode4, follow_cons hm ht', FileNode.lookup_eq_none hr.2.2, Option.bind_none]
        | some q =>
          obtain ⟨k, -, hname, hlook, h3⟩ := hr
          have hnext := hclosed i m hP hm ht' k hname.lt hname.used
          have hswap := h3.perm (List.Perm.swap _ _ _)
          have hs' : Settled lost s3.node ((q.1, (m.entry k).inum) :: refs) := fun j m' hc hj hz =>
            mem_cons_of_mem _ (hs j m' hc hj hz)
          refine (iunlockput_settled hswap hn hs' (fun x hx =>
            ⟨(hdrop x hx).1, mem_cons_of_mem _ (hl x hx)⟩) hE).bind ?_
          rintro _ s4 ⟨h4, hnode4⟩
          rw [← hnode4] at hs hclosed hno ⊢
          refine (ih h4 hs hnext hclosed hno).imp ?_
          rintro r s5 ⟨hnode5, hr⟩
          have hfollow : follow s5.node i (name :: rest) = follow s5.node (m.entry k).inum rest := by
            rw [hnode5, hnode4, follow_cons hm ht', hlook, Option.bind_some]
          refine ⟨hnode5, ?_⟩
          cases r with
          | none => exact ⟨hr.1, fun hpar => hfollow.trans (hr.2 hpar)⟩
          | some q =>
            obtain ⟨j, hj, h5, hpath, hp⟩ := hr
            exact ⟨j, hj, h5, fun hpar => hfollow.trans (hpath hpar), fun hpar =>
              ⟨mem_cons_of_mem _ (hp hpar).1, hfollow.trans (hp hpar).2.1, (hp hpar).2.2⟩⟩

def startOf (c : Nat) (path : List UInt8) : Nat := if path.head? = some slash then rootino else c

/-- Where a path leads, from the nodes alone. -/
def resolve (N : Nat → Option FileNode) (c : Nat) (path : List UInt8) : Option Nat :=
  follow N (startOf c path) (pathElems path.length path)

lemma namex_run {P : Nat → Prop} {cwd c : Nat} {path : List UInt8} (h : Run sb lost s refs locked n)
    (hn : 1 ≤ n) (hcwd : (cwd, c) ∈ refs) (hP : P rootino ∧ P c) (hclosed : Closed s.node P)
    (hno : E "ilock: no type" ∨ ∀ j, P j → s.node j ≠ none) (hE : ∀ e ∈ stepPanics, E e) :
    Thread.Upholds FsInv (namex p cwd path parent) s E fun r s' =>
      s'.node = s.node ∧ Resolved sb lost s' refs locked n P parent (startOf c path)
        (pathElems path.length path) r := by
  unfold namex
  refine Thread.Upholds.bind (Q := fun ip s1 => s1.node = s.node ∧
    Run sb lost s1 ((ip, startOf c path) :: refs) locked n) (Thread.upholds_step h.inv ?_ ?_) ?_
  · unfold startOf
    by_cases hp : path.head? = some slash
    · rw [if_pos hp, if_pos hp]
      refine (iget_sat (.inl (hE _ (by simp [stepPanics])))).imp fun ip s1 hg => ?_
      have hlt := h.inv.layout.root_lt
      rw [h.sb] at hlt
      obtain ⟨h1, hnode1⟩ := h.got hlt h.tidy.root hg
      exact ⟨hnode1, h1⟩
    · rw [if_neg hp, if_neg hp]
      refine idup_sat.imp ?_
      rintro ip s1 ⟨rfl, rfl⟩
      obtain ⟨h1, hnode1⟩ := h.dup hcwd
      exact ⟨hnode1, h1⟩
  · rintro ip s1 ⟨-, h1⟩
    exact h1.inv
  · rintro ip s1 ⟨hnode1, h1⟩
    have hs := h.settled
    have hi : P (startOf c path) := by
      unfold startOf
      split
      · exact hP.1
      · exact hP.2
    rw [← hnode1] at hs hclosed hno ⊢
    exact namexLoop_run h1 hn h.held hs hi hclosed hno hE

/-- A directory with `name` in its entry `k`. -/
def FileNode.linked (m : FileNode) (k inum : Nat) (name : List UInt8) : FileNode :=
  m.write (16 * k) (putDirent inum name)

/-- The result of `dirlink`. -/
def Entered (N N' : Nat → Option FileNode) (d inum : Nat) (name : List UInt8) (m : FileNode)
    (r : Int) : Prop :=
  (r = -1 ∧ N' = N) ∨ ∃ k, r = 0 ∧ m.type = tDir ∧ m.size % 16 = 0 ∧ m.FreeAt k ∧
    (∀ j, ¬ m.Names name j) ∧ N' = Function.update N d (some (m.linked k inum name))

lemma dirlink_run {inum : Nat} (h : Run sb lost s refs locked n)
    (hdp : (dp, d) ∈ refs) (hl : dp ∈ locked) (hm : s.node d = some m) (hnum : inum < sb.ninodes)
    (hc : ¬ lost inum) (hn : 1 ≤ n) (hE : ∀ e ∈ stepPanics, E e) :
    Thread.Upholds FsInv (dirlink p dp name inum) s E fun r s' =>
      Run sb lost s' refs locked n ∧ Entered s.node s'.node d inum name m r := by
  unfold dirlink
  refine (dirlookup_run h hdp hl hm hE).bind ?_
  rintro r s1 ⟨hnode1, ht, hr⟩
  cases r with
  | some q =>
    obtain ⟨k, -, -, -, h1⟩ := hr
    refine (iput_run h1 hn h.held hE).bind ?_
    rintro _ s2 ⟨h2, hnode2⟩
    rw [hnode1, putNode_eq_self fun m hm hz => h.settled _ m (h1.clean mem_cons_self) hm hz] at hnode2
    exact Thread.upholds_pure h2.inv ⟨h2, .inl ⟨rfl, hnode2⟩⟩
  | none =>
    obtain ⟨h1, hsz, hno⟩ := hr
    have hm1 : s1.node (s1.itable dp).inum = some m := by
      rw [h1.num hdp, hnode1]
      exact hm
    refine Thread.upholds_step h1.inv
      ((dirlinkEntry_node h1.inv (h1.loaded hdp hl) (by rw [h1.txn]; exact hn) hm1
      (by rw [h1.sb]; exact hnum) (.inl (hE _ (by simp [stepPanics])))).imp ?_) fun _ _ h => h.1.inv
    rintro r s2 ⟨hi2, hs2, hr⟩
    rw [h1.num hdp, hnode1] at hr
    have hw := h.tidy.closed d m (h.clean hdp) hm
    rcases hr with ⟨rfl, hnode2⟩ | ⟨k, rfl, hfree, hnode2⟩
    · refine ⟨h1.changed hi2 hs2.sameRefs hdp hl hw ?_, .inl ⟨rfl, hnode2⟩⟩
      rw [hnode2, hnode1, ← hm, update_eq_self]
    · have hlt := h.inv.layout.ninodes_le
      rw [h.sb] at hlt
      refine ⟨h1.changed hi2 hs2.sameRefs hdp hl (hw.write (putDirent_length inum name) hfree.le
        fun _ => ?_) ?_, Or.inr ⟨k, rfl, ht, hsz, hfree, hno, hnode2⟩⟩
      · rw [getDirent_putDirent (by omega)]
        exact hc
      · rw [hnode2, hnode1]

lemma updateDin_run {f : Dinode → Dinode} {g : FileNode → FileNode} {l : FsStep}
    (h : Run sb lost s refs locked n) (hip : (ip, i) ∈ refs) (hl : ip ∈ locked)
    (hm : s.node i = some m) (hn : 1 ≤ n)
    (hf : ∀ d : Dinode, d.SameFile (f d))
    (hg : ∀ (d : Dinode) disk, (f d).toNode disk = g (d.toNode disk))
    (hsame : (g m).type = m.type ∧ (g m).size = m.size ∧ (g m).data = m.data) :
    Thread.Upholds FsInv (Thread.step l (updateDin ip f)) s E fun _ s' =>
      Run sb lost s' refs locked n ∧ s'.node = Function.update s.node i (some (g m)) := by
  have hm' : s.node (s.itable ip).inum = some m := by rw [h.num hip]; exact hm
  refine Thread.upholds_step h.inv
    ((updateDin_node h.inv (h.loaded hip hl) (by rw [h.txn]; exact hn) (hf _) (hg _ _)
    hm').imp ?_) fun _ _ h => h.1.inv
  rintro _ s' ⟨hi', hs', hnode⟩
  rw [h.num hip] at hnode
  have hw := (h.tidy.closed i m (h.clean hip) hm).of_same hsame.1 hsame.2.1 hsame.2.2
  exact ⟨h.changed hi' hs'.sameRefs hip hl hw hnode, hnode⟩

def Born (sb : Superblock) (lost : Nat → Prop) (s s' : Fs) (refs : List (Nat × Nat))
    (locked : List Nat) (n type p : Nat) : Option Nat → Prop
  | none => s' = s
  | some ip =>
    ∃ i, FsInv s' ∧ ip < ninode ∧ 0 < (s'.itable ip).ref ∧
      (s'.dinode (s'.itable ip).inum).type ≠ 0 ∧
      s.node i = none ∧ i ≠ 0 ∧ Run sb lost (s'.locked p ip) ((ip, i) :: refs) (ip :: locked) n ∧
      (s'.locked p ip).node = Function.update s.node i (some (FileNode.fresh type))

lemma Run.born (h : Run sb lost s refs locked n) (ht : type % 2 ^ 16 ≠ 0) (hi' : FsInv s')
    (ha : Allocated type s s' ip i) : Born sb lost s s' refs locked n type p (some ip) := by
  obtain ⟨s1, hput, hgot⟩ := ha.put
  have hfree : s.node i = none := by
    rw [Fs.node_of_lt ha.lt, nodeOf_eq_none.mpr ha.free]
  have hsb : s'.sb = s1.sb := by rw [hgot.eq]; rfl
  have hdisk : s'.disk = s1.disk := by rw [hgot.eq]; rfl
  have hnode : (s'.locked p ip).node = Function.update s.node i (some (FileNode.fresh type)) := by
    rw [← nodeOf_fresh type ht, ← hput.node ha.lt h.inv.toDiskInv]
    exact Fs.node_congr hsb hdisk
  have hself : s'.itable ip = { s.itable ip with
      inum := i
      ref := (s.itable ip).ref + 1
      valid := (s.itable ip).valid && decide (0 < (s.itable ip).ref) } := by
    rw [hgot.eq, hput.itable]
    exact update_self _ _ _
  have hother : ∀ x, x ≠ ip → s'.itable x = s.itable x := fun x hx => by
    rw [hgot.eq, ← hput.itable]
    exact update_of_ne hx _ _
  have hlocked : ∀ x, x ≠ ip → (s'.locked p ip).itable x = s.itable x := fun x hx =>
    (update_of_ne hx _ _).trans (hother x hx)
  have hip : (s'.locked p ip).itable ip = { s'.itable ip with
      lock := some p, valid := true, din := s'.dinode (s'.itable ip).inum } := update_self _ _ _
  have htype : (s'.dinode (s'.itable ip).inum).type ≠ 0 := by
    rw [hself, Fs.dinode, hsb, hdisk]
    change (s1.dinode i).type ≠ 0
    rw [hput.self]
    exact ht
  have hhit := hgot.hit
  have hmiss := hgot.miss
  rw [hput.itable] at hhit hmiss
  refine ⟨i, hi', hgot.lt, by rw [hself]; exact Nat.succ_pos _, htype, hfree, Nat.ne_of_gt ha.pos,
    ⟨hi'.locked hgot.lt htype, hsb.trans (hput.sb.trans h.sb), ?_, fun {x j} hr => ?_,
      fun {x j} hr => ?_, fun x hx => ?_, fun x hx => ?_, fun x hx => ?_, fun {x j} hr => ?_, ?_,
      fun j m hc hj hz => ?_,
      fun x hx hr hv m hm => ?_⟩, hnode⟩
  · have hout : s'.outstanding = s1.outstanding := by rw [hgot.eq]; rfl
    exact hout.trans (hput.outstanding.trans h.txn)
  · rcases mem_cons.mp hr with he | hr
    · cases he
      exact hgot.lt
    · exact h.lt hr
  · rcases mem_cons.mp hr with he | hm
    · cases he
      rw [hip, hself]
    · by_cases hx : x = ip
      · subst hx
        rw [hip, hself]
        exact (hhit (h.ref_pos hm)).symm.trans (h.num hm)
      · rw [hlocked x hx]
        exact h.num hm
  · rw [map_cons]
    by_cases hxi : x = ip
    · subst hxi
      rw [hip, hself, count_cons_self, ← h.exact x hx]
    · rw [hlocked x hxi, count_cons_of_ne (Ne.symm hxi)]
      exact h.exact x hx
  · rcases mem_cons.mp hx with rfl | hx
    · exact mem_cons_self
    · exact mem_cons_of_mem _ (h.held x hx)
  · by_cases hxi : x = ip
    · rw [hxi, hip]
    · rw [hlocked x hxi]
      exact h.valid x ((mem_cons.mp hx).resolve_left hxi)
  · rcases mem_cons.mp hr with he | hr
    · cases he
      exact h.tidy.free i hfree
    · exact h.clean hr
  · rw [hnode]
    exact h.tidy.update (FileNode.within_of_empty rfl)
  · by_cases hji : j = i
    · rw [hji]
      exact mem_cons_self
    · rw [hnode, update_of_ne hji] at hj
      exact mem_cons_of_mem _ (h.settled j m hc hj hz)
  · by_cases hxi : x = ip
    · rw [hxi, hip] at hv
      cases hv
    · rw [hlocked x hxi] at hr hv hm
      -- another entry for inode `i` would have been found by `iget`
      have hne : (s.itable x).inum ≠ i := by
        intro he
        by_cases hr0 : 0 < (s.itable ip).ref
        · exact hxi (h.inv.unique x hx ip hgot.lt hr hr0 (he.trans (hhit hr0).symm))
        · exact hmiss (by omega) x hx hr he
      rw [hnode, update_of_ne hne] at hm
      exact h.unread x hx hr hv m hm

/-- A free inode is taken, if there is one. -/
lemma ialloc_run (h : Run sb lost s refs locked n) (hn : 1 ≤ n) (ht : type % 2 ^ 16 ≠ 0)
    (hE : ∀ e ∈ stepPanics, E e) :
    Thread.Upholds FsInv (fsStep (ialloc type)) s E fun r s' =>
    Born sb lost s s' refs locked n type p r := by
  refine Thread.upholds_step h.inv ((ialloc_sat h.inv (by rw [h.txn]; exact hn)
    (.inl (hE _ (by simp [stepPanics])))).imp ?_) ?_
  · rintro r s' (⟨rfl, rfl, -⟩ | ⟨ip, i, rfl, hi', ha⟩)
    · rfl
    · exact h.born ht hi' ha
  · intro r s' hr
    cases r with
    | none =>
      rw [show s' = s from hr]
      exact h.inv
    | some ip =>
      obtain ⟨i, hi, -⟩ := hr
      exact hi

end

end Xv6
