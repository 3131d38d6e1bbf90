import Xv6.FsRun

/-! What `create`, `link` and `unlink` do to the files, on every path. -/

namespace Xv6

open Function (update_self update_of_ne update_idem update_eq_self update)

open Kern List

/-- The inodes that are referred to are allocated. -/
def Alive (N : Nat → Option FileNode) (refs : List (Nat × Nat)) : Prop :=
  ∀ {ip i}, (ip, i) ∈ refs → N i ≠ none

/-- The node of a new inode. -/
def FileNode.made (type major minor : Nat) : FileNode :=
  ⟨type % 2 ^ 16, major % 2 ^ 16, minor % 2 ^ 16, 1, 0, fun _ => 0⟩

/-- A new directory, with its first two entries. -/
def FileNode.withDots (m : FileNode) (i d : Nat) : FileNode := (m.linked 0 i dot).linked 1 d dotdot

section

variable {sb : Superblock} {lost : Nat → Prop} {s s' : Fs} {refs : List (Nat × Nat)}
  {locked : List Nat} {p ip i dp d n : Nat} {E : Panics} {m md : FileNode} {name : List UInt8}

lemma FileNode.linked_size (k inum : Nat) : (m.linked k inum name).size = max m.size (16 * k + 16) := by
  simp [linked, write, putDirent_length]

lemma FileNode.linked_entry {inum : Nat} (h : inum < 2 ^ 16) (k j : Nat) :
    (m.linked k inum name).entry j = if j = k then ⟨inum, strncpy name dirsiz⟩ else m.entry j := by
  rw [linked, entry_write (putDirent_length inum name), getDirent_putDirent h]

lemma FileNode.same_setNlink (m : FileNode) (v : Nat) :
    (m.setNlink v).type = m.type ∧ (m.setNlink v).size = m.size ∧ (m.setNlink v).data = m.data :=
    ⟨rfl, rfl, rfl⟩

lemma createName_run (h : Run sb lost s refs locked n) (hip : (ip, i) ∈ refs) (hdp : (dp, d) ∈ refs)
    (hl : dp ∈ locked) (hm : s.node d = some md) (hn : 1 ≤ n) (hE : ∀ e ∈ stepPanics, E e) :
    Thread.Upholds FsInv (createName p dp ip name) s E fun ok s' => Run sb lost s' refs locked n ∧
      ∃ r, Entered s.node s'.node d i name md r ∧ ok = decide (r = 0) := by
  unfold createName
  refine (inumOf_run h hip).bind ?_
  rintro x s1 ⟨hx, rfl⟩
  subst x
  refine (dirlink_run h hdp hl hm (h.inum_lt hip) (h.clean hip) hn hE).bind ?_
  rintro r s2 ⟨h₂, hr⟩
  refine Thread.upholds_pure h₂.inv ⟨h₂, r, hr, ?_⟩
  rcases hr with ⟨rfl, -⟩ | ⟨k, rfl, -⟩
  · decide
  · decide

lemma createDots_run (h : Run sb lost s refs locked n) (hip : (ip, i) ∈ refs) (hdp : (dp, d) ∈ refs)
    (hl : ip ∈ locked) (hm : s.node i = some m) (hsz : m.size = 0) (hi0 : i ≠ 0) (hn : 1 ≤ n)
    (hE : ∀ e ∈ stepPanics, E e) :
    Thread.Upholds FsInv (createDots p dp ip) s E fun ok s' => Run sb lost s' refs locked n ∧
      ∃ m', s'.node = update s.node i (some m') ∧ (ok = true → m' = m.withDots i d) := by
  have hlt : i < 2 ^ 16 := by
    have h1 := h.inum_lt hip
    have h2 := h.inv.layout.ninodes_le
    rw [h.sb] at h2
    omega
  have hself : s.node = update s.node i (some m) := by rw [← hm, update_eq_self]
  unfold createDots
  refine (inumOf_run h hip).bind ?_
  rintro x s1 ⟨hx, rfl⟩
  subst x
  refine (dirlink_run h hip hl hm (h.inum_lt hip) (h.clean hip) hn hE).bind ?_
  rintro r s2 ⟨h₂, hr⟩
  rcases hr with ⟨rfl, hnode⟩ | ⟨k, rfl, -, -, hfree, -, hnode⟩
  · rw [if_pos (by decide)]
    refine Thread.upholds_pure h₂.inv ⟨h₂, m, ?_, fun hf => by cases hf⟩
    rw [hnode, ← hself]
  · rw [if_neg (by decide)]
    have hk : k = 0 := by
      have := hfree.le
      omega
    subst hk
    refine (inumOf_run h₂ hdp).bind ?_
    rintro x s3 ⟨hx, rfl⟩
    subst x
    have hm2 : s3.node i = some (m.linked 0 i dot) := by rw [hnode, update_self]
    refine (dirlink_run h₂ hip hl hm2 (h₂.inum_lt hdp) (h₂.clean hdp) hn hE).bind ?_
    rintro r s4 ⟨h4, hr⟩
    refine Thread.upholds_pure h4.inv ⟨h4, ?_⟩
    rcases hr with ⟨rfl, hnode4⟩ | ⟨k, rfl, -, -, hfree4, -, hnode4⟩
    · exact ⟨m.linked 0 i dot, by rw [hnode4, hnode], fun hf => by simp at hf⟩
    · refine ⟨(m.linked 0 i dot).linked k d dotdot, by rw [hnode4, hnode, update_idem], fun _ => ?_⟩
      have hk : k = 1 := by
        have hle := hfree4.le
        have hempty := hfree4.empty
        rw [FileNode.linked_size, hsz] at hle hempty
        rcases Nat.lt_or_ge k 1 with hlt' | hge
        · have hk0 : k = 0 := by omega
          subst hk0
          have he := hempty (by omega)
          rw [FileNode.linked_entry hlt, if_pos rfl] at he
          exact absurd he hi0
        · omega
      rw [hk]
      rfl

/-- The files after all entries of a new file `i` in directory `d` were written, or some. -/
structure Wired (N N' : Nat → Option FileNode) (d i type : Nat) (name : List UInt8)
    (m md : FileNode) (ok : Bool) : Prop where
  failed : ok = false → ∃ m', N' = update N i (some m')
  done : ok = true → md.type = tDir ∧ md.size % 16 = 0 ∧ (∀ j, ¬ md.Names name j) ∧
    ∃ k, md.FreeAt k ∧ N' = update (update N i (some (if type = tDir then m.withDots i d else m))) d
      (some (md.linked k i name))

variable {type j : Nat} {N : Nat → Option FileNode}

lemma createLinks_run (h : Run sb lost s refs locked n) (hip : (ip, i) ∈ refs)
    (hdp : (dp, d) ∈ refs) (hl : ip ∈ locked) (hld : dp ∈ locked) (hm : s.node i = some m)
    (hmd : s.node d = some md) (hne : d ≠ i)
    (hsz : m.size = 0) (hi0 : i ≠ 0) (hn : 1 ≤ n) (hE : ∀ e ∈ stepPanics, E e) :
    Thread.Upholds FsInv (createLinks p dp ip name type) s E fun ok s' =>
    Run sb lost s' refs locked n ∧ Wired s.node s'.node d i type name m md ok := by
  have hself : ∀ {N : Nat → Option FileNode} {m' : FileNode}, N i = some m' →
    update N i (some m') = N :=
    fun hN => by rw [← hN, update_eq_self]
  unfold createLinks
  split
  next ht =>
    refine (createDots_run h hip hdp hl hm hsz hi0 hn hE).bind ?_
    rintro dots s1 ⟨h₁, m', hnode1, hdots⟩
    split
    next hok =>
      have hmd1 : s1.node d = some md := by rw [hnode1, update_of_ne hne, hmd]
      refine (createName_run h₁ hip hdp hld hmd1 hn hE).imp ?_
      rintro ok s2 ⟨h₂, r, hr, rfl⟩
      refine ⟨h₂, ⟨fun hok' => ?_, fun hok' => ?_⟩⟩
      · rcases hr with ⟨-, hnode2⟩ | ⟨k, rfl, -⟩
        · exact ⟨m', by rw [hnode2, hnode1]⟩
        · simp at hok'
      · rcases hr with ⟨rfl, -⟩ | ⟨k, -, htd, hsz', hfree, hno, hnode2⟩
        · simp at hok'
        · refine ⟨htd, hsz', hno, k, hfree, ?_⟩
          rw [hnode2, hnode1, if_pos ht, hdots hok]
    next hok => exact Thread.upholds_pure h₁.inv ⟨h₁, fun _ => ⟨m', hnode1⟩, fun hf => by cases hf⟩
  next ht =>
    refine (createName_run h hip hdp hld hmd hn hE).imp ?_
    rintro ok s2 ⟨h₂, r, hr, rfl⟩
    refine ⟨h₂, ⟨fun hok' => ?_, fun hok' => ?_⟩⟩
    · rcases hr with ⟨-, hnode2⟩ | ⟨k, rfl, -⟩
      · exact ⟨m, by rw [hnode2, hself hm]⟩
      · simp at hok'
    · rcases hr with ⟨rfl, -⟩ | ⟨k, -, htd, hsz', hfree, hno, hnode2⟩
      · simp at hok'
      · refine ⟨htd, hsz', hno, k, hfree, ?_⟩
        rw [hnode2, if_neg ht, hself hm]

lemma Settled.update_some (h : Settled lost N refs) (hi : i ∈ refs.map Prod.snd) (m : FileNode) :
    Settled lost (update N i (some m)) refs := by
  intro j m' hc hj hz
  by_cases hji : j = i
  · rw [hji]
    exact hi
  · rw [update_of_ne hji] at hj
    exact h j m' hc hj hz

lemma Settled.cons (h : Settled lost N refs) (r : Nat × Nat) : Settled lost N (r :: refs) :=
  fun j m hc hj hz => mem_cons_of_mem _ (h j m hc hj hz)

lemma putNode_of_ne (h : j ≠ i) : putNode N refs i j = N j := by
  unfold putNode
  cases N i with
  | none => rfl
  | some m =>
    by_cases hc : m.nlink = 0 ∧ i ∉ refs.map Prod.snd
    · simp only [if_pos hc, update_of_ne h]
    · simp only [if_neg hc]

/-- The entries in the parent `d`, and the parent's link count when a directory is new. -/
def FileNode.parentOf (md : FileNode) (k i type : Nat) (name : List UInt8) : FileNode :=
  if type = tDir then (md.linked k i name).incNlink else md.linked k i name

def withFile (N : Nat → Option FileNode) (d i k type : Nat) (name : List UInt8) (m md : FileNode) :
    Nat → Option FileNode :=
  update (update N i (some (if type = tDir then m.withDots i d else m))) d
    (some (md.parentOf k i type name))

/-- The new inode has its entries, or is gone again. -/
lemma createEntries_run
    (h : Run sb lost s ((ip, i) :: (dp, d) :: refs) (ip :: dp :: locked) n) (hn : 1 ≤ n)
    (hl : ∀ x ∈ locked, x ∈ refs.map Prod.fst) (hs : Settled lost N refs)
    (hN : s.node = update N i (some m))
    (hnew : N i = none) (hi : i ∉ refs.map Prod.snd) (hmd : N d = some md)
    (hsz : m.size = 0) (hi0 : i ≠ 0)
    (hE : ∀ e ∈ stepPanics, E e) : Thread.Upholds FsInv
    (createEntries p dp ip name type) s E fun r s' =>
      (r = none ∧ Run sb lost s' refs locked n ∧ s'.node = N) ∨
      (r = some ip ∧ Run sb lost s' ((ip, i) :: refs) (ip :: locked) n ∧ md.type = tDir ∧
        md.size % 16 = 0 ∧ (∀ j, ¬ md.Names name j) ∧ ∃ k, md.FreeAt k ∧
        s'.node = putNode (withFile N d i k type name m md) ((ip, i) :: refs) d) := by
  have hne : d ≠ i := by
    rintro rfl
    rw [hnew] at hmd
    cases hmd
  have hip : (ip, i) ∈ (ip, i) :: (dp, d) :: refs := mem_cons_self
  have hdp : (dp, d) ∈ (ip, i) :: (dp, d) :: refs := mem_cons_of_mem _ mem_cons_self
  have hldp : dp ∈ ip :: dp :: locked := mem_cons_of_mem _ mem_cons_self
  have hm : s.node i = some m := by rw [hN, update_self]
  have hmd' : s.node d = some md := by rw [hN, update_of_ne hne, hmd]
  have hkeep : ∀ x ∈ ip :: locked, x ∈ ip :: dp :: locked ∧ x ∈ ((ip, i) :: refs).map Prod.fst := by
    intro x hx
    rcases mem_cons.mp hx with rfl | hx
    · exact ⟨mem_cons_self, mem_cons_self⟩
    · exact ⟨mem_cons_of_mem _ (mem_cons_of_mem _ hx), mem_cons_of_mem _ (hl x hx)⟩
  unfold createEntries
  refine (createLinks_run h hip hdp mem_cons_self hldp hm hmd' hne hsz hi0 hn hE).bind ?_
  rintro ok s1 ⟨h₁, hwired⟩
  rw [hN] at hwired
  split
  next hok =>
    obtain ⟨htd, hsz', hno, k, hfree, hnode1⟩ := hwired.done hok
    rw [update_idem] at hnode1
    split
    next ht =>
      have hmd1 : s1.node d = some (md.linked k i name) := by rw [hnode1, update_self]
      refine (updateDin_run h₁ hdp hldp hmd1 hn Dinode.sameFile_incNlink toNode_incNlink
        (FileNode.same_setNlink _ _)).bind ?_
      rintro _ s2 ⟨h₂, hnode2⟩
      refine (iunlockput_run (h₂.perm (List.Perm.swap _ _ _)) hn hkeep hE).bind ?_
      rintro _ s3 ⟨h3, hnode3⟩
      refine Thread.upholds_pure h3.inv (.inr ⟨rfl, h3, htd, hsz', hno, k, hfree, ?_⟩)
      rw [hnode3, hnode2, hnode1, update_idem, withFile, FileNode.parentOf, if_pos ht, if_pos ht]
    next ht =>
      refine (iunlockput_run (h₁.perm (List.Perm.swap _ _ _)) hn hkeep hE).bind ?_
      rintro _ s3 ⟨h3, hnode3⟩
      refine Thread.upholds_pure h3.inv (.inr ⟨rfl, h3, htd, hsz', hno, k, hfree, ?_⟩)
      rw [hnode3, hnode1, withFile, FileNode.parentOf, if_neg ht, if_neg ht]
  next hok =>
    -- the new inode loses its link and is freed with its only reference
    obtain ⟨m', hnode1⟩ := hwired.failed (by simpa using hok)
    rw [update_idem] at hnode1
    have hm1 : s1.node i = some m' := by rw [hnode1, update_self]
    refine (updateDin_run (g := fun m => m.setNlink 0) h₁ hip mem_cons_self hm1 hn
      (fun d => Dinode.sameFile_setNlink d 0) (fun d disk => toNode_setNlink d disk 0)
      ⟨rfl, rfl, rfl⟩).bind ?_
    rintro _ s2 ⟨h₂, hnode2⟩
    rw [hnode1, update_idem] at hnode2
    refine (iunlockput_run h₂ hn (L := dp :: locked) (fun x hx =>
      ⟨mem_cons_of_mem _ hx, ?_⟩) hE).bind ?_
    · rcases mem_cons.mp hx with rfl | hx
      · exact mem_cons_self
      · exact mem_cons_of_mem _ (hl x hx)
    rintro _ s3 ⟨h3, hnode3⟩
    have hi' : i ∉ ((dp, d) :: refs).map Prod.snd := fun hc =>
      (mem_cons.mp hc).elim (fun he => hne he.symm) hi
    rw [hnode2, putNode_last (update_self _ _ _) rfl hi', update_idem, ← hnew,
      update_eq_self] at hnode3
    refine (iunlockput_settled h3 hn (by rw [hnode3]; exact hs)
      (fun x hx => ⟨mem_cons_of_mem _ hx, hl x hx⟩) hE).bind ?_
    rintro _ s4 ⟨h4, hnode4⟩
    exact Thread.upholds_pure h4.inv (.inl ⟨rfl, h4, hnode4.trans hnode3⟩)

lemma createOpen_run (h : Run sb lost s ((ip, j) :: (dp, d) :: refs) (dp :: locked) n) (hn : 1 ≤ n)
    (hl : ∀ x ∈ locked, x ∈ refs.map Prod.fst) (hs : Settled lost s.node refs)
    (hno : E "ilock: no type" ∨ s.node j ≠ none) (hE : ∀ e ∈ stepPanics, E e) :
    Thread.Upholds FsInv (createOpen p dp ip type) s E fun r s' => s'.node = s.node ∧
      ((r = none ∧ Run sb lost s' refs locked n) ∨
        (r = some ip ∧ type = tFile ∧ Run sb lost s' ((ip, j) :: refs) (ip :: locked) n ∧
          ∃ m, s.node j = some m ∧ (m.type = tFile ∨ m.type = tDevice))) := by
  unfold createOpen
  refine (iunlockput_settled (h.perm (List.Perm.swap _ _ _)) hn (hs.cons _)
    (fun x hx => ⟨mem_cons_of_mem _ hx, mem_cons_of_mem _ (hl x hx)⟩) hE).bind ?_
  rintro _ s1 ⟨h₁, hnode1⟩
  rw [← hnode1] at hno hs ⊢
  refine (ilock_run h₁ mem_cons_self hno).bind ?_
  rintro _ s2 ⟨h₂, hnode2, hne⟩
  obtain ⟨m, hm⟩ := Option.ne_none_iff_exists'.mp hne
  rw [← hnode2] at hm hs ⊢
  refine (typeOf_run h₂ mem_cons_self mem_cons_self hm).bind ?_
  rintro _ s3 ⟨rfl, rfl⟩
  split
  next ht => exact Thread.upholds_pure h₂.inv ⟨rfl, .inr ⟨rfl, ht.1, h₂, m, hm, ht.2⟩⟩
  next =>
    refine (iunlockput_settled h₂ hn hs (fun x hx => ⟨mem_cons_of_mem _ hx, hl x hx⟩) hE).bind ?_
    rintro _ s4 ⟨h4, hnode4⟩
    exact Thread.upholds_pure h4.inv ⟨hnode4, .inl ⟨rfl, h4⟩⟩

/-- What `create` makes of the files when it returns an inode `i`. -/
inductive Created (N N' : Nat → Option FileNode) (refs : List (Nat × Nat))
    (P : Nat → Prop) (c : Nat) (path : List UInt8) (type major minor ip i : Nat) : Prop
  | found (m : FileNode) (hP : P i) (hpath : resolve N c path = some i) (ht : type = tFile)
      (hm : N i = some m) (htype : m.type = tFile ∨ m.type = tDevice) (hN : N' = N)
  | made (d k : Nat) (name : List UInt8) (md : FileNode) (hpath : resolve N c path = none) (hP : P d)
      (hname : name ∈ pathElems path.length path) (hmd : N d = some md) (ht : md.type = tDir)
      (hsz : md.size % 16 = 0) (hno : ∀ j, ¬ md.Names name j) (hfree : md.FreeAt k)
      (hnew : N i = none) (hi : i ≠ 0)
      (hN : N' = putNode (withFile N d i k type name (FileNode.made type major minor) md)
        ((ip, i) :: refs) d)

lemma create_run {P : Nat → Prop} {cwd c major minor : Nat} {path : List UInt8}
    (h : Run sb lost s refs locked n)
    (hn : 1 ≤ n) (hcwd : (cwd, c) ∈ refs) (hP : P rootino ∧ P c) (hclosed : Closed s.node P)
    (hno : E "ilock: no type" ∨ ∀ j, P j → s.node j ≠ none) (ha : Alive s.node refs)
    (ht : type % 2 ^ 16 ≠ 0)
    (hE : ∀ e ∈ stepPanics, E e) : Thread.Upholds FsInv (create p cwd path type major minor) s E
    fun r s' =>
      (r = none ∧ Run sb lost s' refs locked n ∧ s'.node = s.node) ∨
      ∃ ip i, r = some ip ∧ Run sb lost s' ((ip, i) :: refs) (ip :: locked) n ∧
        Created s.node s'.node refs P c path type major minor ip i := by
  unfold create nameiparent
  refine (namex_run h hn hcwd hP hclosed hno hE).bind ?_
  rintro r s1 ⟨hnode1, hr⟩
  have hs := h.settled
  rw [← hnode1] at hclosed hno hs ha ⊢
  cases r with
  | none => exact Thread.upholds_pure hr.1.inv (.inl ⟨rfl, hr.1, rfl⟩)
  | some q =>
    obtain ⟨dp, name⟩ := q
    obtain ⟨d, hPd, h₁, -, hpar⟩ := hr
    obtain ⟨hname, hfollow, md, hmd, htd⟩ := hpar rfl
    rw [follow_cons hmd htd] at hfollow
    have hpath : resolve s1.node c path = md.lookup name := hfollow.trans (Option.bind_fun_some _)
    have hself : (dp, d) ∈ (dp, d) :: refs := mem_cons_self
    have hdrop : ∀ x ∈ locked, x ∈ dp :: locked ∧ x ∈ refs.map Prod.fst := fun x hx =>
      ⟨mem_cons_of_mem _ hx, h.held x hx⟩
    refine (ilock_run h₁ hself (.inr (by rw [hmd]; exact Option.some_ne_none _))).bind ?_
    rintro _ s2 ⟨h₂, hnode2, -⟩
    rw [← hnode2] at hclosed hno hs ha hmd hpath ⊢
    refine (dirlookup_run h₂ hself mem_cons_self hmd hE).bind ?_
    rintro r s3 ⟨hnode3, -, hr⟩
    rw [← hnode3] at hclosed hno hs ha hmd hpath ⊢
    cases r with
    | some q =>
      obtain ⟨k, -, hk, hlook, h3⟩ := hr
      rw [hlook] at hpath
      have hPj := hclosed d md hPd hmd htd k hk.lt hk.used
      refine (createOpen_run h3 hn h.held hs (hno.imp_right fun ha => ha _ hPj) hE).imp ?_
      rintro r s4 ⟨hnode4, hr⟩
      rcases hr with ⟨rfl, h4⟩ | ⟨rfl, ht', h4, m, hm, htype⟩
      · exact .inl ⟨rfl, h4, hnode4⟩
      · exact .inr ⟨_, _, rfl, h4, .found m hPj hpath ht' hm htype hnode4⟩
    | none =>
      obtain ⟨h3, hsz, hnames⟩ := hr
      rw [FileNode.lookup_eq_none hnames] at hpath
      refine (ialloc_run (p := p) h3 hn ht hE).bind ?_
      intro r s4 hborn
      cases r with
      | none =>
        cases show s4 = s3 from hborn
        refine (iunlockput_settled h3 hn hs hdrop hE).bind ?_
        rintro _ s5 ⟨h5, hnode5⟩
        exact Thread.upholds_pure h5.inv (.inl ⟨rfl, h5, hnode5⟩)
      | some ip =>
        obtain ⟨i, hi4, hlt, hpos, htype, hnew, hi0, h5, hnode5⟩ := hborn
        refine Thread.Upholds.bind (Q := fun _ s' => s' = s4.locked p ip)
          (Thread.upholds_await hi4 (fun _ =>
          (ilockStep_sat hi4 hlt hpos (.inr htype)).imp fun _ _ hs' => hs'.1) ?_) ?_
        · rintro _ _ rfl
          exact h5.inv
        rintro _ _ rfl
        have hm5 : (s4.locked p ip).node i = some (FileNode.fresh type) := by rw [hnode5, update_self]
        have hfile : ∀ d : Dinode, d.SameFile (((d.setMajor major).setMinor minor).setNlink 1) :=
          fun d =>
          ((Dinode.sameFile_setMajor d major).trans (Dinode.sameFile_setMinor _ minor)).trans
            (Dinode.sameFile_setNlink _ 1)
        refine (updateDin_run h5 mem_cons_self mem_cons_self hm5 hn hfile
          (g := fun m => { m with major := major % 2 ^ 16, minor := minor % 2 ^ 16, nlink := 1 })
          (fun _ _ => rfl) ⟨rfl, rfl, rfl⟩).bind ?_
        rintro _ s6 ⟨h6, hnode6⟩
        rw [hnode5, update_idem] at hnode6
        have hfresh : i ∉ refs.map Prod.snd := by
          intro hm
          obtain ⟨⟨x, j⟩, hr, rfl⟩ := mem_map.mp hm
          exact ha hr hnew
        refine (createEntries_run h6 hn h.held hs hnode6 hnew hfresh hmd rfl hi0 hE).imp ?_
        rintro r s7 (⟨rfl, h7, hnode7⟩ | ⟨rfl, h7, -, -, -, k, hfree, hnode7⟩)
        · exact .inl ⟨rfl, h7, hnode7⟩
        · exact .inr ⟨_, _, rfl, h7,
            .made d k name md hpath hPd hname hmd htd hsz hnames hfree hnew hi0 hnode7⟩

end

section

variable {sb : Superblock} {lost : Nat → Prop} {s s' : Fs} {refs : List (Nat × Nat)}
  {locked : List Nat} {p ip i n : Nat} {E : Panics} {N : Nat → Option FileNode} {m : FileNode}

lemma Fs.nlink_lt (h : s.node i = some m) : m.nlink < 2 ^ 16 := by
  unfold Fs.node at h
  split at h
  · obtain ⟨-, rfl⟩ := nodeOf_some h
    exact (s.dinode i).nlink_lt
  · cases h

lemma FileNode.decNlink_incNlink (h : m.nlink < 2 ^ 16) : m.incNlink.decNlink = m := by
  unfold decNlink incNlink setNlink
  ext1 <;> simp only []
  omega

lemma linkBad_run (h : Run sb lost s ((ip, i) :: refs) locked (n + 1))
    (hl : ∀ x ∈ locked, x ∈ refs.map Prod.fst)
    (hs : Settled lost N refs) (hm : N i = some m) (hlt : m.nlink < 2 ^ 16)
    (hN : s.node = update N i (some m.incNlink)) (hE : ∀ e ∈ stepPanics, E e) :
    Thread.Upholds FsInv (linkBad p ip) s E fun r s' => r = -1 ∧ Run sb lost s' refs locked n ∧
    s'.node = N := by
  have hself : (ip, i) ∈ (ip, i) :: refs := mem_cons_self
  have hm0 : s.node i = some m.incNlink := by rw [hN, update_self]
  unfold linkBad
  refine (ilock_run h hself (.inr (by rw [hm0]; exact Option.some_ne_none _))).bind ?_
  rintro _ s1 ⟨h₁, hnode1, -⟩
  rw [← hnode1] at hm0
  refine (updateDin_run h₁ hself mem_cons_self hm0 (Nat.le_add_left 1 n) Dinode.sameFile_decNlink
    toNode_decNlink (FileNode.same_setNlink _ _)).bind ?_
  rintro _ s2 ⟨h₂, hnode2⟩
  rw [hnode1, hN, update_idem, FileNode.decNlink_incNlink hlt, ← hm, update_eq_self] at hnode2
  refine (iunlockput_settled h₂ (Nat.le_add_left 1 n) (by rw [hnode2]; exact hs)
    (fun x hx => ⟨mem_cons_of_mem _ hx, hl x hx⟩) hE).bind ?_
  rintro _ s3 ⟨h3, hnode3⟩
  refine (endOp_run h3).bind ?_
  rintro _ s4 ⟨h4, hnode4⟩
  exact Thread.upholds_pure h4.inv ⟨rfl, h4, by rw [hnode4, hnode3, hnode2]⟩

variable {P : Nat → Prop} {cwd c : Nat} {path : List UInt8}

lemma namei_run (h : Run sb lost s refs locked n)
    (hn : 1 ≤ n) (hcwd : (cwd, c) ∈ refs) (hP : P rootino ∧ P c) (hclosed : Closed s.node P)
    (hno : E "ilock: no type" ∨ ∀ j, P j → s.node j ≠ none) (hE : ∀ e ∈ stepPanics, E e) :
    Thread.Upholds FsInv (namei p cwd path) s E fun r s' => s'.node = s.node ∧
      ((r = none ∧ resolve s.node c path = none ∧ Run sb lost s' refs locked n) ∨
        ∃ ip i, r = some ip ∧ resolve s.node c path = some i ∧ P i ∧
        Run sb lost s' ((ip, i) :: refs) locked n) := by
  unfold namei
  refine (namex_run h hn hcwd hP hclosed hno hE).bind ?_
  rintro r s1 ⟨hnode1, hr⟩
  cases r with
  | none =>
    have hpath := hr.2 rfl
    rw [hnode1] at hpath
    exact Thread.upholds_pure hr.1.inv ⟨hnode1, .inl ⟨rfl, hpath, hr.1⟩⟩
  | some q =>
    obtain ⟨i, hPi, h₁, hpath, -⟩ := hr
    have hpath := hpath rfl
    rw [hnode1] at hpath
    exact Thread.upholds_pure h₁.inv ⟨hnode1, .inr ⟨_, i, rfl, hpath, hPi, h₁⟩⟩

/-- A new entry for the file `i`, which has one link more. -/
inductive LinkMade (N N' : Nat → Option FileNode) (refs : List (Nat × Nat)) (P : Nat → Prop)
    (elems : List (List UInt8)) : Prop
  | mk (i d k : Nat) (name : List UInt8) (m md : FileNode) (hPi : P i) (hm : N i = some m)
      (hfile : m.type ≠ tDir) (hP : P d) (hname : name ∈ elems) (hmd : N d = some md)
      (ht : md.type = tDir) (hsz : md.size % 16 = 0)
      (hno : ∀ j, ¬ md.Names name j) (hfree : md.FreeAt k)
      (hN : N' = putNode (update (update N i (some m.incNlink)) d (some (md.linked k i name))) refs i)

lemma sysLink_run {old new : List UInt8} (h : Run sb lost s refs locked n)
    (hcwd : (cwd, c) ∈ refs) (hP : P rootino ∧ P c) (hclosed : Closed s.node P)
    (hno : E "ilock: no type" ∨ ∀ j, P j → s.node j ≠ none) (hE : ∀ e ∈ stepPanics, E e) :
    Thread.Upholds FsInv (sysLink p cwd old new) s E fun r s' => Run sb lost s' refs locked n ∧
      ((r = -1 ∧ s'.node = s.node) ∨
        (r = 0 ∧ LinkMade s.node s'.node refs P (pathElems new.length new))) := by
  have hone : 1 ≤ n + 1 := Nat.le_add_left 1 n
  unfold sysLink nameiparent
  refine (beginOp_run h).bind ?_
  rintro _ s1 ⟨h₁, hnode1⟩
  have hs := h.settled
  rw [← hnode1] at hclosed hno hs ⊢
  refine (namei_run h₁ hone hcwd hP hclosed hno hE).bind ?_
  rintro r s2 ⟨hnode2, hr⟩
  rw [← hnode2] at hclosed hno hs ⊢
  rcases hr with ⟨rfl, -, h₂⟩ | ⟨ip, i, rfl, -, hPi, h₂⟩
  · refine (endOp_run h₂).bind ?_
    rintro _ s3 ⟨h3, hnode3⟩
    exact Thread.upholds_pure h3.inv ⟨h3, .inl ⟨rfl, hnode3⟩⟩
  have hself : (ip, i) ∈ (ip, i) :: refs := mem_cons_self
  refine (ilock_run h₂ hself (hno.imp_right fun ha => ha i hPi)).bind ?_
  rintro _ s3 ⟨h3, hnode3, hne⟩
  obtain ⟨m, hm⟩ := Option.ne_none_iff_exists'.mp hne
  rw [← hnode3] at hclosed hno hs hm ⊢
  refine (typeOf_run h3 hself mem_cons_self hm).bind ?_
  rintro t s4 ⟨rfl, rfl⟩
  split
  · refine (iunlockput_settled h3 hone hs (fun x hx => ⟨mem_cons_of_mem _ hx, h.held x hx⟩) hE).bind ?_
    rintro _ s5 ⟨h5, hnode5⟩
    refine (endOp_run h5).bind ?_
    rintro _ s6 ⟨h6, hnode6⟩
    exact Thread.upholds_pure h6.inv ⟨h6, .inl ⟨rfl, hnode6.trans hnode5⟩⟩
  next ht =>
    have hlt := Fs.nlink_lt hm
    refine (updateDin_run h3 hself mem_cons_self hm hone Dinode.sameFile_incNlink toNode_incNlink
      (FileNode.same_setNlink _ _)).bind ?_
    rintro _ s5 ⟨h5, hnode5⟩
    refine (iunlock_run h5 hself hE).bind ?_
    rintro _ s6 ⟨h6, hnode6⟩
    have h6 := h6.forget (L := locked) fun x hx => mem_cons_of_mem _ hx
    rw [hnode5] at hnode6
    have hclosed6 : Closed s6.node P := by
      rw [hnode6]
      exact hclosed.update (FileNode.within_of_file ht)
    have hno6 : E "ilock: no type" ∨ ∀ j, P j → s6.node j ≠ none := by
      refine hno.imp_right fun ha j hj => ?_
      rw [hnode6]
      by_cases hji : j = i
      · rw [hji, update_self]
        exact Option.some_ne_none _
      · rw [update_of_ne hji]
        exact ha j hj
    refine (namex_run h6 hone (mem_cons_of_mem _ hcwd) hP hclosed6 hno6 hE).bind ?_
    rintro r s7 ⟨hnode7, hr⟩
    rw [hnode6] at hnode7
    cases r with
    | none =>
      refine (linkBad_run hr.1 h.held hs hm hlt hnode7 hE).imp ?_
      rintro r s8 ⟨rfl, h8, hnode8⟩
      exact ⟨h8, .inl ⟨rfl, hnode8⟩⟩
    | some q =>
      obtain ⟨dp, name⟩ := q
      obtain ⟨d, hPd, h7, -, hpar⟩ := hr
      obtain ⟨hname, -, md, hmd, htd⟩ := hpar rfl
      have hdi : d ≠ i := by
        rintro rfl
        rw [hnode7, update_self] at hmd
        cases hmd
        exact ht htd
      have hdp : (dp, d) ∈ (dp, d) :: (ip, i) :: refs := mem_cons_self
      have hip : (ip, i) ∈ (dp, d) :: (ip, i) :: refs := mem_cons_of_mem _ hself
      have hdrop : ∀ x ∈ locked, x ∈ dp :: locked ∧ x ∈ ((ip, i) :: refs).map Prod.fst := fun x hx =>
        ⟨mem_cons_of_mem _ hx, mem_cons_of_mem _ (h.held x hx)⟩
      have hset7 : Settled lost s7.node ((ip, i) :: refs) := by
        rw [hnode7]
        exact (hs.cons (ip, i)).update_some (mem_map_of_mem hself) _
      refine (ilock_run h7 hdp (.inr (by rw [hmd]; exact Option.some_ne_none _))).bind ?_
      rintro _ s8 ⟨h8, hnode8, -⟩
      rw [← hnode8] at hnode7 hmd hset7
      refine (inumOf_run h8 hip).bind ?_
      rintro x s9 ⟨hx, rfl⟩
      subst x
      refine (dirlink_run h8 hdp mem_cons_self hmd (h8.inum_lt hip) (h8.clean hip) hone hE).bind ?_
      rintro r s10 ⟨h10, hr⟩
      rcases hr with ⟨rfl, hnode10⟩ | ⟨k, rfl, -, hsz, hfree, hnames, hnode10⟩
      · rw [if_pos (by decide)]
        refine (iunlockput_settled h10 hone (by rw [hnode10]; exact hset7) hdrop hE).bind ?_
        rintro _ s11 ⟨h11, hnode11⟩
        refine (linkBad_run h11 h.held hs hm hlt (by rw [hnode11, hnode10, hnode7]) hE).imp ?_
        rintro r s12 ⟨rfl, h12, hnode12⟩
        exact ⟨h12, .inl ⟨rfl, hnode12⟩⟩
      · rw [if_neg (by decide)]
        have hset10 : Settled lost s10.node ((ip, i) :: refs) := by
          intro j m' hc hj hz
          by_cases hjd : j = d
          · rw [hjd] at hc hj ⊢
            rw [hnode10, update_self] at hj
            cases hj
            exact hset7 d md hc hmd hz
          · rw [hnode10, update_of_ne hjd] at hj
            exact hset7 j m' hc hj hz
        refine (iunlockput_settled h10 hone hset10 hdrop hE).bind ?_
        rintro _ s11 ⟨h11, hnode11⟩
        refine (iput_run h11 hone h.held hE).bind ?_
        rintro _ s12 ⟨h12, hnode12⟩
        refine (endOp_run h12).bind ?_
        rintro _ s13 ⟨h13, hnode13⟩
        rw [hnode7, update_of_ne hdi] at hmd
        refine Thread.upholds_pure h13.inv ⟨h13,
          .inr ⟨rfl, .mk i d k name m md hPi hm ht hPd hname hmd htd hsz hnames hfree ?_⟩⟩
        rw [hnode13, hnode12, hnode11, hnode10, hnode7]

lemma FileNode.Within.unlinked (h : m.Within P) {k : Nat} (dir : Prop) [Decidable dir]
    (hk : 16 * k + 16 ≤ m.size) : (m.unlinked k dir).Within P := by
  have hw := h.write length_replicate (Nat.le_trans (Nat.le_add_right _ 16) hk) fun h0 =>
    absurd (congrArg Dirent.inum getDirent_zero) h0
  unfold FileNode.unlinked
  split
  · have hsame := FileNode.same_setNlink (m.write (16 * k) (List.replicate 16 0))
      ((m.write (16 * k) (List.replicate 16 0)).nlink + (2 ^ 16 - 1))
    exact hw.of_same hsame.1 hsame.2.1 hsame.2.2
  · exact hw

/-- Entry `k` of directory `d` has been taken out, and the file `i` it named has one link less. -/
inductive Unlinked (N N' : Nat → Option FileNode) (refs : List (Nat × Nat)) (P : Nat → Prop)
    (elems : List (List UInt8)) : Prop
  | mk (ip i d k : Nat) (name : List UInt8) (m md m' : FileNode) (hP : P d) (hname : name ∈ elems)
      (hdot : ¬ (namecmp name dot = 0 ∨ namecmp name dotdot = 0)) (hmd : N d = some md)
      (ht : md.type = tDir)
      (hk : md.Names name k) (hi : (md.entry k).inum = i) (hm : N i = some m) (hpos : 1 ≤ short m.nlink)
      (hempty : m.type = tDir → m.Bare)
      (hm' : putNode (update N d (some (md.unlinked k (m.type = tDir))))
        ((ip, i) :: refs) d i = some m')
      (hN : N' = putNode (update (putNode (update N d (some (md.unlinked k (m.type = tDir))))
        ((ip, i) :: refs) d) i (some m'.decNlink)) refs i)

lemma sysUnlink_run (h : Run sb lost s refs locked n)
    (hcwd : (cwd, c) ∈ refs) (hP : P rootino ∧ P c) (hclosed : Closed s.node P)
    (hno : E "ilock: no type" ∨ ∀ j, P j → s.node j ≠ none)
    (hlow : E "unlink: nlink < 1" ∨ ∀ j m, P j → s.node j = some m → 1 ≤ short m.nlink)
    (hE : ∀ e ∈ stepPanics, E e) :
    Thread.Upholds FsInv (sysUnlink p cwd path) s E fun r s' => Run sb lost s' refs locked n ∧
      ((r = -1 ∧ s'.node = s.node) ∨
        (r = 0 ∧ Unlinked s.node s'.node refs P (pathElems path.length path))) := by
  have hone : 1 ≤ n + 1 := Nat.le_add_left 1 n
  unfold sysUnlink nameiparent
  refine (beginOp_run h).bind ?_
  rintro _ s1 ⟨h₁, hnode1⟩
  have hs := h.settled
  rw [← hnode1] at hclosed hno hlow hs ⊢
  refine (namex_run h₁ hone hcwd hP hclosed hno hE).bind ?_
  rintro r s2 ⟨hnode2, hr⟩
  rw [← hnode2] at hclosed hno hlow hs ⊢
  have hfail : ∀ {s3 : Fs}, Run sb lost s3 refs locked (n + 1) → s3.node = s2.node →
      Thread.Upholds FsInv (do fsStep Fs.endOp; pure (-1)) s3 E fun r s' =>
      Run sb lost s' refs locked n ∧
        ((r = -1 ∧ s'.node = s2.node) ∨
          (r = 0 ∧ Unlinked s2.node s'.node refs P (pathElems path.length path))) := by
    intro s3 h3 hnode3
    refine (endOp_run h3).bind ?_
    rintro _ s4 ⟨h4, hnode4⟩
    exact Thread.upholds_pure h4.inv ⟨h4, .inl ⟨rfl, hnode4.trans hnode3⟩⟩
  cases r with
  | none => exact hfail hr.1 rfl
  | some q =>
    obtain ⟨dp, name⟩ := q
    obtain ⟨d, hPd, h₂, -, hpar⟩ := hr
    obtain ⟨hname, -, md, hmd, htd⟩ := hpar rfl
    have hself : (dp, d) ∈ (dp, d) :: refs := mem_cons_self
    have hdrop : ∀ x ∈ locked, x ∈ dp :: locked ∧ x ∈ refs.map Prod.fst := fun x hx =>
      ⟨mem_cons_of_mem _ hx, h.held x hx⟩
    refine (ilock_run h₂ hself (.inr (by rw [hmd]; exact Option.some_ne_none _))).bind ?_
    rintro _ s3 ⟨h3, hnode3, -⟩
    rw [← hnode3] at hclosed hno hlow hs hmd hfail ⊢
    split
    · refine (iunlockput_settled h3 hone hs hdrop hE).bind ?_
      rintro _ s4 ⟨h4, hnode4⟩
      exact hfail h4 hnode4
    next hdot =>
      refine (dirlookup_run h3 hself mem_cons_self hmd hE).bind ?_
      rintro r s4 ⟨hnode4, -, hr⟩
      rw [← hnode4] at hclosed hno hlow hs hmd hfail ⊢
      cases r with
      | none =>
        refine (iunlockput_settled hr.1 hone hs hdrop hE).bind ?_
        rintro _ s5 ⟨h5, hnode5⟩
        exact hfail h5 hnode5
      | some q =>
        obtain ⟨ip, off⟩ := q
        obtain ⟨k, rfl, hk, -, h4⟩ := hr
        generalize hi : (md.entry k).inum = i at h4
        have hPi : P i := hi ▸ hclosed d md hPd hmd htd k hk.lt hk.used
        have hip : (ip, i) ∈ (ip, i) :: (dp, d) :: refs := mem_cons_self
        have hdp : (dp, d) ∈ (ip, i) :: (dp, d) :: refs := mem_cons_of_mem _ hself
        refine (ilock_run h4 hip (hno.imp_right fun ha => ha i hPi)).bind ?_
        rintro _ s5 ⟨h5, hnode5, hne⟩
        obtain ⟨m, hm⟩ := Option.ne_none_iff_exists'.mp hne
        rw [← hnode5] at hclosed hno hlow hs hmd hm hfail ⊢
        have hm' : s5.node (s5.itable ip).inum = some m := by rw [h5.num hip]; exact hm
        have hmd' : s5.node (s5.itable dp).inum = some md := by rw [h5.num hdp]; exact hmd
        have hload := h5.loaded hip mem_cons_self
        have hload' := h5.loaded hdp (mem_cons_of_mem _ mem_cons_self)
        refine Thread.Upholds.bind (Thread.upholds_step h5.inv (unlinkCheck_node h5.inv hload hm'
          (hlow.imp_right fun hl => hl i m hPi hm) (hE _ (by simp [stepPanics]))) ?_) ?_
        · rintro _ _ ⟨rfl, -⟩
          exact h5.inv
        rintro ok s6 ⟨rfl, hpos, hempty⟩
        split
        next hok =>
          refine Thread.Upholds.bind (Thread.upholds_step h5.inv (unlinkEntry_node h5.inv hload'
            (by rw [h5.txn]; exact hone) hmd' hk.lt) fun _ _ h => h.1) ?_
          rintro _ s7 ⟨hi7, hs7, hnode7⟩
          rw [h5.num hdp, (h5.inv.node_type hload hm').1] at hnode7
          have hw := (h5.tidy.closed d md (h5.clean hdp) hmd).unlinked (m.type = tDir) hk.lt
          have h7 := h5.changed hi7 hs7 hdp (mem_cons_of_mem _ mem_cons_self) hw hnode7
          refine (iunlockput_run (L := ip :: locked) (h7.perm (List.Perm.swap _ _ _)) hone
            (fun x hx => ?_) hE).bind ?_
          · rcases mem_cons.mp hx with rfl | hx
            · exact ⟨mem_cons_self, mem_cons_self⟩
            · exact ⟨mem_cons_of_mem _ (mem_cons_of_mem _ hx), mem_cons_of_mem _ (h.held x hx)⟩
          rintro _ s8 ⟨h8, hnode8⟩
          obtain ⟨m8, hm8⟩ := h8.node_some mem_cons_self mem_cons_self
          refine (updateDin_run h8 mem_cons_self mem_cons_self hm8 hone Dinode.sameFile_decNlink
            toNode_decNlink (FileNode.same_setNlink _ _)).bind ?_
          rintro _ s9 ⟨h9, hnode9⟩
          refine (iunlockput_run h9 hone (fun x hx => ⟨mem_cons_of_mem _ hx, h.held x hx⟩) hE).bind ?_
          rintro _ s10 ⟨h10, hnode10⟩
          refine (endOp_run h10).bind ?_
          rintro _ s11 ⟨h11, hnode11⟩
          rw [hnode7] at hnode8
          refine Thread.upholds_pure h11.inv ⟨h11,
            .inr ⟨rfl, .mk ip i d k name m md m8 hPd hname hdot hmd htd hk hi hm
            hpos (hempty.mp hok) ?_ ?_⟩⟩
          · rw [← hnode8]
            exact hm8
          · rw [hnode11, hnode10, hnode9, hnode8]
        next =>
          refine (iunlockput_settled h5 hone (hs.cons _) (L := dp :: locked) (fun x hx =>
            ⟨mem_cons_of_mem _ hx, ?_⟩) hE).bind ?_
          · rcases mem_cons.mp hx with rfl | hx
            · exact mem_cons_self
            · exact mem_cons_of_mem _ (h.held x hx)
          rintro _ s7 ⟨h7, hnode7⟩
          refine (iunlockput_settled h7 hone (by rw [hnode7]; exact hs) hdrop hE).bind ?_
          rintro _ s8 ⟨h8, hnode8⟩
          exact hfail h8 (hnode8.trans hnode7)

end

end Xv6
