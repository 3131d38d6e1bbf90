import Xv6.TreeSteps
import Xv6.SysSafety

/-! The directory tree along runs of system calls. Each call is made with fewer than 32767
links to any inode and while no process is in a directory that has been unlinked. -/

namespace Xv6

structure Sys.Calm (s : Sys) : Prop where
  links : ∀ i < s.fs.sb.ninodes, ∀ m ∈ s.fs.node i, m.nlink < 32767
  cwds : ∀ p < nproc, ∀ ip ∈ (s.proc p).cwd, ∀ m ∈ s.fs.node (s.fs.itable ip).inum, m.nlink ≠ 0

instance (s : Sys) : Decidable s.Calm :=
  decidable_of_iff (_ ∧ _) ⟨fun h => ⟨h.1, h.2⟩, fun h => ⟨h.links, h.cwds⟩⟩

/-- An image whose directories are a tree. -/
structure TreeImage (sb : Superblock) (disk : Disk) : Prop extends WellFormed sb disk where
  tree : DirTree sb.ninodes (mount sb disk).node

/-- The inodes that path lookup can come to from the root or a current directory. -/
inductive Sys.Looks (s : Sys) : Nat → Prop
  | root : Looks s rootino
  | cwd {p ip : Nat} (hp : p < nproc) (hc : (s.proc p).cwd = some ip) : Looks s (s.fs.itable ip).inum
  | entry {d k : Nat} {m : FileNode} (h : Looks s d) (hm : s.fs.node d = some m) (ht : m.type = tDir)
      (hk : 16 * k + 16 ≤ m.size) (hi : (m.entry k).inum ≠ 0) : Looks s (m.entry k).inum

section

variable {sb : Superblock} {disk : Disk} {s s' : Sys} {hist : List Unit} {p : Nat}
  {lost : Nat → Prop} {E : Panics}

lemma TreeImage.image (h : TreeImage sb disk) : Image sb disk where
  toWellFormed := h.toWellFormed
  root := by
    obtain ⟨m, hm, -⟩ := h.tree.root
    rw [hm]
    exact Option.some_ne_none m
  linked := by
    have hlinked : ∀ i, Reached (mount sb disk).node i → HasLinks (mount sb disk).node i := by
      intro i hi
      induction hi with
      | root => exact h.tree.root_linked
      | entry _ hm ht hk hi ih => exact h.tree.closed _ _ ih hm ht _ hk hi
    intro i m hi hm
    obtain ⟨m', hm', hz⟩ := hlinked i hi
    rw [hm] at hm'
    cases hm'
    exact hz

lemma Sys.Calm.low (h : s.Calm) (hB : ∀ i, s.fs.node i ≠ none → i < s.fs.sb.ninodes) :
    ∀ i m, s.fs.node i = some m → m.nlink < 32767 :=
  fun i m hm => h.links i (hB i (by rw [hm]; exact Option.some_ne_none m)) m hm

lemma Fs.node_lt (fs : Fs) {i : Nat} (h : fs.node i ≠ none) : i < fs.sb.ninodes := by
  by_contra hlt
  exact h (Fs.node_of_ge hlt)

lemma Sys.Calm.cwd_linked (h : s.Calm) (hi : SysInv sb lost s) {ip : Nat} (hp : p < nproc)
    (hc : (s.proc p).cwd = some ip) : HasLinks s.fs.node (s.fs.itable ip).inum := by
  obtain ⟨m, hm⟩ :=
    Option.ne_none_iff_exists'.mp (hi.alive (Sys.mem_refs.mpr ⟨Sys.cwd_slot hp hc, rfl⟩))
  exact ⟨m, hm, h.cwds p hp ip hc m hm⟩

lemma DirTree.paths {B : Nat} (h : DirTree B s.fs.node) (hi : SysInv sb lost s) (hc : s.Calm)
    (hE : ∀ e ∈ sysPanics, E e) : Paths E (HasLinks s.fs.node) s where
  root := h.root_linked
  cwd := fun _ hp _ hcwd => hc.cwd_linked hi hp hcwd
  closed := h.closed
  safe := Or.inr fun _ hj => hj.ne_none
  panics := hE

lemma DirTree.call {c : Call} {r : Int} (h : DirTree sb.ninodes s.fs.node)
    (hi : SysInv sb lost s) (hc : s.Calm) (hp : s.CanCall p)
    (hr : (c.prog p).run s = some (.ok (r, s'))) : DirTree sb.ninodes s'.fs.node := by
  have hP := h.paths (E := .any) hi hc fun _ _ => trivial
  have hcall := ((c.sat_paths hi hP hp).of_run hr).1
  have hsb := hi.run.sb
  have hsb' := hcall.inv.run.sb
  have hle := hi.run.inv.layout.ninodes_le
  rw [hsb] at hle
  refine h.evolves hle (hc.low fun i => s.fs.node_lt) hcall.evolves fun i hn => ?_
  rw [← hsb']
  exact s'.fs.node_lt hn

lemma sysMachine_tree (hw : TreeImage sb disk)
    (h : (sysMachine sb disk).Reach (fun s _ => s.Calm) s hist) : DirTree sb.ninodes s.fs.node := by
  refine (h.invariant (I := fun s _ => SysInv sb (Stray sb disk) s ∧ DirTree sb.ninodes s.fs.node)
    (fun s0 h0 => ?_) fun hreach hi hok hs => ?_).2
  · obtain ⟨h1, h2⟩ :=
      (userinit_sat (E := .any) hw.image.boot hw.image.root fun _ _ => trivial).of_run h0
    exact ⟨h1, h2 ▸ hw.tree⟩
  · obtain ⟨hc, r, hr⟩ := sysMachine_step hs
    exact ⟨((Call.sat_counts _ hi.1 hc).of_run hr).1.inv, hi.2.call hi.1 hok hc hr⟩

/-- Link counts are exact and the directories form a tree, and `isdirempty` finds just the
directories without entries after "..". -/
theorem tree_and_links_exact (hw : TreeImage sb disk)
    (h : (sysMachine sb disk).Reach (fun s _ => s.Calm) s hist) : DirTree sb.ninodes s.fs.node ∧
    ∀ (fs : Fs) (dp : Nat) (m : FileNode), FsInv fs → Loaded dp fs → fs.node = s.fs.node →
      fs.node (fs.itable dp).inum = some m → m.Live →
      Kern.Sat (isdirempty dp) fs (fun _ => False) fun r fs' => fs' = fs ∧
      (r = true ↔ ∀ k, 2 ≤ k → ¬ m.Used k) := by
  have ht := sysMachine_tree hw h
  refine ⟨ht, fun fs dp m hi hl hN hm hlive => ?_⟩
  have hdir := ht.dirs _ m (hN ▸ hm) hlive
  refine (isdirempty_node hi hl hm (.inr hdir.sized)).imp fun r fs' hr => ⟨hr.1, hr.2.trans ?_⟩
  have hsized := hdir.sized
  refine forall_congr' fun k => forall_congr' fun hk =>
    ⟨fun hb hu => hu.2 (hb (by have := hu.1; omega)).1, fun hb hlt => ?_⟩
  have hle : 16 * k + 16 ≤ m.size := by omega
  exact ⟨by_contra fun hne => hb ⟨hle, hne⟩, hle⟩

lemma rootImage_alone {i : Nat} (h : i ≠ rootino) : (mount mkfsSb rootImage).node i = none := by
  by_cases hlt : i < mkfsSb.ninodes
  · rw [Fs.node_of_lt hlt, nodeOf_eq_none]
    exact rootImage_free hlt h
  · exact Fs.node_of_ge hlt

lemma rootImage_tree : TreeImage mkfsSb rootImage where
  toWellFormed := rootImage_wellFormed
  tree := by
    have htest : ((mount mkfsSb rootImage).node rootino).any (fun m : FileNode =>
        decide (m.type = tDir ∧ m.nlink = 1 ∧ m.size = 1024) &&
        decide ((m.entry 0).inum = rootino ∧ m.key 0 = strncpy dot dirsiz) &&
        decide ((m.entry 1).inum = rootino ∧ m.key 1 = strncpy dotdot dirsiz) &&
        (List.range 62).all fun j => (m.entry (j + 2)).inum == 0) = true := by
      decide +kernel
    have hnames : names mkfsSb.ninodes 1 (mount mkfsSb rootImage).node = [rootino] := by decide +kernel
    have hnames2 : names mkfsSb.ninodes 2 (mount mkfsSb rootImage).node = [] := by decide +kernel
    obtain ⟨m, hm, ht⟩ := (Option.any_eq_true _ _).mp htest
    simp only [Bool.and_eq_true, decide_eq_true_eq, List.all_eq_true, beq_iff_eq] at ht
    obtain ⟨⟨⟨⟨htype, hlink, hsize⟩, he0, hk0⟩, he1, hk1⟩, hrest⟩ := ht
    have hlive : m.Live := ⟨htype, by rw [hlink]; decide⟩
    have honly : ∀ i m', (mount mkfsSb rootImage).node i = some m' → i = rootino ∧ m' = m := by
      intro i m' hm'
      by_cases hi : i = rootino
      · rw [hi, hm] at hm'
        cases hm'
        exact ⟨hi, rfl⟩
      · rw [rootImage_alone hi] at hm'
        cases hm'
    have hused : ∀ k, m.Used k → k = 0 ∨ k = 1 := by
      rintro k ⟨hk, hne⟩
      by_contra hk01
      refine hne ?_
      rw [show k = k - 2 + 2 by omega]
      exact hrest (k - 2) (List.mem_range.mpr (by omega))
    have hne : strncpy dot dirsiz ≠ strncpy dotdot dirsiz := by decide
    refine ⟨fun i hi => (mount mkfsSb rootImage).node_lt hi, rootImage_alone (by decide),
      fun i m' hm' => ?_, fun i hi => ?_, ⟨m, hm, hlive, he1⟩,
      by rw [hnames2]; rfl, fun d m' hm' _ => ?_, fun d m' hm' _ hd => absurd (honly d m' hm').1 hd,
      fun d m' k me hm' _ hk hu => ?_, fun d m' hm' _ => ?_⟩
    · obtain ⟨rfl, rfl⟩ := honly i m' hm'
      rw [hnames, hlink]
      rfl
    · rw [hnames]
      refine List.count_eq_zero.mpr fun hmem => ?_
      rw [List.mem_singleton.mp hmem, hm] at hi
      cases hi
    · obtain ⟨rfl, rfl⟩ := honly d m' hm'
      refine ⟨by rw [hsize], by rw [hsize]; decide, ⟨he0, hk0⟩, ⟨by rw [he1]; decide, hk1⟩,
        fun j k hj hk he => ?_⟩
      rcases hused j hj with rfl | rfl <;> rcases hused k hk with rfl | rfl
      · rfl
      · exact absurd (hk0.symm.trans (he.trans hk1)) hne
      · exact absurd (hk0.symm.trans (he.symm.trans hk1)) hne
      · rfl
    · obtain ⟨rfl, rfl⟩ := honly d m' hm'
      have := hused k hu
      omega
    · rw [(honly d m' hm').1]
      exact .root

theorem tree_and_links_exact_mkdir : TreeImage mkfsSb rootImage ∧ ∃ s hist,
    (sysMachine mkfsSb rootImage).Reach (fun s _ => s.Calm) s hist ∧
    resolve s.fs.node rootino [slash, 97] = some 2 ∧
    DirTree mkfsSb.ninodes s.fs.node := by
  have htest :
    userinit.test (bootSys mkfsSb rootImage) (fun _ s => decide s.Calm && decide (s.CanCall 0) &&
      ((Call.mkdir (some [slash, 97])).prog 0).test s fun _ s' =>
        decide (resolve s'.fs.node rootino [slash, 97] = some 2)) = true := by
    decide +kernel
  obtain ⟨_, s, h0, ht⟩ := Thread.returns_of_test htest
  simp only [Bool.and_eq_true, decide_eq_true_eq] at ht
  obtain ⟨⟨hcalm, hcan⟩, hrun⟩ := ht
  obtain ⟨r, s', hrun, hpath⟩ := Thread.returns_of_test hrun
  have hreach : (sysMachine mkfsSb rootImage).Reach (fun s _ => s.Calm) s' _ :=
    .step (.init h0) hcalm (sysMachine_run hcan hrun)
  exact ⟨rootImage_tree, s', _, hreach, of_decide_eq_true hpath,
    (tree_and_links_exact rootImage_tree hreach).1⟩

/-- What can be looked up is allocated, and no call finds a free inode. -/
theorem lookup_reaches_allocated (hw : TreeImage sb disk)
    (h : (sysMachine sb disk).Reach (fun s _ => s.Calm) s hist)
    (hc : s.Calm) : (∀ i, s.Looks i → s.fs.node i ≠ none) ∧
      ∀ (c : Call) (p : Nat) (e : String), s.CanCall p → (c.prog p).run s = some (.error e) →
      e ≠ "ilock: no type" := by
  have ht := sysMachine_tree hw h
  have hi := sysMachine_inv hw.image h
  have hP := ht.paths (E := ⟨fun e => e ≠ "ilock: no type", by decide⟩) hi hc (by decide)
  have hlinked : ∀ i, s.Looks i → HasLinks s.fs.node i := by
    intro i hlook
    induction hlook with
    | root => exact hP.root
    | cwd hp hcwd => exact hP.cwd _ hp _ hcwd
    | entry _ hm htype hk hne ih => exact hP.closed _ _ ih hm htype _ hk hne
  exact ⟨fun i hlook => (hlinked i hlook).ne_none, fun c p e hp hr =>
    (c.sat_paths hi hP hp).of_panic hr⟩

theorem lookup_reaches_allocated_boot : TreeImage mkfsSb rootImage ∧ ∃ s hist,
    (sysMachine mkfsSb rootImage).Reach (fun s _ => s.Calm) s hist ∧ s.Calm ∧ s.CanCall 0 ∧
    ∀ i, s.Looks i → s.fs.node i ≠ none := by
  have htest : userinit.test (bootSys mkfsSb rootImage)
    (fun _ s => decide s.Calm && decide (s.CanCall 0)) = true := by
    decide +kernel
  obtain ⟨_, s, h0, ht⟩ := Thread.returns_of_test htest
  simp only [Bool.and_eq_true, decide_eq_true_eq] at ht
  exact ⟨rootImage_tree, s, [], .init h0, ht.1, ht.2,
    (lookup_reaches_allocated rootImage_tree (.init h0) ht.1).1⟩

/-- A process stays in `/a/b` while `/a/b` and then `/a` are unlinked, and looks up ".."
once `/a` is freed. -/
theorem lookup_from_unlinked_cwd_panics :
    ∃ s hist, (sysMachine mkfsSb rootImage).Reach (fun _ _ => True) s hist ∧
    s.CanCall 0 ∧ s.Looks 2 ∧ s.fs.node 2 = none ∧
    ((Call.open (some dotdot) oRdonly).prog 0).run s = some (.error "ilock: no type") := by
  have htest : (callsFromBoot [(0, .mkdir (some [slash, 97])), (0, .open (some [slash, 97]) oRdonly),
      (0, .chdir (some [slash, 97])), (0, .mkdir (some [98])), (0, .chdir (some [98])),
      (0, .unlink (some (dotdot ++ [slash, 98]))), (0, .unlink (some [slash, 97])),
      (0, .close 0)]).any (fun s =>
        decide (s.CanCall 0) && (s.fs.node 2).isNone &&
        decide ((s.proc 0).cwd.map (fun ip => (s.fs.itable ip).inum) = some 3) &&
        (s.fs.node 3).any (fun m => decide (m.type = tDir ∧ m.size = 32 ∧ (m.entry 1).inum = 2)) &&
        ((Call.open (some dotdot) oRdonly).prog 0).panics s "ilock: no type") = true := by
    decide +kernel
  obtain ⟨s, hist, hr, hs⟩ := reach_of_test htest
  simp only [Bool.and_eq_true, decide_eq_true_eq] at hs
  obtain ⟨⟨⟨⟨hcan, hfree⟩, hcwd⟩, hdir⟩, hrun⟩ := hs
  obtain ⟨ip, hc, hip⟩ := Option.map_eq_some_iff.mp hcwd
  obtain ⟨m, hm, ht⟩ := (Option.any_eq_true _ _).mp hdir
  obtain ⟨htype, hsize, hup⟩ := of_decide_eq_true ht
  have hlook : s.Looks 3 := hip ▸ Sys.Looks.cwd (by decide : 0 < nproc) hc
  refine ⟨s, hist, hr, hcan, ?_, Option.isNone_iff_eq_none.mp hfree, Thread.run_of_panics hrun⟩
  rw [← hup]
  exact .entry hlook hm htype (by rw [hsize]) (by rw [hup]; decide)

end

end Xv6
