import Xv6.LinkImage

/-! The 16-bit link counts along runs of system calls, up to 32767 links. -/

namespace Xv6

section

variable {keep : List Nat} {W : List UInt8 → Prop} {N N' : Nat → Option FileNode}

/-- The counts are positive as a `short`. -/
def FewLinks (N : Nat → Option FileNode) : Prop := ∀ i m, N i = some m → m.nlink ≤ 32767

lemma FewLinks.update (h : FewLinks N) {i : Nat} {v : Option FileNode}
    (hv : ∀ m, v = some m → m.nlink ≤ 32767) : FewLinks (Function.update N i v) := by
  intro j m hm
  by_cases hj : j = i
  · subst hj
    rw [Function.update_self] at hm
    exact hv m hm
  · rw [Function.update_of_ne hj] at hm
    exact h j m hm

lemma FewLinks.minors (h : FewLinks N) (hm : Minors keep N N') : FewLinks N' := by
  induction hm with
  | refl => exact h
  | tail _ he ih =>
    cases he with
    | free i m hm hz hi hN => exact hN ▸ ih.update nofun
    | store i m m' hm ht htype hlink hN =>
      refine hN ▸ ih.update fun m1 hm1 => ?_
      obtain rfl := Option.some.inj hm1
      rw [hlink]
      exact ih i m hm

lemma FileNode.nlink_unlinked_le (m : FileNode) (k : Nat) (dir : Prop) [Decidable dir]
    (hpos : m.nlink ≠ 0) (hle : m.nlink ≤ 32767) : (m.unlinked k dir).nlink ≤ 32767 := by
  unfold FileNode.unlinked
  split
  · show (m.nlink + (2 ^ 16 - 1)) % 2 ^ 16 ≤ 32767
    omega
  · exact hle

lemma FewLinks.evolves {B : Nat} (h : DirTree B N) (hlow : ∀ i m, N i = some m → m.nlink < 32767)
    (he : Evolves keep (HasLinks N) W N N') : FewLinks N' := by
  have hN : FewLinks N := fun i m hm => (hlow i m hm).le
  obtain ⟨N1, rfl | h0, h1⟩ := he
  · exact hN.minors h1
  · refine FewLinks.minors ?_ h1
    cases h0 with
    | make d i k type major minor name md htype hP hname hmd ht hsz hno hfree hnew hi hN' =>
      rw [hN']
      refine (hN.update fun m hm => ?_).update fun m hm => ?_
      · obtain rfl := Option.some.inj hm
        split <;> exact (by decide : 1 ≤ 32767)
      · obtain rfl := Option.some.inj hm
        have hlt := hlow d md hmd
        unfold FileNode.parentOf
        split
        · show (md.nlink + 1) % 2 ^ 16 ≤ 32767
          omega
        · exact hlt.le
    | link i d k name m md hPi hm hfile hP hname hmd ht hsz hno hfree hN' =>
      rw [hN']
      refine (hN.update fun m1 hm1 => ?_).update fun m1 hm1 => ?_
      · obtain rfl := Option.some.inj hm1
        have hlt := hlow i m hm
        show (m.nlink + 1) % 2 ^ 16 ≤ 32767
        omega
      · obtain rfl := Option.some.inj hm1
        exact (hlow d md hmd).le
    | unlink i d k name m md m' hP hdot hmd ht hk hi hm hpos hempty hm' hN' =>
      have hl := hP.live hmd ht
      -- a directory without entries does not name itself
      have hdi : i ≠ d := by
        rintro rfl
        rw [hmd] at hm
        cases hm
        have hlt := hk.lt
        exact hk.used (hempty ht k (h.names_ge hmd hl hk hdot) (by omega)).1
      rw [Function.update_of_ne hdi, hm] at hm'
      cases hm'
      rw [hN']
      refine (hN.update fun m1 hm1 => ?_).update fun m1 hm1 => ?_
      · obtain rfl := Option.some.inj hm1
        exact md.nlink_unlinked_le k _ hl.2 (hN d md hmd)
      · obtain rfl := Option.some.inj hm1
        have hle := hN i m hm
        have hne : m.nlink ≠ 0 := by
          intro hz
          rw [hz] at hpos
          exact absurd hpos (by decide)
        show (m.nlink + (2 ^ 16 - 1)) % 2 ^ 16 ≤ 32767
        omega

end

lemma short_of_le {v : Nat} (h : v ≤ 32767) : short v = v := by
  unfold short
  rw [if_pos (by omega)]

section

variable {disk : Disk} {s : Sys} {hist : List Unit} {p : Nat}

variable {sb : Superblock}

lemma sysMachine_fewLinks (hw : TreeImage sb disk) (hlow : FewLinks (mount sb disk).node)
    (h : (sysMachine sb disk).Reach (fun s _ => s.Calm) s hist) : FewLinks s.fs.node := by
  refine (h.invariant (I := fun s _ => FewLinks s.fs.node) (fun s0 h0 => ?_) fun hreach _ hok hs => ?_)
  · obtain ⟨-, h2⟩ :=
      (userinit_sat (E := .any) hw.image.boot hw.image.root fun _ _ => trivial).of_run h0
    exact h2 ▸ hlow
  · obtain ⟨hc, r, hr⟩ := sysMachine_step hs
    have hi := sysMachine_inv hw.image hreach
    have ht := sysMachine_tree hw hreach
    have hP := ht.paths (E := .any) hi hok fun _ _ => trivial
    exact FewLinks.evolves ht (hok.low fun i => Fs.node_lt _)
      ((Call.sat_paths _ hi hP hc).of_run hr).1.evolves

lemma DirTree.unlink_safe {lost : Nat → Prop} {B : Nat} (h : DirTree B s.fs.node)
    (hi : SysInv sb lost s) (hc : s.Calm) (hp : s.CanCall p) (path : Option (List UInt8)) :
    ((Call.unlink path).prog p).run s ≠ some (.error "unlink: nlink < 1") := by
  have hsat : Thread.Sat ((Call.unlink path).prog p) s
      (⟨fun e => e ≠ "unlink: nlink < 1", by decide⟩ : Panics) fun _ _ => True := by
    obtain ⟨hlt, hst⟩ := hp
    obtain ⟨cwd, hcwd, hmem⟩ := hi.cwd_ref hlt hst
    cases path with
    | none => exact trivial
    | some path =>
      refine (cwdOf_some hcwd).bind ?_
      rintro r s1 ⟨rfl, rfl⟩
      refine (onFs_sat (sysUnlink_run (P := HasLinks s1.fs.node) hi.run hmem ⟨h.root_linked,
        hc.cwd_linked hi hlt hcwd⟩ h.closed (.inr fun _ hj => hj.ne_none) (.inr fun j m hj hm => ?_)
        (by decide))).imp fun _ _ _ => trivial
      obtain ⟨m', hm', hne⟩ := hj
      rw [hm] at hm'
      cases hm'
      have hlow := hc.low (fun i => s1.fs.node_lt) j m hm
      rw [short_of_le hlow.le]
      omega
  exact fun hr => hsat.of_panic hr rfl

/-- With at most 32767 links to each inode the `short` is the number of the links. -/
theorem link_counts_do_not_wrap (hw : TreeImage mkfsSb disk) (hlow : FewLinks (mount mkfsSb disk).node)
    (h : (sysMachine mkfsSb disk).Reach (fun s _ => s.Calm) s hist) :
    (∀ i m, s.fs.node i = some m → short m.nlink = ((names mkfsSb.ninodes 1 s.fs.node).count i : Nat)) ∧
    (∀ i ∈ names mkfsSb.ninodes 1 s.fs.node, ∃ m, s.fs.node i = some m ∧ 1 ≤ short m.nlink) ∧
    (s.Calm → ∀ p path, s.CanCall p →
      ((Call.unlink path).prog p).run s ≠ some (.error "unlink: nlink < 1")) := by
  have ht := sysMachine_tree hw h
  have hfew := sysMachine_fewLinks hw hlow h
  have hcount : ∀ i m, s.fs.node i = some m →
    short m.nlink = ((names mkfsSb.ninodes 1 s.fs.node).count i : Nat) := by
    intro i m hm
    rw [short_of_le (hfew i m hm), ht.count i m hm]
  refine ⟨hcount, fun i hin => ?_, fun hc p path hp =>
    ht.unlink_safe (sysMachine_inv hw.image h) hc hp path⟩
  have hpos := List.count_pos_iff.mpr hin
  cases hN : s.fs.node i with
  | none =>
    rw [ht.free i hN] at hpos
    exact absurd hpos (Nat.lt_irrefl 0)
  | some m =>
    refine ⟨m, rfl, ?_⟩
    rw [hcount i m hN]
    omega

lemma rootImage_fewLinks : FewLinks (mount mkfsSb rootImage).node := by
  intro i m hm
  by_cases hi : i = rootino
  · have htest : ((mount mkfsSb rootImage).node rootino).all (fun m : FileNode =>
      decide (m.nlink ≤ 32767)) = true := by
      decide +kernel
    rw [← hi, hm] at htest
    exact of_decide_eq_true htest
  · rw [rootImage_alone hi] at hm
    cases hm

theorem link_counts_do_not_wrap_link :
    ∃ s hist, (sysMachine mkfsSb rootImage).Reach (fun s _ => s.Calm) s hist ∧
    ∃ m, s.fs.node 2 = some m ∧ m.nlink = 2 ∧ (names mkfsSb.ninodes 1 s.fs.node).count 2 = 2 := by
  have htest :
    userinit.test (bootSys mkfsSb rootImage) (fun _ s => decide s.Calm && decide (s.CanCall 0) &&
      ((Call.open (some [slash, 102]) oCreate).prog 0).test s fun _ s1 => decide s1.Calm &&
      decide (s1.CanCall 0) &&
        ((Call.link (some [slash, 102]) (some [slash, 103])).prog 0).test s1 fun _ s2 =>
          (s2.fs.node 2).any fun m => decide (m.nlink = 2)) = true := by
    decide +kernel
  obtain ⟨_, s, h0, ht⟩ := Thread.returns_of_test htest
  simp only [Bool.and_eq_true, decide_eq_true_eq] at ht
  obtain ⟨⟨hcalm, hcan⟩, hrun⟩ := ht
  obtain ⟨r, s1, hrun, ht⟩ := Thread.returns_of_test hrun
  simp only [Bool.and_eq_true, decide_eq_true_eq] at ht
  obtain ⟨⟨hcalm1, hcan1⟩, hrun1⟩ := ht
  obtain ⟨r1, s2, hrun1, ht⟩ := Thread.returns_of_test hrun1
  obtain ⟨m, hm, hlink⟩ := (Option.any_eq_true _ _).mp ht
  have hlink := of_decide_eq_true hlink
  have hreach : (sysMachine mkfsSb rootImage).Reach (fun s _ => s.Calm) s2 _ :=
    .step (.step (.init h0) hcalm (sysMachine_run hcan hrun)) hcalm1 (sysMachine_run hcan1 hrun1)
  have hcount := (link_counts_do_not_wrap rootImage_tree rootImage_fewLinks hreach).1 2 m hm
  rw [hlink] at hcount
  exact ⟨s2, _, hreach, m, hm, hlink, (Int.ofNat.inj hcount).symm⟩

lemma linkImage_fewLinks : FewLinks (mount mkfsSb linkImage).node := by
  intro i m hm
  obtain ⟨hi, rfl⟩ := linkImage_some hm
  obtain rfl | rfl | rfl | rfl : i = 1 ∨ i = 2 ∨ i = 3 ∨ i = 4 := by omega
  · exact (by decide : 3 ≤ 32767)
  · exact (by decide : 32767 ≤ 32767)
  · exact (by decide : 1 ≤ 32767)
  · exact (by decide : 1 ≤ 32767)

/-- One more link to `/f`, which has 32767: the call succeeds, the count is -32768, and `unlink`
of the file panics. -/
theorem link_wraps : TreeImage mkfsSb linkImage ∧ FewLinks (mount mkfsSb linkImage).node ∧ ∃ s s' m,
    (sysMachine mkfsSb linkImage).Reach (fun _ _ => True) s [] ∧ s.CanCall 0 ∧
    ((Call.link (some [slash, 102]) (some [slash, 120])).prog 0).run s = some (.ok (0, s')) ∧
    resolve s'.fs.node rootino [slash, 102] = some 2 ∧ s'.fs.node 2 = some m ∧
    short m.nlink = -32768 ∧ s'.CanCall 0 ∧
    ((Call.unlink (some [slash, 102])).prog 0).run s' = some (.error "unlink: nlink < 1") := by
  have htest : userinit.test (bootSys mkfsSb linkImage) (fun _ s => decide (s.CanCall 0) &&
      ((Call.link (some [slash, 102]) (some [slash, 120])).prog 0).test s fun r s' =>
      decide (r = 0) && decide (resolve s'.fs.node rootino [slash, 102] = some 2) &&
        ((s'.fs.node 2).any fun m => decide (short m.nlink = -32768)) && decide (s'.CanCall 0) &&
        ((Call.unlink (some [slash, 102])).prog 0).panics s' "unlink: nlink < 1") = true := by
    decide +kernel
  obtain ⟨_, s, h0, ht⟩ := Thread.returns_of_test htest
  simp only [Bool.and_eq_true, decide_eq_true_eq] at ht
  obtain ⟨hcan, hrun⟩ := ht
  obtain ⟨r, s', hrun, ht⟩ := Thread.returns_of_test hrun
  simp only [Bool.and_eq_true, decide_eq_true_eq] at ht
  obtain ⟨⟨⟨⟨rfl, hpath⟩, hnode⟩, hcan'⟩, hpanic⟩ := ht
  obtain ⟨m, hm, hneg⟩ := (Option.any_eq_true _ _).mp hnode
  refine ⟨linkImage_tree, linkImage_fewLinks, s, s', m, .init h0, hcan, hrun, hpath, hm,
    of_decide_eq_true hneg, hcan', Thread.run_of_panics hpanic⟩

end

end Xv6
