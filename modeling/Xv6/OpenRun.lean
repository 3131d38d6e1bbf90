import Xv6.FileModel
import Xv6.FsEffect

/-! What `sys_open`, `readi` and `writei` do to the files. -/

namespace Xv6

open Kern List

section

variable {sb : Superblock} {lost : Nat → Prop} {s s' : Fs} {refs : List (Nat × Nat)}
  {locked : List Nat} {p ip i n : Nat}
  {E : Panics} {m : FileNode} {keep : List Nat} {P : Nat → Prop}

variable {off k omode : UInt32} {c cwd : Nat} {path : List UInt8} {N N' : Nat → Option FileNode}

section

variable (h : Run sb lost s refs locked n)
include h

lemma readi_run {dst : Dst} (hip : (ip, i) ∈ refs)
    (hl : ip ∈ locked) : Thread.Upholds FsInv (fsStep (readi ip dst off k)) s E fun _ s' => s' = s := by
  refine Thread.upholds_step h.inv
    ((readi_sat (h.inv.solid_of_loaded (h.loaded hip hl)) dst off k).imp fun _ _ hr => hr.1) ?_
  rintro _ _ rfl
  exact h.inv

lemma writei_run {src : Src} (hip : (ip, i) ∈ refs)
    (hl : ip ∈ locked) (hn : 1 ≤ n) (hm : s.node i = some m) (ht : m.type ≠ tDir) :
    Thread.Upholds FsInv (fsStep (writei ip src off k)) s E fun _ s' =>
    Run sb lost s' refs locked n ∧ ∀ keep, Minors keep s.node s'.node := by
  have hload := h.loaded hip hl
  have hm' : s.node (s.itable ip).inum = some m := by rw [h.num hip]; exact hm
  refine Thread.upholds_step h.inv ((writei_sat h.inv hload (by rw [h.txn]; exact hn) off k).imp ?_)
    fun _ _ h => h.1.inv
  rintro r s' (⟨-, rfl, -⟩ | ⟨w, -, hw⟩)
  · exact ⟨h, fun _ => Minors.refl⟩
  · obtain ⟨m', hnode, htype, -, -, hlink⟩ := hw.node h.inv hload hm'
    rw [h.num hip] at hnode
    have hi' : FsInv s' := h.inv.wroteFile hload hw fun hd => by
      rw [hw.type, (h.inv.node_type hload hm').1] at hd
      exact absurd hd ht
    have hw' : m'.Within fun i => ¬ lost i := FileNode.within_of_file (by rw [htype]; exact ht)
    exact ⟨h.changed hi' hw.saved.sameRefs hip hl hw' hnode, fun _ =>
      (MinorEffect.store i m m' hm ht htype hlink hnode).minors⟩

lemma openTrunc_run (hip : (ip, i) ∈ refs) (hl : ip ∈ locked)
    (hn : 1 ≤ n) (hm : s.node i = some m) :
    Thread.Upholds FsInv (fsStep (openTrunc ip omode)) s E fun _ s' =>
    Run sb lost s' refs locked n ∧ ∀ keep, Minors keep s.node s'.node := by
  have hload := h.loaded hip hl
  have hm' : s.node (s.itable ip).inum = some m := by rw [h.num hip]; exact hm
  refine Thread.upholds_step h.inv ?_ fun _ _ h => h.1.inv
  unfold openTrunc
  rw [sat_bind, sat_getState, (h.inv.node_type hload hm').1]
  split
  next hc =>
    refine (itrunc_node h.inv hload (by rw [h.txn]; exact hn) hm').imp ?_
    rintro _ s' ⟨hi', hs, hnode⟩
    rw [h.num hip] at hnode
    have ht : m.type ≠ tDir := by
      rw [hc.2]
      decide
    have hw : m.cleared.Within fun i => ¬ lost i := FileNode.within_of_file ht
    exact ⟨h.changed hi' hs.sameRefs hip hl hw hnode, fun _ =>
      (MinorEffect.store i m m.cleared hm ht rfl rfl hnode).minors⟩
  next => exact sat_pure.mpr ⟨h, fun _ => Minors.refl⟩

end

lemma openDone_run (h : Run sb lost s refs (ip :: locked) (n + 1)) (hip : (ip, i) ∈ refs)
    (hm : s.node i = some m) (hE : ∀ e ∈ stepPanics, E e) :
    Thread.Upholds FsInv (openDone p ip omode) s E fun _ s' => Run sb lost s' refs locked n ∧
      ∀ keep, Minors keep s.node s'.node := by
  unfold openDone
  refine (openTrunc_run h hip mem_cons_self (Nat.le_add_left 1 n) hm).bind ?_
  rintro _ s1 ⟨h1, he1⟩
  refine (iunlock_run h1 hip hE).bind ?_
  rintro _ s2 ⟨h2, hnode2⟩
  refine (endOp_run h2).imp ?_
  rintro _ s3 ⟨h3, hnode3⟩
  rw [hnode3, hnode2]
  exact ⟨h3.forget fun x hx => mem_cons_of_mem _ hx, he1⟩

lemma openFail_run (h : Run sb lost s ((ip, i) :: refs) (ip :: locked) (n + 1))
    (hl : ∀ x ∈ locked, x ∈ refs.map Prod.fst) (hE : ∀ e ∈ stepPanics, E e) :
    Thread.Upholds FsInv (openFail p ip) s E fun _ s' => Run sb lost s' refs locked n ∧
      s'.node = putNode s.node refs i := by
  unfold openFail
  refine (iunlockput_run h (Nat.le_add_left 1 n) (fun x hx =>
    ⟨mem_cons_of_mem _ hx, hl x hx⟩) hE).bind ?_
  rintro _ s1 ⟨h1, hnode1⟩
  refine (endOp_run h1).imp ?_
  rintro _ s2 ⟨h2, hnode2⟩
  exact ⟨h2, hnode2.trans hnode1⟩

def CreateFails (s : Fs) (p cwd : Nat) (path : List UInt8) : Prop :=
  ∃ s', (do fsStep Fs.beginOp; create p cwd path tFile 0 0 : FsProg (Option Nat)).run s =
    some (.ok (none, s'))

/-- How `sys_open` comes to inode `i`: it is there, or it has been created. -/
inductive Opened (N N' : Nat → Option FileNode) (refs : List (Nat × Nat)) (P : Nat → Prop) (c : Nat)
    (path : List UInt8) (omode : UInt32) (ip i : Nat) (m : FileNode) : Prop
  | found (hP : P i) (hpath : resolve N c path = some i) (hN : N' = N)
  | made (hnew : omode &&& oCreate ≠ 0) (hpath : resolve N c path = none) (ht : m.type = tFile)
      (hc : Created N N' refs P c path tFile 0 0 ip i)

lemma Opened.evolves
    (h : Opened N N' refs P c path omode ip i m) (hk : ∀ j ∈ keep, j ∈ refs.map Prod.snd) :
    Evolves keep P (fun name => name ∈ pathElems path.length path) N N' := by
  cases h with
  | found _ _ hN => exact Evolves.of_eq hN
  | made _ _ _ hc => exact hc.evolves (by decide) hk

lemma putNode_some {j : Nat} (hm : N i = some m)
    (hi : i ∈ refs.map Prod.snd) : putNode N refs j i = some m := by
  by_cases hji : i = j
  · subst hji
    rw [putNode_eq_self fun _ _ _ => hi, hm]
  · rw [putNode_of_ne hji, hm]

lemma Created.node {type major minor : Nat}
    (h : Created N N' refs P c path type major minor ip i) : ∃ m, N' i = some m ∧
      ((m.type = tFile ∨ m.type = tDevice) ∧ N' = N ∧ P i ∧ resolve N c path = some i ∨
        m.type = type % 2 ^ 16 ∧ resolve N c path = none ∧ N i = none ∧ m.nlink = 1) := by
  cases h with
  | found m hP hpath _ hm htype hN => exact ⟨m, by rw [hN]; exact hm, .inl ⟨htype, hN, hP, hpath⟩⟩
  | made d k name md hpath hP hname hmd ht hsz hno hfree hnew hi hN =>
    have hdi : i ≠ d := by
      rintro rfl
      rw [hnew] at hmd
      cases hmd
    have hself : withFile N d i k type name (FileNode.made type major minor) md i =
        some (if type = tDir then (FileNode.made type major minor).withDots i d
          else FileNode.made type major minor) := by
      rw [withFile, Function.update_of_ne hdi, Function.update_self]
    have hnode :=
      putNode_some (j := d) hself (mem_map_of_mem (mem_cons_self (a := (ip, i)) (l := refs)))
    rw [← hN] at hnode
    refine ⟨_, hnode, .inr ⟨?_, hpath, hnew, ?_⟩⟩
    · split
      · rfl
      · rfl
    · split
      · rfl
      · rfl

section

variable (h : Run sb lost s refs locked n)
include h

lemma openPath_run
    (hn : 1 ≤ n) (hcwd : (cwd, c) ∈ refs) (hP : P rootino ∧ P c) (hclosed : Closed s.node P)
    (hno : E "ilock: no type" ∨ ∀ j, P j → s.node j ≠ none) (ha : Alive s.node refs)
    (hE : ∀ e ∈ stepPanics, E e) :
    Thread.Upholds FsInv (openPath p cwd path omode) s E fun r s' =>
      (r = none ∧ Run sb lost s' refs locked n ∧ s'.node = s.node) ∨
      ∃ ip i m, r = some ip ∧ Run sb lost s' ((ip, i) :: refs) (ip :: locked) n ∧ s'.node i = some m ∧
        (m.type = tDir → omode = oRdonly) ∧ Opened s.node s'.node refs P c path omode ip i m := by
  unfold openPath
  split
  next hc =>
    refine (create_run h hn hcwd hP hclosed hno ha (by decide) hE).imp ?_
    rintro r s' (⟨rfl, h', hnode⟩ | ⟨ip, i, rfl, h', hcr⟩)
    · exact .inl ⟨rfl, h', hnode⟩
    · obtain ⟨m, hm, hr⟩ := hcr.node
      rcases hr with ⟨htype, hN, hPi, hpath⟩ | ⟨htype, hpath, -⟩
      · refine Or.inr ⟨ip, i, m, rfl, h', hm, fun hd => ?_, .found hPi hpath hN⟩
        rw [hd] at htype
        exact absurd htype (by decide)
      · have htf : m.type = tFile := htype
        refine Or.inr ⟨ip, i, m, rfl, h', hm, fun hd => ?_, .made hc hpath htf hcr⟩
        rw [htf] at hd
        exact absurd hd (by decide)
  next =>
    refine (namei_run h hn hcwd hP hclosed hno hE).bind ?_
    rintro r s1 ⟨hnode1, hr⟩
    rcases hr with ⟨rfl, -, h1⟩ | ⟨ip, i, rfl, hpath, hPi, h1⟩
    · exact Thread.upholds_pure h1.inv (.inl ⟨rfl, h1, hnode1⟩)
    have hself : (ip, i) ∈ (ip, i) :: refs := mem_cons_self
    refine (ilock_run h1 hself (by rw [hnode1]; exact hno.imp_right fun ha => ha i hPi)).bind ?_
    rintro _ s2 ⟨h2, hnode2, hne⟩
    obtain ⟨m, hm⟩ := Option.ne_none_iff_exists'.mp hne
    rw [← hnode2] at hm
    rw [hnode1] at hnode2
    refine (typeOf_run h2 hself mem_cons_self hm).bind ?_
    rintro t s3 ⟨rfl, rfl⟩
    split
    next =>
      refine (iunlockput_settled h2 hn (by rw [hnode2]; exact h.settled)
        (fun x hx => ⟨mem_cons_of_mem _ hx, h.held x hx⟩) hE).bind ?_
      rintro _ s4 ⟨h4, hnode4⟩
      exact Thread.upholds_pure h4.inv (.inl ⟨rfl, h4, hnode4.trans hnode2⟩)
    next hd =>
      refine Thread.upholds_pure h2.inv (.inr ⟨ip, i, m, rfl, h2, hm, fun ht => ?_,
        .found hPi hpath hnode2⟩)
      by_contra hmode
      exact hd ⟨ht, hmode⟩

lemma badMajor_run (hip : (ip, i) ∈ refs) (hl : ip ∈ locked)
    (hm : s.node i = some m) :
    Thread.Upholds FsInv (fsStep (badMajor ip)) s E fun r s' => s' = s ∧
    (r = true → m.type = tDevice) := by
  have ht := (h.inv.node_type (h.loaded hip hl) (by rw [h.num hip]; exact hm)).1
  refine Thread.upholds_step h.inv ((sat_of_eq (by rfl)).mpr ⟨rfl, fun hr => ?_⟩) ?_
  · rw [← ht]
    exact (of_decide_eq_true hr).1
  · rintro _ _ ⟨rfl, -⟩
    exact h.inv

lemma openInode_run
    (hcwd : (cwd, c) ∈ refs) (hP : P rootino ∧ P c) (hclosed : Closed s.node P)
    (hno : E "ilock: no type" ∨ ∀ j, P j → s.node j ≠ none) (ha : Alive s.node refs)
    (hE : ∀ e ∈ stepPanics, E e) :
    Thread.Upholds FsInv (openInode p cwd path omode) s E fun r s' =>
      (r = none ∧ Run sb lost s' refs locked n ∧ s'.node = s.node ∧ (omode &&& oCreate ≠ 0 →
        resolve s.node c path ≠ none ∨ CreateFails s p cwd path)) ∨
      ∃ ip i m, r = some ip ∧ Run sb lost s' ((ip, i) :: refs) (ip :: locked) (n + 1) ∧
        s'.node i = some m ∧ (m.type = tDir → omode = oRdonly) ∧
        Opened s.node s'.node refs P c path omode ip i m ∧
        (omode &&& oCreate ≠ 0 → ¬ CreateFails s p cwd path) := by
  unfold openInode
  refine (beginOp_run h).and_run.bind ?_
  rintro _ s1 ⟨⟨h1, hnode1⟩, hrun1⟩
  have hs := h.settled
  rw [← hnode1] at hclosed hno ha hs ⊢
  refine (openPath_run h1 (Nat.le_add_left 1 n) hcwd hP hclosed hno ha hE).and_run.bind ?_
  rintro r s2 ⟨hr, hrun⟩
  -- with `O_CREATE` it is `create` that has run
  have hcreate : omode &&& oCreate ≠ 0 →
      (do fsStep Fs.beginOp; create p cwd path tFile 0 0 : FsProg (Option Nat)).run s =
        some (.ok (r, s2)) := by
    intro hc
    rw [openPath, if_pos hc] at hrun
    exact (Thread.run_bind_of_run hrun1).trans hrun
  rcases hr with ⟨rfl, h2, hnode2⟩ | ⟨ip, i, m, rfl, h2, hm, hd, ho⟩
  · refine (endOp_run h2).bind ?_
    rintro _ s3 ⟨h3, hnode3⟩
    exact Thread.upholds_pure h3.inv (.inl ⟨rfl, h3, hnode3.trans hnode2,
      fun hc => .inr ⟨s2, hcreate hc⟩⟩)
  refine (badMajor_run h2 mem_cons_self mem_cons_self hm).bind ?_
  rintro bad s3 ⟨rfl, hbad⟩
  split
  next hb =>
    obtain ⟨hnode, hpath⟩ : s3.node = s1.node ∧ resolve s1.node c path ≠ none := by
      cases ho with
      | found _ hpath hN => exact ⟨hN, by rw [hpath]; exact Option.some_ne_none i⟩
      | made _ _ ht _ =>
        rw [hbad hb] at ht
        exact absurd ht (by decide)
    refine (openFail_run h2 h.held hE).bind ?_
    rintro _ s4 ⟨h4, hnode4⟩
    rw [hnode, putNode_eq_self fun m hm hz => hs i m (h2.clean mem_cons_self) hm hz] at hnode4
    exact Thread.upholds_pure h4.inv (.inl ⟨rfl, h4, hnode4, fun _ => .inl hpath⟩)
  next =>
    refine Thread.upholds_pure h2.inv (.inr ⟨ip, i, m, rfl, h2, hm, hd, ho, fun hc => ?_⟩)
    rintro ⟨s', hfail⟩
    rw [hcreate hc] at hfail
    cases hfail

end

end

end Xv6
