import Xv6.FileModel
import Xv6.RootImage

/-! An inode that is not locked is in memory what it is on disk: in every sequence of
operations of the inode layer and of `sys_open`, between any two steps of any of them. -/

namespace Xv6

open Kern

/-- An operation, or `sys_open`; `file` and `fd` say whether `filealloc` and `fdalloc` succeed. -/
inductive InodeOp where
  | op (op : FsOp)
  | sysOpen (p cwd : Nat) (path : List UInt8) (omode : UInt32) (file fd : Bool)

def InodeOp.prog (held : List Nat) : InodeOp → FsProg (List Nat)
  | op o => o.prog held
  | sysOpen p cwd path omode file fd => do
    match ← openInode p cwd path omode with
    | none => pure held
    | some ip =>
      if file && fd then
        openDone p ip omode
        pure (ip :: held)
      else
        openFail p ip
        pure held

def InodeOp.Legal (s : Fs) (held : List Nat) : InodeOp → Prop
  | op o => o.Legal s held
  | sysOpen _ cwd path _ _ _ => path.head? = some slash ∨ cwd ∈ held

inductive InodeReach (s₀ : Fs) : List Nat → Fs → Prop
  | start : InodeReach s₀ [] s₀
  | op {held held' : List Nat} {s s' : Fs} {op : InodeOp} (h : InodeReach s₀ held s)
      (hl : op.Legal s held) (hr : (op.prog held).run s = some (.ok (held', s'))) :
      InodeReach s₀ held' s'

def WriteThrough (s : Fs) : Prop :=
  ∀ ip < ninode, (s.itable ip).lock = none → 0 < (s.itable ip).ref → (s.itable ip).valid = true →
    (s.itable ip).din =
      getDinode (s.disk (iblock s.sb (s.itable ip).inum)) ((s.itable ip).inum % ipb)

/-- `ilock` on an entry `x` that has to be read from the disk of `s` finds the inode that
entry `ip` holds. -/
def Reloads (s : Fs) : Prop :=
  ∀ ip < ninode, (s.itable ip).lock = none → 0 < (s.itable ip).ref → (s.itable ip).valid = true →
    ∀ (t : Fs) (x p : Nat), t.sb = s.sb → t.disk = s.disk → (t.itable x).inum = (s.itable ip).inum →
      1 ≤ (t.itable x).ref → (t.itable x).valid = false →
      ∃ t', ilockStep p x t = .ok ((), t') ∧ (t'.itable x).din = (s.itable ip).din

/-- Only the 64 bytes of the inode changed. -/
def UpdatesSlot (ip : Nat) (s s' : Fs) : Prop :=
  ∀ b j, ¬ (b = iblock s.sb (s.itable ip).inum ∧ 64 * ((s.itable ip).inum % ipb) ≤ j ∧
    j < 64 * ((s.itable ip).inum % ipb) + 64) → (s'.disk b).get j = (s.disk b).get j

section

variable {sb : Superblock} {disk : Disk} {s s' : Fs} {held refs loaded : List Nat} {p ip n : Nat}

lemma get_putAddrs_of_not_mem (b : Block) {off j : Nat} (addrs : Nat → Nat) (k : Nat)
    (h : j < off ∨ off + 4 * k ≤ j) : (putAddrs b off addrs k).get j = b.get j := by
  induction k with
  | zero => rfl
  | succ k ih =>
    rw [putAddrs_succ, Bytes.get_setField_of_not_mem _ _ (by omega)]
    exact ih (by omega)

lemma get_setDinode_of_not_mem (b : Block) (d : Dinode) {i j : Nat}
    (h : j < 64 * i ∨ 64 * i + 64 ≤ j) : (setDinode b i d).get j = b.get j := by
  unfold setDinode
  rw [get_putAddrs_of_not_mem _ _ _ (by simp only [ndirect]; omega)]
  unfold putHeadFields
  rw [Bytes.get_setField_of_not_mem _ _ (by omega), Bytes.get_setField_of_not_mem _ _ (by omega),
    Bytes.get_setField_of_not_mem _ _ (by omega), Bytes.get_setField_of_not_mem _ _ (by omega),
    Bytes.get_setField_of_not_mem _ _ (by omega)]

lemma iupdate_slot {u : Unit} (h : iupdate ip s = .ok (u, s')) : UpdatesSlot ip s s' := by
  have hsat : Sat (iupdate ip) s (fun _ => True) fun _ s' => UpdatesSlot ip s s' := by
    unfold iupdate writeBlock Fs.logWrite
    rw [sat_bind, sat_getState, sat_bind, sat_modifyState, sat_bind, sat_getState]
    split
    · rw [sat_modifyState]
      intro b j hj
      by_cases hb : b = iblock s.sb (s.itable ip).inum
      · subst hb
        simp only [Fs.setBlock, Function.update_self]
        exact get_setDinode_of_not_mem _ _ (by simp only [true_and] at hj; omega)
      · simp only [Fs.setBlock, Function.update_of_ne hb]
    · rw [sat_panic]
      trivial
  exact hsat.of_ok h

lemma FsInv.writeThrough (h : FsInv s) : WriteThrough s :=
  fun ip hip _ hr hv => (h.coherent ip hip hr hv).1

lemma FsInv.reloads (h : FsInv s) : Reloads s := by
  intro ip hip _ hr hv t x p hsb hdisk hnum href hval
  obtain ⟨hd, ht⟩ := h.coherent ip hip hr hv
  have hload : t.dinode (t.itable x).inum = (s.itable ip).din := by
    rw [hd, Fs.dinode, Fs.dinode, hsb, hdisk, hnum]
  have hsat :
    Sat (ilockStep p x) t (fun _ => False) fun _ t' => (t'.itable x).din = (s.itable ip).din := by
    unfold ilockStep ilockLoad
    rw [sat_bind, sat_getState, if_neg (by omega), sat_bind, sat_modifyState, sat_bind, sat_getState]
    have hself : (t.setLock x (some p)).itable x = { t.itable x with lock := some p } :=
      Function.update_self _ _ _
    have hload' : (t.setLock x (some p)).dinode (t.itable x).inum = (s.itable ip).din := hload
    rw [hself, if_pos hval, sat_bind, sat_modifyState, hload', if_neg ht, sat_pure]
    simp only [Fs.setInode, Function.update_self, hself]
    exact hload'
  obtain ⟨_, t', hrun, hQ⟩ := hsat.returns
  exact ⟨t', hrun, hQ⟩

variable {path : List UInt8} {omode : UInt32}

lemma openPath_working {cwd : Nat} (h : Working sb s refs loaded n) (hn : 1 ≤ n)
    (hcwd : path.head? = some slash ∨ cwd ∈ refs) :
    Thread.Upholds FsInv (openPath p cwd path omode) s Tolerated fun r s' =>
      Working sb s' (r.toList ++ refs) (r.toList ++ loaded) n := by
  unfold openPath
  split
  · exact create_working h hn hcwd
  · refine (namei_working h hn hcwd).bind ?_
    intro r s1 h1
    cases r with
    | none => exact ⟨h1.inv, h1⟩
    | some ip =>
      refine (ilock_working h1 List.mem_cons_self).bind ?_
      intro _ s2 h2
      refine (typeOf_working h2).bind ?_
      rintro t s3 ⟨-, rfl, h3⟩
      split
      · exact (iunlockput_working h3 hn fun x hx => ⟨List.mem_cons_of_mem _ hx, h.held x hx⟩).bind
          fun _ s4 h4 =>
          ⟨h4.inv, h4⟩
      · exact ⟨h3.inv, h3⟩

lemma openFail_working (h : Working sb s (ip :: refs) (ip :: loaded) (n + 1))
    (hl : ∀ x ∈ loaded, x ∈ refs) :
    Thread.Upholds FsInv (openFail p ip) s Tolerated fun _ s' => Working sb s' refs loaded n := by
  unfold openFail
  refine (iunlockput_working h (Nat.le_add_left _ _) fun x hx =>
    ⟨List.mem_cons_of_mem _ hx, hl x hx⟩).bind ?_
  intro _ s1 h1
  exact endOp_working h1

lemma openInode_working {cwd : Nat} (h : Working sb s refs loaded n)
    (hcwd : path.head? = some slash ∨ cwd ∈ refs) :
    Thread.Upholds FsInv (openInode p cwd path omode) s Tolerated fun r s' =>
      Working sb s' (r.toList ++ refs) (r.toList ++ loaded) (n + r.toList.length) := by
  unfold openInode
  refine (beginOp_working h).bind ?_
  intro _ s1 h1
  refine (openPath_working h1 (Nat.le_add_left _ _) hcwd).bind ?_
  intro r s2 h2
  cases r with
  | none => exact (endOp_working h2).bind fun _ s3 h3 => ⟨h3.inv, h3⟩
  | some ip =>
    refine Thread.Upholds.bind (Q := fun _ s3 => s3 = s2)
      (Thread.upholds_step h2.inv ((sat_of_eq (by rfl)).mpr rfl) ?_) ?_
    · rintro _ _ rfl
      exact h2.inv
    rintro bad _ rfl
    split
    · exact (openFail_working h2 h.held).bind fun _ s3 h3 => ⟨h3.inv, h3⟩
    · exact ⟨h2.inv, h2⟩

lemma openDone_working (h : Working sb s (ip :: refs) (ip :: loaded) (n + 1)) :
    Thread.Upholds FsInv (openDone p ip omode) s Tolerated fun _ s' => Working sb s' (ip :: refs)
    (ip :: loaded) n := by
  unfold openDone
  refine Thread.Upholds.bind (Q := fun _ s1 => Working sb s1 (ip :: refs) (ip :: loaded) (n + 1))
    (Thread.upholds_step h.inv ?_ fun _ _ h' => h'.inv) ?_
  · unfold openTrunc
    rw [sat_bind, sat_getState]
    split
    · refine (h.inv.trunc (h.isLoaded List.mem_cons_self)
        (by rw [h.txn]; exact Nat.le_add_left _ _)).imp ?_
      rintro _ s1 ⟨hi1, hs, -⟩
      exact h.of_same hi1 hs.sameRefs
    · exact sat_pure.mpr h
  intro _ s1 h1
  refine (iunlock_working h1 List.mem_cons_self).bind ?_
  intro _ s2 h2
  exact endOp_working h2

lemma InodeOp.working {op : InodeOp} (h : Working sb s held [] 0) (hl : op.Legal s held) :
    Thread.Upholds FsInv (op.prog held) s Tolerated fun held' s' => Working sb s' held' [] 0 := by
  cases op with
  | op o => exact FsOp.working h hl
  | sysOpen p cwd path omode file fd =>
    refine (openInode_working h hl).bind ?_
    intro r s1 h1
    cases r with
    | none => exact ⟨h1.inv, h1⟩
    | some ip =>
      change Thread.Upholds FsInv (if file && fd then (do openDone p ip omode; pure (ip :: held))
        else (do openFail p ip; pure held)) s1 Tolerated _
      split
      · refine (openDone_working h1).bind ?_
        intro _ s2 h2
        exact Thread.upholds_pure h2.inv (h2.forget fun x hx => by cases hx)
      · refine (openFail_working h1 fun x hx => by cases hx).bind ?_
        intro _ s2 h2
        exact Thread.upholds_pure h2.inv h2

lemma InodeReach.working (hw : WellFormed sb disk) (h : InodeReach (mount sb disk) held s) :
    Working sb s held [] 0 := by
  induction h with
  | start => exact hw.working
  | op h hl hr ih => exact (InodeOp.working ih hl).sat.of_run hr

/-- Write-through coherence. Between any two steps of any operation, an entry of the inode
table that is in use, read and not locked equals the inode on disk, and reading it again
gives the same inode; `iupdate` changes no byte outside the slot of the inode. -/
theorem inode_write_through (hw : WellFormed sb disk) (h : InodeReach (mount sb disk) held s)
    {op : InodeOp} (hl : op.Legal s held) {x : Fs} (hx : (op.prog held).Visits s x) :
    WriteThrough x ∧ Reloads x ∧ ∀ ip t t', iupdate ip t = .ok ((), t') → UpdatesSlot ip t t' := by
  have hinv : FsInv x := (InodeOp.working (h.working hw) hl).visits hx
  exact ⟨hinv.writeThrough, hinv.reloads, fun ip t t' hu => iupdate_slot hu⟩

theorem inode_write_through_create : WellFormed mkfsSb rootImage ∧ ∃ held s,
    InodeReach (mount mkfsSb rootImage) held s ∧ (s.itable 1).lock = none ∧ (s.itable 1).ref = 1 ∧
      (s.itable 1).valid = true ∧ (s.itable 1).inum = 2 ∧ WriteThrough s := by
  have htest : ((InodeOp.sysOpen 0 0 [47, 102] oCreate true true).prog []).test
    (mount mkfsSb rootImage) fun _ s =>
      decide ((s.itable 1).lock = none ∧ (s.itable 1).ref = 1 ∧ (s.itable 1).valid = true ∧
        (s.itable 1).inum = 2) := by
    decide +kernel
  obtain ⟨held, s, hr, hs⟩ := Thread.returns_of_test htest
  have hl : (InodeOp.sysOpen 0 0 [47, 102] oCreate true true).Legal (mount mkfsSb rootImage)
    [] := Or.inl rfl
  obtain ⟨hlock, href, hvalid, hnum⟩ := of_decide_eq_true hs
  exact ⟨rootImage_wellFormed, held, s, .op .start hl hr, hlock, href, hvalid, hnum,
    (inode_write_through rootImage_wellFormed .start hl (Thread.visits_of_run hr)).1⟩

end

end Xv6
