import Xv6.LogSpace

/-! Who sleeps in `begin_op` has a reason to. The log is taken as recovery leaves it, with
whatever there was on the disk. -/

namespace Xv6

open DiskProg

section

variable {sb : Superblock} {α β : Type}

def Coheres (sb : Superblock) (q : LogProg α) : Prop :=
  ∀ m d, CacheOk sb m d → CacheOk sb (run q m d).2.1 (run q m d).2.2

lemma Coheres.bind {q : LogProg α} {f : α → LogProg β} (hq : Coheres sb q)
    (hf : ∀ a, Coheres sb (f a)) : Coheres sb (q >>= f) := by
  intro m d h
  rw [run_bind]
  exact hf _ _ _ (hq m d h)

lemma coheres_pure (a : α) : Coheres sb (pure a : LogProg α) := fun _ _ h => h

lemma coheres_getMem : Coheres sb (getMem : LogProg LogMem) := fun _ _ h => h

lemma coheres_setLh (f : LogMem → List Nat) :
    Coheres sb (modifyMem fun m => m.setLh (f m) : LogProg Unit) :=
  fun _ _ h => h.setLh _

lemma coheres_bread (b : Nat) : Coheres sb (bread b) := by
  intro m d h
  rw [(does_bread b m d).mem, (does_bread b m d).disk]
  exact h.load b

lemma coheres_bwrite (b : Nat) (v : Block) : Coheres sb (bwrite b v) := by
  intro m d h
  rw [(does_bwrite b v m d).mem, (does_bwrite b v m d).disk]
  exact h.write b v

lemma Coheres.forBelow {bound : LogMem → Nat} {body : Nat → LogProg Unit}
    (hb : ∀ i, Coheres sb (body i)) (fuel i : Nat) : Coheres sb (forBelow bound body fuel i) := by
  induction fuel generalizing i with
  | zero => exact coheres_pure ()
  | succ fuel ih =>
    refine coheres_getMem.bind fun m => ?_
    by_cases hi : i < bound m
    · rw [if_pos hi]
      exact (hb i).bind fun _ => ih (i + 1)
    · rw [if_neg hi]
      exact coheres_pure ()

lemma coheres_installTrans : Coheres sb installTrans := by
  refine Coheres.forBelow (fun i => ?_) _ _
  exact coheres_getMem.bind fun _ => (coheres_bread _).bind fun _ => (coheres_bread _).bind fun _ =>
    coheres_bwrite _ _

lemma coheres_readHead : Coheres sb readHead :=
  coheres_getMem.bind fun _ => (coheres_bread _).bind fun _ => coheres_setLh _

lemma run_recoverFromLog (m : LogMem) (d : Disk) : run recoverFromLog m d =
    run ((modifyMem fun m => m.setLh [] : LogProg Unit) >>= fun _ => writeHead)
      (run (readHead >>= fun _ => installTrans) m d).2.1
      (run (readHead >>= fun _ => installTrans) m d).2.2 := by
  simp only [recoverFromLog, run_bind]

lemma boot_idle (hn : 0 < sb.nlog) (d : Disk) : Idle sb (boot sb d) := by
  have hflags := logFlags_boot sb d
  obtain ⟨m0, hm0⟩ : ∃ m0 : LogMem, m0 =
      { LogMem.zero with log := { LogMem.zero.log with start := sb.logstart, size := sb.nlog } } :=
      ⟨_, rfl⟩
  have hzero : CacheOk sb m0 d := fun b v _ hb => by
    rw [hm0] at hb
    cases hb
  have hc := (coheres_readHead.bind fun _ => coheres_installTrans) m0 d hzero
  have hstart := (keeps_readHead.bind fun _ => keeps_installTrans).run m0 d
  have hm : logFlags m0 = (sb.logstart, sb.nlog, 0, false) := by
    rw [hm0]
    rfl
  rw [hm] at hstart
  have hboot : boot sb d = (run recoverFromLog m0 d).2 := by
    rw [boot, initlog, run_bind, run_modifyMem, hm0]
  rw [run_recoverFromLog] at hboot
  rw [hboot] at hflags ⊢
  generalize run (readHead >>= fun _ => installTrans) m0 d = r at hc hstart hflags ⊢
  simp only [logFlags, Prod.mk.injEq] at hstart hflags
  obtain ⟨m', hdo, hlog, hc'⟩ := writeHead_does (m := r.2.1.setLh []) hn hstart.1 (hc.setLh [])
  have hall :=
    (does_modifyMem (fun m : LogMem => m.setLh []) r.2.1 r.2.2).bind (g := fun _ => writeHead) hdo
  rw [List.nil_append] at hall
  refine ⟨hflags.1, ?_, ?_, ?_⟩
  · rw [hall.mem, hlog]
    rfl
  · rw [hall.mem, hall.disk]
    exact hc'
  · rw [hall.disk]
    exact (clean_erase hn _ fun b _ => (rfl : r.2.2 b = r.2.2 b)).1

lemma LogInv.booted (hn : 0 < sb.nlog) (d : Disk) :
    LogInv sb (Xv6.boot sb d).2 (LogSys.boot sb d) LogTrace.init [] := by
  have hidle := boot_idle hn d
  exact .of_idle hidle ⟨hidle.head, fun _ _ => rfl⟩

end

def Waits (s : LogSys) : Prop := ∀ p, s.pc p = .asleep → beginOp s.mem.log = none

section

variable {sb : Superblock} {d₀ : Disk} {s s' : LogSys} {o : LogTrace} {act : List Nat} {p : Nat}

lemma beginOp_none {l : Log} : beginOp l = none ↔
    l.committing = true ∨ (l.lh.length : Int) + (l.outstanding + 1) * maxOpBlocks > logSize := by
  unfold beginOp
  cases hc : l.committing with
  | true => simp
  | false =>
    by_cases hn : (l.lh.length : Int) + (l.outstanding + 1) * maxOpBlocks > logSize
    · simp [hn]
    · simp [hn]

lemma wakeup_asleep (s : LogSys) (q : Nat) : s.wakeup.pc q ≠ .asleep := by
  cases hq : s.pc q <;> simp [LogSys.wakeup, hq]

lemma setPc_asleep {c : LogPc} {q : Nat} (hc : c ≠ .asleep) (h : (s.setPc p c).pc q = .asleep) :
    s.pc q = .asleep := by
  by_cases hq : q = p
  · rw [hq, setPc_self] at h
    exact absurd h hc
  · rwa [setPc_of_ne _ _ hq] at h

lemma waits_of_wakeup {c : LogPc} (hc : c ≠ .asleep) : Waits (s.wakeup.setPc p c) := fun q hq =>
  absurd (setPc_asleep hc hq) (wakeup_asleep s q)

lemma Waits.begin (h : Waits s) (hs : s.step (.begin p : LogAct sb) = some (.ok s')) : Waits s' := by
  obtain ⟨-, ⟨l, hl, rfl⟩ | ⟨hl, rfl⟩⟩ := step_begin hs
  · -- one process is admitted, so none waits
    intro q hq
    have hno := h q (setPc_asleep (s := s.setLog l) (by simp) hq)
    rw [hl] at hno
    cases hno
  · exact fun _ _ => hl

lemma Waits.write (h : Waits s) {b : HomeBlock sb} {v : Block}
    (hs : s.step (.write p b v) = some (.ok s')) : Waits s' := by
  obtain ⟨-, l, hl, rfl⟩ := step_write hs
  obtain ⟨rfl, -⟩ := logWrite_ok hl
  intro q hq
  have hlen := length_le_logAbsorb s.mem.log.lh b
  rcases beginOp_none.mp (h q hq) with hc | hn
  · exact beginOp_none.mpr (.inl hc)
  · refine beginOp_none.mpr (.inr ?_)
    change ((logAbsorb s.mem.log.lh b).length : Int) + (s.mem.log.outstanding + 1) *
      maxOpBlocks > logSize
    omega

lemma Waits.endOp (hs : s.step (.endOp p : LogAct sb) = some (.ok s')) : Waits s' := by
  obtain ⟨-, l, ⟨hl, rfl⟩ | ⟨-, rfl⟩⟩ := step_endOp hs
  · obtain ⟨-, -, rfl⟩ := endOp_ok hl
    exact fun _ _ => beginOp_none.mpr (.inl rfl)
  · exact waits_of_wakeup (by simp)

lemma Waits.commit (hi : LogInv sb d₀ s o act)
    (hs : s.step (.commit p : LogAct sb) = some (.ok s')) : Waits s' := by
  have hi' := hi.commit hs
  obtain ⟨q, q', m', d', -, -, rfl⟩ := step_commit hs
  rcases hi'.phase with ho | ⟨-, _, _, _, _, hc⟩
  · exact absurd (Function.update_self ..) (ho.none p q')
  · exact fun _ _ => beginOp_none.mpr (.inl hc.committing)

lemma Waits.step (h : Waits s) (hi : LogInv sb d₀ s o act) {a : LogAct sb}
    (hs : s.step a = some (.ok s')) : Waits s' := by
  cases a with
  | enter p =>
    obtain ⟨-, rfl⟩ := step_enter hs
    exact fun q hq => h q (setPc_asleep (by simp) hq)
  | begin p => exact h.begin hs
  | write p b v => exact h.write hs
  | endOp p => exact Waits.endOp hs
  | commit p => exact Waits.commit hi hs
  | finish p =>
    obtain ⟨-, rfl⟩ := step_finish hs
    exact waits_of_wakeup (by simp)

lemma LogRun.waits {ok : LogTrace → LogAct sb → Prop} (hn : 0 < sb.nlog)
    (hr : LogRun ok (LogSys.boot sb d₀) s o) :
    Waits s ∧ ∃ act, LogInv sb (Xv6.boot sb d₀).2 s o act := by
  induction hr with
  | init => exact ⟨fun q hq => absurd hq (by simp [LogSys.boot]), [], LogInv.booted hn d₀⟩
  | step a _ _ hs ih =>
    obtain ⟨hw, act, hi⟩ := ih
    exact ⟨hw.step hi hs, hi.step hs⟩

end

/-- With no call active and no commit running the log is empty and nobody sleeps in
`begin_op`; whoever does has its wait condition still true. -/
theorem begin_op_waits_for_space {sb : Superblock} (hn : 0 < sb.nlog) {d₀ : Disk}
    {ok : LogTrace → LogAct sb → Prop} {s : LogSys} {o : LogTrace}
    (hr : LogRun ok (LogSys.boot sb d₀) s o) :
    (s.mem.log.outstanding = 0 → s.mem.log.committing = false → s.mem.log.lh.length = 0 ∧
      ∀ p, s.pc p ≠ .asleep) ∧
    ∀ p, s.pc p = .asleep → s.mem.log.committing = true ∨
      (s.mem.log.lh.length : Int) + (s.mem.log.outstanding + 1) * maxOpBlocks > logSize := by
  obtain ⟨hw, act, hi⟩ := hr.waits hn
  have hcond := fun p (hp : s.pc p = .asleep) => beginOp_none.mp (hw p hp)
  refine ⟨fun hout hcom => ?_, hcond⟩
  have hlh : s.mem.log.lh.length = 0 := by
    rcases hi.phase with ho | ⟨-, _, _, _, _, hc⟩
    · have hact : act = [] := List.length_eq_zero_iff.mp (by have := hi.outstanding; omega)
      rw [ho.snap.lh, ho.quiet hact]
      rfl
    · rw [hc.committing] at hcom
      cases hcom
  refine ⟨hlh, fun p hp => ?_⟩
  rcases hcond p hp with hc | hroom
  · rw [hcom] at hc
    cases hc
  · rw [hlh, hout] at hroom
    exact absurd hroom (by decide)

theorem begin_op_waits_for_space_fourth : ∃ (s : LogSys) (o : LogTrace),
    LogRun (fun o (a : LogAct mkfsSb) => OpBound 10 o a) (LogSys.boot mkfsSb blankDisk) s o ∧
    s.pc 3 = .asleep ∧
    (s.mem.log.committing = true ∨
      (s.mem.log.lh.length : Int) + (s.mem.log.outstanding + 1) * maxOpBlocks > logSize) := by
  have hn : 0 < mkfsSb.nlog := by decide
  have hlog := boot_log hn (headN_blankDisk mkfsSb.logstart)
  have hr0 : LogRun (fun o (a : LogAct mkfsSb) => OpBound 10 o a) (LogSys.boot mkfsSb blankDisk)
    (LogSys.boot mkfsSb blankDisk) LogTrace.init := .init
  have hr1 := hr0.admit (p := 0) (fun _ => trivial) (fun _ => trivial) rfl (by rw [hlog]; rfl)
  have hr2 := hr1.admit (p := 1) (fun _ => trivial) (fun _ => trivial) rfl rfl
  have hr3 := hr2.admit (p := 2) (fun _ => trivial) (fun _ => trivial) rfl rfl
  have hr4 := (hr3.step (.enter 3) trivial rfl).step (.begin 3) trivial rfl
  exact ⟨_, _, hr4, rfl, (begin_op_waits_for_space hn hr4).2 3 rfl⟩

end Xv6
