import Xv6.SchedLocks

/-! `wakeup(chan)` by a process that has `lk` leaves nobody asleep in `sleep(chan, lk)`:
whoever called `sleep` has its `p->lock` until it is `SLEEPING`, and nobody calls `sleep`
with `lk` meanwhile. -/

namespace Xv6

open SchedSys

section

variable {n : Nat} {s s' s1 : SchedSys} {c c' p q : Nat} {i : Instr} {x : ProcPc} {l : SpinLock}

def SchedSys.Dozes (s : SchedSys) (p : Nat) (k : SleepCall) : Prop :=
  match s.pc p with
  | .sleepLock k' | .sleepRelease k' | .sleepChan k' | .sleepState k' => k' = k
  | .sleepSched k' | .sleepTidy k' => k' = k ∧ s.state p = .sleeping
  | _ => False

variable {k : SleepCall}

lemma SchedStep.dozes (h : SchedStep n s c s') (hd : s'.Dozes p k) :
    s.Dozes p k ∨ s.cpu c = .runs p ∧ s.owner (.cond k.lk) = some c := by
  by_cases hc : s.cpu c = .runs p
  · cases h with
    | sched hc' => exact absurd hc (hc' p)
    | @proc q i x s1 hc' hi he =>
      cases hc.symm.trans hc'
      simp only [Dozes, goTo_pc_self, goTo_state] at hd
      cases hi with
      | code hi =>
        refine .inl ?_
        unfold Dozes
        generalize s.pc p = y at hi
        cases y with
        | yieldUnlock b => cases b <;> cases hi <;> cases hd
        | sleepState k' =>
          cases hi
          exact hd.1
        | sleepSched k' =>
          cases hi
          cases he
          exact hd
        | sleepTidy k' =>
          cases hi
          cases hd
        | _ =>
          simp only [procCode] at hi
          try split_ifs at hi
          all_goals cases hi
          all_goals exact hd
      | sleep hp ho =>
        subst hd
        exact .inr ⟨hc, ho⟩
      | _ => cases hd
  · refine .inl ?_
    simp only [Dozes, h.local.pc hc] at hd ⊢
    have hst : s'.state p = .sleeping → s.state p = .sleeping := by
      intro hs
      by_contra hw
      rcases h.writes (fun he => hw (he ▸ hs)) with ⟨hr, -⟩ | ⟨-, hr⟩ | ⟨q, ch, -, -, hr⟩
      · exact hc hr
      · simp [hs] at hr
      · simp [hs] at hr
    generalize s.pc p = y at hd
    cases y with
    | sleepSched k' => exact ⟨hd.1, hst hd.2⟩
    | sleepTidy k' => exact ⟨hd.1, hst hd.2⟩
    | _ => exact hd

lemma SchedInv.cond_notMem {lk : Nat} (h : SchedInv n s) (hs : s.state p = .sleeping) :
    .cond lk ∉ (s.pc p).locks p := by
  intro hl
  by_cases hr : ∃ d, s.cpu d = .runs p
  · obtain ⟨d, hr⟩ := hr
    have hst := h.status hr
    rw [hs] at hst
    generalize s.pc p = y at hl hst
    cases y with
    | sleepSched k => simp [ProcPc.locks] at hl
    | _ => cases hst
  · have hp := h.parked fun d hd => hr ⟨d, hd⟩
    rw [ProcPc.locks_parked hp] at hl
    simp at hl

lemma SchedInv.asleep {w : Nat} (h : SchedInv n s) (hc : s.cpu c = .runs w)
    (hp : .proc p ∈ s.held c) (hl : s.owner (.cond k.lk) = some c) (hd : s.Dozes p k) (hw : p ≠ w) :
    s.pc p = .sleepTidy k ∧ s.state p = .sleeping ∧ s.chan p = k.chan := by
  have hoff : ∀ l, s.owner l = some c → l ∈ (s.pc p).locks p → (s.pc p).parked = true := by
    intro l ho hm
    refine h.parked fun d hdp => hw ?_
    have hdc : c = d := (h.held_iff ((mem_held hdp).mpr hm)).mp ho
    subst hdc
    exact CpuPc.runs.inj (hdp.symm.trans hc)
  have hproc := hoff (.proc p) (h.held hp)
  have hcond := hoff (.cond k.lk) hl
  have hch := h.onChan (p := p) (k := k)
  unfold Dozes at hd
  generalize s.pc p = y at hd hproc hcond hch
  cases y with
  | sleepTidy k' =>
    obtain ⟨rfl, hs⟩ := hd
    exact ⟨rfl, hs, hch rfl⟩
  | sleepLock k' =>
    subst hd
    exact absurd (hcond (List.mem_singleton_self _)) (by simp [ProcPc.parked])
  | _ => simp_all [ProcPc.locks, ProcPc.parked]

structure WakeInv (n : Nat) (s : SchedSys) : Prop where
  swept : ∀ {c w ch m p k}, s.cpu c = .runs w → (s.pc w).swept = some (ch, m) →
    p < m → k.chan = ch → s.owner (.cond k.lk) = some c → ¬ s.Dozes p k
  small : ∀ {p}, s.pc p ≠ .forkret → p < n

section

variable (h : SchedInv n s) (hw : WakeInv n s) (hs : SchedStep n s c s')
include h hw hs

lemma WakeInv.step_small (hp : s'.pc p ≠ .forkret) : p < n := by
  by_cases hc : s.cpu c = .runs p
  · exact h.index (c := c) (by rw [hc]; rfl)
  · rw [hs.local.pc hc] at hp
    exact hw.small hp

lemma WakeInv.step_swept {w ch m : Nat} {k : SleepCall} (hc' : s'.cpu c' = .runs w)
    (hm : (s'.pc w).swept = some (ch, m)) (hp : p < m) (hk : k.chan = ch)
    (ho : s'.owner (.cond k.lk) = some c') :
    ¬ s'.Dozes p k := by
  intro hd
  rcases hs.runs hc' with hr | ⟨rfl, he⟩
  · by_cases hcc : c' = c
    · subst hcc
      have hpw : p ≠ w := by
        rintro rfl
        unfold Dozes at hd
        generalize s'.pc p = x at hm hd
        cases x <;> simp_all [ProcPc.swept]
      have hd0 : s.Dozes p k :=
        (hs.dozes hd).resolve_right fun hp => hpw (CpuPc.runs.inj (hp.1.symm.trans hr))
      cases hs with
      | sched hc => exact absurd hr (hc w)
      | @proc q a x s1 hc hi he =>
        cases hr.symm.trans hc
        rw [goTo_pc_self] at hm
        -- an entry that was done before the step
        have hold : ∀ {j}, (s.pc w).swept = some (ch, j) → s.owner (.cond k.lk) = some c' → j ≤ p :=
          fun hj ho => Nat.le_of_not_lt fun hlt => hw.swept hr hj hlt hk ho hd0
        cases hi with
        | code hi =>
          cases hy : s.pc w with
          | wakeLoop ch' i =>
            rw [hy] at hi hold
            simp only [procCode] at hi
            split_ifs at hi with hin hiw <;> cases hi <;> cases hm <;> cases he
            · have := hold rfl ho
              omega
            · have := hold rfl (by simpa using ho)
              omega
          | wakeLook ch' i =>
            have hl : .proc i ∈ s.held c' := by simp [mem_held hr, ProcPc.locks, hy]
            rw [hy] at hi hold
            simp only [procCode] at hi
            split_ifs at hi with hin <;> cases hi <;> cases hm <;> cases he
            · have := hold rfl ho
              omega
            · have := hold rfl ho
              obtain rfl : p = i := by omega
              obtain ⟨-, hst, hch⟩ := h.asleep hr hl ho hd0 hpw
              exact hin ⟨hst, hch.trans hk⟩
          | wakeSet ch' i =>
            have hl : .proc i ∈ s.held c' := by simp [mem_held hr, ProcPc.locks, hy]
            rw [hy] at hi hold
            cases hi
            cases hm
            cases he
            have := hold rfl ho
            obtain rfl : p = i := by omega
            obtain ⟨hpc, -, -⟩ := h.asleep hr hl ho hd0 hpw
            have hpc' : (s.setState p .runnable).pc p = .sleepTidy k := hpc
            rw [Dozes, goTo_pc_of_ne hpw, hpc', goTo_state] at hd
            exact absurd ((Function.update_self ..).symm.trans hd.2) ProcState.noConfusion
          | wakeUnlock ch' i =>
            rw [hy] at hi hold
            cases hi
            cases hm
            cases he
            have := hold rfl (by simpa using ho)
            omega
          | yieldUnlock b =>
            rw [hy] at hi
            cases b <;> cases hi <;> cases hm
          | _ =>
            rw [hy] at hi
            cases hi <;> cases hm
        | wakeup hp' =>
          cases hm
          exact absurd hp (Nat.not_lt_zero p)
        | _ => cases hm
    · rw [hs.local.pc fun hq => hcc (h.one hr hq)] at hm
      rw [hs.local.owner hcc] at ho
      rcases hs.dozes hd with hd | ⟨-, ho'⟩
      · exact hw.swept hr hm hp hk ho hd
      · exact hcc (Option.some.inj (ho.symm.trans ho'))
  · have hn := (h.enter he).2
    rw [hs.local.pc (hn c')] at hm
    have hp := h.parked hn
    generalize s.pc w = y at hm hp
    cases y <;> simp_all [ProcPc.parked, ProcPc.swept]

/-- `wakeup` leaves no sleeper behind it. -/
lemma WakeInv.step : WakeInv n s' := ⟨hw.step_swept h hs, hw.step_small h hs⟩

end

def ProcPc.call : ProcPc → Option SleepCall
  | .sleepLock k | .sleepRelease k | .sleepChan k | .sleepState k | .sleepSched k | .sleepTidy k =>
    some k
  | _ => none

structure SinceInv (s : SchedSys) : Prop where
  num : ∀ {p k}, (s.pc p).call = some k → k.num < s.calls
  since : ∀ {p k c}, (s.pc p).call = some k → s.owner (.cond k.lk) = some c →
    k.num < s.since (.cond k.lk) ∨ .cond k.lk ∈ (s.pc p).locks p

lemma procCode_call {y : ProcPc} (h : procCode n s p x = some (i, y)) (hk : y.call = some k) :
    x.call = some k ∧ (.cond k.lk ∈ x.locks p → .cond k.lk ∈ y.locks p ∨
      i = .release (.cond k.lk)) := by
  cases x with
  | yieldUnlock b => cases b <;> cases h <;> cases hk
  | _ =>
    simp only [procCode] at h
    try split_ifs at h
    all_goals cases h
    all_goals cases hk
    all_goals simp [ProcPc.call, ProcPc.locks]

lemma Effect.since (h : Effect s c i s') (ho : s'.owner l = some c') :
    s.owner l = some c' ∧ s'.since l = s.since l ∨ s'.since l = s.calls := by
  cases h with
  | @acquire l' ho' =>
    by_cases hl : l = l'
    · subst hl
      exact .inr (Function.update_self ..)
    · exact .inl ⟨by simpa [hl] using ho, Function.update_of_ne hl ..⟩
  | @release l' ho' =>
    by_cases hl : l = l'
    · simp [hl] at ho
    · exact .inl ⟨by simpa [hl] using ho, rfl⟩
  | _ => exact .inl ⟨ho, rfl⟩

lemma Effect.calls (h : Effect s c i s') : s'.calls = s.calls := by
  cases h <;> rfl

lemma SinceInv.step (h : SinceInv s) (hs : SchedStep n s c s') : SinceInv s' := by
  cases hs with
  | @sched i x s1 hc hi he =>
    refine ⟨fun hp => ?_, fun hp ho => ?_⟩
    · rw [setCpu_pc, he.pc] at hp
      exact he.calls ▸ h.num hp
    · rw [setCpu_pc, he.pc] at hp ⊢
      rcases he.since ho with ⟨ho, hs⟩ | hs
      · exact (h.since hp ho).imp_left fun hn => hs ▸ hn
      · exact .inl (hs ▸ h.num hp)
  | @proc p i x s1 hc hi he =>
    have hcalls : (s1.goTo p x).calls = s.calls + x.begins := by rw [← he.calls]; rfl
    -- what the call of a process was before the step
    have hold : ∀ {q k}, ((s1.goTo p x).pc q).call = some k →
        (s.pc q).call = some k ∧ (.cond k.lk ∈ (s.pc q).locks q →
          .cond k.lk ∈ ((s1.goTo p x).pc q).locks q ∨ i = .release (.cond k.lk)) ∨
        k.num = s.calls ∧ x.begins = 1 ∧ .cond k.lk ∈ ((s1.goTo p x).pc q).locks q := by
      intro q k hp
      by_cases hq : q = p
      · subst hq
        rw [goTo_pc_self] at hp ⊢
        cases hi with
        | code hi => exact .inl (procCode_call hi hp)
        | sleep hp' ho =>
          cases hp
          exact .inr ⟨rfl, rfl, List.mem_singleton_self _⟩
        | _ => cases hp
      · rw [goTo_pc_of_ne hq, he.pc] at hp ⊢
        exact .inl ⟨hp, .inl⟩
    refine ⟨fun hp => ?_, fun hp ho => ?_⟩
    · rw [hcalls]
      rcases hold hp with ⟨hk, -⟩ | ⟨hk, hx, -⟩
      · exact Nat.lt_add_right _ (h.num hk)
      · omega
    · rcases hold hp with ⟨hk, hl⟩ | ⟨-, -, hl⟩
      · rcases he.since ho with ⟨ho', hs⟩ | hs
        · rcases h.since hk ho' with hn | hm
          · exact .inl (hs.symm ▸ hn)
          · refine .inr ((hl hm).resolve_right ?_)
            rintro rfl
            cases he
            simp at ho
        · exact .inl (hs.symm ▸ h.num hk)
      · exact .inr hl

end

section

variable {n : Nat} {s : SchedSys} {hist : List Unit} {ok : SchedSys → SchedAct → Prop}

lemma sched_inv (h : (schedMachine n).Reach ok s hist) : SchedInv n s ∧ WakeInv n s ∧ SinceInv s := by
  refine h.invariant (I := fun s _ => SchedInv n s ∧ WakeInv n s ∧ SinceInv s) (fun s h => ?_) ?_
  · refine ⟨h.inv, ⟨fun hc => ?_, fun hp => absurd (h.pc _) hp⟩, ⟨fun hp => ?_, fun hp => ?_⟩⟩
    · rw [h.cpu] at hc
      cases hc
    · simp [h.pc, ProcPc.call] at hp
    · simp [h.pc, ProcPc.call] at hp
  · intro s s' _ _ a _ ⟨hi, hw, hn⟩ _ hs
    obtain ⟨s1, hs', he⟩ := Option.map_eq_some_iff.mp hs
    cases he
    have hs := sched_step_cases hs'
    exact ⟨hi.step hs, hw.step hi hs, hn.step hs⟩

/-- `w`, which has `lk`, is in `wakeup(chan)`. When it returns nobody is asleep in a call of
`sleep(chan, lk)`; on the way it makes `RUNNABLE` only processes that sleep on `chan`, and of
those that came with `lk` only such that called `sleep` before `w` acquired it. -/
theorem wakeup_loses_nobody (h : (schedMachine n).Reach ok s hist) {c w chan lk m : Nat}
    (hc : s.cpu c = .runs w)
    (hw : (s.pc w).swept = some (chan, m)) (hl : s.owner (.cond lk) = some c) :
    (s.pc w = .wakeLoop chan m → n ≤ m → ∀ p k, k.chan = chan → k.lk = lk → ¬ s.Dozes p k) ∧
    ∀ op s', s.step n ⟨c, op⟩ = some s' → ∀ p, s'.state p ≠ s.state p →
      p ≠ w ∧ s.state p = .sleeping ∧ s.chan p = chan ∧ s'.state p = .runnable ∧
      ∀ k, (s.pc p).call = some k → k.lk = lk → k.num < s.since (.cond lk) := by
  obtain ⟨hi, hi', hn⟩ := sched_inv h
  refine ⟨fun hp hm p k hk hlk hd => ?_, fun op s' hs p hst => ?_⟩
  · have hpn : p < n := by
      apply hi'.small
      intro hf
      simp [Dozes, hf] at hd
    exact hi'.swept hc hw (by omega) hk (hlk ▸ hl) hd
  · rcases (sched_step_cases hs).writes hst with ⟨hc', hw'⟩ | ⟨hc', -⟩ | ⟨w', ch, hc', hp, hst'⟩
    · cases hc.symm.trans hc'
      simp [hw] at hw'
    · simp [hc] at hc'
    · cases hc.symm.trans hc'
      rw [hp] at hw
      cases hw
      obtain ⟨hsl, hch⟩ := hi.wake hc hp
      refine ⟨?_, hsl, hch, hst', fun k hk hlk => ?_⟩
      · rintro rfl
        simpa [hsl, hp, ProcPc.status] using hi.status hc
      · subst hlk
        exact (hn.since hk hl).resolve_right (hi.cond_notMem hsl)

def bootTwo : SchedSys where
  state := fun p => if p < 2 then .runnable else .unused
  chan := fun _ => 0
  owner := fun _ => none
  noff := fun _ => 0
  cpu := fun _ => .scan 0
  pc := fun _ => .forkret
  calls := 0
  since := fun _ => 0

lemma bootTwo_boot : bootTwo.Boot := by
  refine ⟨fun p => ?_, fun _ => rfl, fun _ => rfl, fun _ => rfl⟩
  simp only [bootTwo]
  split <;> simp

theorem wakeup_loses_nobody_two : ∃ s, (schedMachine 2).Reach (fun _ _ => True) s [] ∧
    s.cpu 0 = .runs 1 ∧
    s.pc 1 = .wakeLoop 7 2 ∧ s.pc 0 = .sleepTidy ⟨0, 7, 3⟩ ∧ ¬ s.Dozes 0 ⟨0, 7, 3⟩ := by
  let go : SchedAct := ⟨0, .go⟩
  have h0 : (schedMachine 2).Reach (fun _ _ => True) bootTwo [] := .init bootTwo_boot
  have h1 := h0.run (List.replicate 5 go ++ [⟨0, .acquire 3⟩, ⟨0, .sleep 7 3⟩] ++
    List.replicate 11 go ++
    [⟨0, .acquire 3⟩, ⟨0, .wakeup 7⟩] ++ List.replicate 5 go) (fun _ _ => trivial) rfl
  exact ⟨_, h1, rfl, rfl, rfl, (wakeup_loses_nobody h1 (c := 0) (w := 1) (m := 2) rfl rfl rfl).1 rfl
    (Nat.le_refl 2) 0 ⟨0, 7, 3⟩ rfl rfl⟩

end

end Xv6
