import Xv6.Lib.Machine

/-! `push_off` and `pop_off` (`spinlock.c`) with `sched`, `scheduler` and `forkret` (`proc.c`), on
any number of cpus. `acquire` and `release` are seen as their `push_off` and `pop_off`. An interrupt
between the two halves of `push_off` gives the flag back as it was, so `push_off` is one step. -/

namespace Xv6

open Function (update update_self update_of_ne forall_update_iff)

inductive Tid where
  | scheduler (c : Nat) | proc (p : Nat)
  deriving DecidableEq

structure IntrCpu where
  noff : Nat
  intena : Bool
  intr : Bool
  run : Tid

/-- `fresh`: `allocproc` has set `p->context` to `forkret`. `parked`: in the `swtch` of `sched`.
`resumed`: back from it, before `intena` is restored. A scheduler is always at `run`. -/
inductive IntrPc where
  | fresh | forkret | run | parked | resumed
  deriving DecidableEq

/-- `intena` is the local variable of `sched`. An observer counts the `push_off`s that are not
undone in `depth`, and keeps in `outer` what `intr_get` returned in the outermost one. -/
structure IntrThread where
  pc : IntrPc
  intena : Bool
  depth : Nat
  outer : Bool

/-- All cpus and threads. -/
structure IntrSys where
  cpu : Nat → IntrCpu
  thread : Tid → IntrThread

/-- The steps of a cpu. -/
inductive IntrAct where
  | push (c : Nat) | pop (c : Nat)
  | setIntr (c : Nat) (on : Bool)
  | sched (c p : Nat) | swtch (c p : Nat) | restore (c : Nat)
  | alloc (p : Nat)

inductive IntrEvent where
  | panic (msg : String)
  | released (id : Tid) (outer intr : Bool)
  deriving DecidableEq

namespace IntrCpu

/-- `push_off` of `spinlock.c`. -/
def pushOff (c : IntrCpu) : IntrCpu :=
  { c with noff := c.noff + 1, intena := if c.noff = 0 then c.intr else c.intena, intr := false }

/-- `pop_off` of `spinlock.c`, with its two panics. -/
def popOff (c : IntrCpu) : Except String IntrCpu :=
  if c.intr then .error "pop_off - interruptible"
  else if c.noff < 1 then .error "pop_off"
  else .ok { c with noff := c.noff - 1, intr := decide (c.noff - 1 = 0) && c.intena }

/-- `sched` up to `swtch` on the cpu `i`; `p->lock` and `p->state` are not looked at. -/
def sched (i : Nat) (c : IntrCpu) : Except String IntrCpu :=
  if c.noff ≠ 1 then .error "sched locks"
  else if c.intr then .error "sched interruptible"
  else .ok { c with run := .scheduler i }

end IntrCpu

namespace IntrSys

def put (s : IntrSys) (c : Nat) (d : IntrCpu) (id : Tid) (t : IntrThread) : IntrSys :=
  ⟨update s.cpu c d, update s.thread id t⟩

def current (s : IntrSys) (c : Nat) : IntrThread := s.thread (s.cpu c).run

/-- `forkret` gets to the code of the kernel with its `release`. `setIntr` is `intr_on`, `intr_off`,
the entry into a trap or the return from it. A scheduler switches to a process whose lock, and no
other one, it has; `alloc` uses the slot of a process that has called `exit`. -/
def step (s : IntrSys) : IntrAct → Option (IntrSys × List IntrEvent)
  | .push c =>
    let t := s.current c
    if t.pc = .run then some (s.put c (s.cpu c).pushOff (s.cpu c).run
      { t with depth := t.depth + 1, outer := if t.depth = 0 then (s.cpu c).intr else t.outer }, [])
    else none
  | .pop c =>
    let t := s.current c
    if t.depth = 0 ∨ t.pc = .resumed then none
    else match (s.cpu c).popOff with
      | .error e => some (s, [.panic e])
      | .ok d => some (s.put c d (s.cpu c).run { t with pc := .run, depth := t.depth - 1 },
        if t.depth = 1 ∧ t.pc = .run then [.released (s.cpu c).run t.outer d.intr] else [])
  | .setIntr c on =>
    let t := s.current c
    if t.pc = .run ∧ t.depth = 0 then
      some (s.put c { s.cpu c with intr := on } (s.cpu c).run t, []) else none
  | .sched c p =>
    let t := s.thread (.proc p)
    if (s.cpu c).run = .proc p ∧ t.pc = .run ∧ t.depth = 1 then match (s.cpu c).sched c with
      | .error e => some (s, [.panic e])
      | .ok d => some (s.put c d (.proc p) { t with pc := .parked, intena := (s.cpu c).intena }, [])
    else none
  | .swtch c p =>
    let t := s.thread (.proc p)
    if (s.cpu c).run = .scheduler c ∧ (s.thread (.scheduler c)).depth = 1 ∧
      (t.pc = .fresh ∨ t.pc = .parked) then
      some (s.put c { s.cpu c with run := .proc p } (.proc p)
        { t with pc := if t.pc = .fresh then .forkret else .resumed }, [])
    else none
  | .restore c =>
    let t := s.current c
    if t.pc = .resumed then some (s.put c { s.cpu c with intena := t.intena } (s.cpu c).run { t with
      pc := .run }, [])
    else none
  | .alloc p =>
    if (s.thread (.proc p)).pc = .parked then
      some ({ s with thread := update s.thread (.proc p) ⟨.fresh, false, 1, false⟩ }, [])
    else none

structure Boot (s : IntrSys) : Prop where
  cpu : ∀ c, (s.cpu c).noff = 0 ∧ (s.cpu c).run = .scheduler c
  scheduler : ∀ c, (s.thread (.scheduler c)).pc = .run ∧ (s.thread (.scheduler c)).depth = 0
  proc : ∀ p, (s.thread (.proc p)).pc = .fresh ∧ (s.thread (.proc p)).depth = 1

end IntrSys

def intrMachine : Machine IntrSys IntrAct IntrEvent := ⟨IntrSys.Boot, IntrSys.step⟩

def IntrPc.Active (pc : IntrPc) : Prop := pc ≠ .fresh ∧ pc ≠ .parked

def IntrThread.Ok (t : IntrThread) : Prop :=
  (t.pc ≠ .run → t.depth = 1) ∧ (t.pc = .parked ∨ t.pc = .resumed → t.intena = t.outer)

/-- The flag that a process on the cpu will find is its own; a scheduler has no such flag. -/
structure IntrCpu.Ok (f : Tid → IntrThread) (c : Nat) (d : IntrCpu) : Prop where
  noff : d.noff = (f d.run).depth
  off : 0 < d.noff → d.intr = false
  run : d.run = .scheduler c ∨ (f (.scheduler c)).depth = 1 ∧ ∃ p, d.run = .proc p
  active : (f d.run).pc.Active
  intena : ∀ p, d.run = .proc p → (f d.run).pc = .run → 0 < (f d.run).depth → d.intena = (f d.run).outer

/-- What holds in every reachable state. -/
structure IntrInv (s : IntrSys) : Prop where
  cpu : ∀ c, (s.cpu c).Ok s.thread c
  thread : ∀ id, (s.thread id).Ok
  one : ∀ c c', (s.cpu c).run = (s.cpu c').run → c = c'
  scheduler : ∀ c, (s.thread (.scheduler c)).pc = .run

section

variable {s s' : IntrSys} {c p : Nat} {d : IntrCpu} {id : Tid} {t : IntrThread}
  {f g : Tid → IntrThread} {out : List IntrEvent}

lemma IntrCpu.Ok.congr (h : d.Ok f c) (hrun : g d.run = f d.run)
    (hs : g (.scheduler c) = f (.scheduler c)) : d.Ok g c where
  noff := hrun ▸ h.noff
  off := h.off
  run := hs ▸ h.run
  active := hrun ▸ h.active
  intena := hrun ▸ h.intena

/-- A step on `c` with a thread that the other cpus do not run. -/
lemma IntrInv.put (h : IntrInv s) (hid : id = .scheduler c ∨ ∃ p, id = .proc p)
    (hother : ∀ c' ≠ c, (s.cpu c').run ≠ id ∧ (s.cpu c').run ≠ d.run)
    (hd : d.Ok (update s.thread id t) c) (ht : t.Ok) (hpc : id = .scheduler c → t.pc = .run) :
    IntrInv (s.put c d id t) where
  cpu := by
    refine forall_update_iff s.cpu (p := fun c' d => d.Ok (update s.thread id t) c') |>.mpr ⟨hd,
      fun c' hc => ?_⟩
    refine (h.cpu c').congr (update_of_ne (hother c' hc).1 ..) (update_of_ne ?_ ..)
    rcases hid with rfl | ⟨p, rfl⟩
    · exact fun he => hc (Tid.scheduler.inj he)
    · exact nofun
  thread := (forall_update_iff s.thread (p := fun _ => IntrThread.Ok)).mpr ⟨ht, fun q _ => h.thread q⟩
  one c1 c2 he := by
    by_cases e1 : c1 = c <;> by_cases e2 :
      c2 = c <;> simp only [IntrSys.put, e1, e2, update_self, ne_eq,
      not_false_eq_true, update_of_ne] at he ⊢
    · exact absurd he.symm (hother c2 e2).2
    · exact absurd he (hother c1 e1).2
    · exact h.one c1 c2 he
  scheduler c' := by
    by_cases he : Tid.scheduler c' = id
    · subst he
      rcases hid with hid | ⟨p, hid⟩ <;> cases hid
      simpa [IntrSys.put] using hpc rfl
    · simpa [IntrSys.put, he] using h.scheduler c'

/-- What runs on `c` goes on there. -/
lemma IntrInv.go (h : IntrInv s) (hr : d.run = (s.cpu c).run) (ht : t.Ok) (hpc : t.pc = .run)
    (hn : d.noff = t.depth) (hoff : 0 < d.noff → d.intr = false)
    (hi : ∀ p, d.run = .proc p → 0 < t.depth → d.intena = t.outer) :
    IntrInv (s.put c d (s.cpu c).run t) := by
  have hrun := (h.cpu c).run
  have hother (c' : Nat) (hc : c' ≠ c) : (s.cpu c').run ≠ (s.cpu c).run := fun he => hc (h.one c' c he)
  refine h.put (hrun.imp_right And.right)
    (fun c' hc => ⟨hother c' hc, hr ▸ hother c' hc⟩) ?_ ht fun _ => hpc
  rw [← hr] at hrun ⊢
  refine ⟨by rw [update_self, hn], hoff, hrun.imp_right fun hq => ⟨?_, hq.2⟩, ?_, fun p hp _ => ?_⟩
  · obtain ⟨hone, p, hp⟩ := hq
    simpa [hp] using hone
  · rw [update_self, hpc]
    exact ⟨nofun, nofun⟩
  · rw [update_self]
    exact hi p hp

def IntrEvent.Fine : IntrEvent → Prop
  | .panic _ => False
  | .released (.proc _) outer intr => intr = outer
  | .released (.scheduler _) _ _ => True

lemma IntrCpu.Ok.popOff (h : d.Ok f c) (hpos : (f d.run).depth ≠ 0) :
    d.popOff = .ok { d with noff := d.noff - 1, intr := decide (d.noff - 1 = 0) && d.intena } := by
  have hn : d.noff ≠ 0 := h.noff ▸ hpos
  rw [IntrCpu.popOff, h.off (by omega), if_neg Bool.false_ne_true, if_neg (by omega)]

lemma IntrInv.pop (h : IntrInv s) (hs : s.step (.pop c) = some (s', out)) :
    IntrInv s' ∧ ∀ e ∈ out, e.Fine := by
  have hc := h.cpu c
  have hlast {p : Nat} (hp : (s.cpu c).run = .proc p) (hr : (s.current c).pc = .run)
    (hpos : 0 < (s.current c).depth) :
      (s.cpu c).intena = (s.current c).outer := hc.intena p hp hr hpos
  simp only [IntrSys.step] at hs
  split at hs
  · cases hs
  next hopen =>
  rw [not_or] at hopen
  have hn : (s.cpu c).noff = (s.current c).depth := hc.noff
  rw [hc.popOff hopen.1] at hs
  cases hs
  refine ⟨h.go rfl ⟨fun hne => absurd rfl hne, by simp⟩ rfl (congrArg (· - 1) hn) (fun hlt => ?_)
    fun p hp hlt => ?_, fun e he => ?_⟩
  · simp [Nat.ne_of_gt hlt]
  · -- `forkret` has one lock only
    refine hlast hp (by_contra fun hne => ?_) (by omega)
    have hone : (s.current c).depth = 1 := (h.thread _).1 hne
    simp [hone] at hlt
  · split at he
    · next hone =>
      cases List.mem_singleton.mp he
      cases hp : (s.cpu c).run with
      | scheduler _ => trivial
      | proc p => simp [IntrEvent.Fine, hn, hone.1, hlast hp hone.2]
    · cases he

/-- Each step keeps the nesting. -/
lemma IntrInv.step {a : IntrAct} (h : IntrInv s) (hs : s.step a = some (s', out)) :
    IntrInv s' ∧ ∀ e ∈ out, e.Fine := by
  cases a with
  | pop c => exact h.pop hs
  | push c =>
    simp only [IntrSys.step] at hs
    split at hs <;> cases hs
    next hr =>
    have hn : (s.cpu c).noff = (s.current c).depth := (h.cpu c).noff
    refine ⟨h.go rfl ⟨fun hne => absurd hr hne, by simp [hr]⟩ hr (congrArg (· + 1) hn)
      (fun _ => rfl) fun p hp _ => ?_, nofun⟩
    simp only [IntrCpu.pushOff, hn]
    split
    · rfl
    · exact (h.cpu c).intena p hp hr (Nat.pos_of_ne_zero ‹_›)
  | setIntr c on =>
    simp only [IntrSys.step] at hs
    split at hs <;> cases hs
    next hr =>
    have hn : (s.cpu c).noff = (s.current c).depth := (h.cpu c).noff
    refine ⟨h.go rfl (h.thread _) hr.1 hn (fun hlt => ?_) fun p _ hlt => ?_, nofun⟩
    · simp [hn, hr.2] at hlt
    · simp [hr.2] at hlt
  | sched c p =>
    simp only [IntrSys.step] at hs
    split at hs
    · next hr =>
      obtain ⟨hp, hpc, hone⟩ := hr
      obtain ⟨hn, hoff, hrun, -, hi⟩ := h.cpu c
      rw [hp, hone] at hn
      rw [IntrCpu.sched, if_neg (not_not.mpr hn), hoff (by omega), if_neg Bool.false_ne_true] at hs
      cases hs
      have hother (c' : Nat) (hc : c' ≠ c) : (s.cpu c').run ≠ .proc p :=
        fun he => hc (h.one c' c (he.trans hp.symm))
      have hsched : (s.thread (.scheduler c)).depth = 1 := (hrun.resolve_left (by simp [hp])).1
      refine ⟨h.put (.inr ⟨p, rfl⟩) (fun c' hc => ⟨hother c' hc, fun he => ?_⟩) ⟨?_, fun _ => rfl,
        .inl rfl, ?_, nofun⟩ ⟨fun _ => hone, fun _ => ?_⟩ nofun, nofun⟩
      · rcases (h.cpu c').run with hc' | ⟨-, q, hq⟩
        · exact hc (Tid.scheduler.inj (hc'.symm.trans he))
        · cases hq.symm.trans he
      · simp [hn, hsched]
      · simp [h.scheduler, IntrPc.Active]
      · rw [hp] at hi
        exact hi p rfl hpc (by omega)
    · cases hs
  | swtch c p =>
    simp only [IntrSys.step] at hs
    split at hs <;> cases hs
    next hr =>
    obtain ⟨hsch, hdepth, hpc⟩ := hr
    obtain ⟨hn, hoff, -, -, -⟩ := h.cpu c
    rw [hsch, hdepth] at hn
    have hidle : ¬ (s.thread (.proc p)).pc.Active := by
      rcases hpc with hpc | hpc <;> simp [hpc, IntrPc.Active]
    have hone := (h.thread (.proc p)).1 (by rcases hpc with hpc | hpc <;> simp [hpc])
    have hother (c' : Nat) : (s.cpu c').run ≠ .proc p := fun he => hidle (he ▸ (h.cpu c').active)
    refine ⟨h.put (.inr ⟨p, rfl⟩) (fun c' _ => ⟨hother c', hother c'⟩) ⟨?_, hoff, .inr ⟨?_, p, rfl⟩,
      ?_, fun q _ hrun => ?_⟩ ⟨fun _ => hone, fun hres => ?_⟩ nofun, nofun⟩
    · simp [hn, hone]
    · simpa using hdepth
    · simp only [update_self]
      split <;> exact ⟨nofun, nofun⟩
    · simp only [update_self] at hrun
      split at hrun <;> cases hrun
    · refine (h.thread (.proc p)).2 (.inl (hpc.resolve_left fun hf => ?_))
      simp [hf] at hres
  | restore c =>
    simp only [IntrSys.step] at hs
    split at hs <;> cases hs
    next hr =>
    exact ⟨h.go rfl ⟨fun hne => absurd rfl hne, by simp⟩ rfl (h.cpu c).noff (h.cpu c).off
      fun _ _ _ => (h.thread _).2 (.inr hr), nofun⟩
  | alloc p =>
    simp only [IntrSys.step] at hs
    split at hs <;> cases hs
    next hf =>
    have hidle (c : Nat) : (s.cpu c).run ≠ .proc p := fun he => (h.cpu c).active.2 (he ▸ hf)
    refine ⟨⟨fun c => (h.cpu c).congr (update_of_ne (hidle c) ..) (by simp), ?_, h.one,
      by simpa using h.scheduler⟩, nofun⟩
    exact (forall_update_iff s.thread (p := fun _ => IntrThread.Ok)).mpr ⟨by simp [IntrThread.Ok],
      fun q _ => h.thread q⟩

lemma IntrSys.Boot.inv (h : s.Boot) : IntrInv s where
  cpu c := by
    obtain ⟨hn, hr⟩ := h.cpu c
    obtain ⟨hpc, hd⟩ := h.scheduler c
    exact ⟨by rw [hn, hr, hd], by simp [hn], .inl hr, by simp [hr, hpc, IntrPc.Active], by simp [hr]⟩
  thread
    | .scheduler c => ⟨fun hne => absurd (h.scheduler c).1 hne, by simp [(h.scheduler c).1]⟩
    | .proc p => ⟨fun _ => (h.proc p).2, by simp [(h.proc p).1]⟩
  one c c' he := Tid.scheduler.inj ((h.cpu c).2.symm.trans (he.trans (h.cpu c').2))
  scheduler c := (h.scheduler c).1

/-- In every run interrupts are off on a cpu with `noff > 0`, a process that releases its outermost
lock leaves the interrupts of the cpu it is on as they were where it took that lock, and neither
`pop_off` nor `sched` panics. -/
theorem intr_nesting {hist : List IntrEvent} (h : intrMachine.Reach (fun _ _ => True) s hist) :
    (∀ c, 0 < (s.cpu c).noff → (s.cpu c).intr = false) ∧
    (∀ p outer intr, .released (.proc p) outer intr ∈ hist → intr = outer) ∧
    ∀ msg, .panic msg ∉ hist := by
  obtain ⟨hi, hf⟩ :=
    h.invariant (I := fun s hist => IntrInv s ∧ ∀ e ∈ hist, e.Fine)
      (fun _ h0 => ⟨h0.inv, nofun⟩) <| by
    intro s s' hist out a _ ih _ hs
    obtain ⟨hi, hout⟩ := ih.1.step hs
    exact ⟨hi, fun e he => (List.mem_append.mp he).elim (ih.2 e) (hout e)⟩
  exact ⟨fun c => (hi.cpu c).off, fun p outer intr he => hf _ he, fun msg he => hf _ he⟩

end

def intrBoot : IntrSys where
  cpu c := ⟨0, false, false, .scheduler c⟩
  thread
    | .scheduler _ => ⟨.run, false, 0, false⟩
    | .proc _ => ⟨.fresh, false, 1, false⟩

theorem intr_nesting_migrate :
    ∃ s intr, intrMachine.Reach (fun _ _ => True) s [.released (.proc 7) true intr] ∧
    (s.cpu 1).intr = true ∧ intr = true := by
  have h0 : intrMachine.Reach (fun _ _ => True) intrBoot [] :=
    .init ⟨fun _ => ⟨rfl, rfl⟩, fun _ => ⟨rfl, rfl⟩, fun _ => ⟨rfl, rfl⟩⟩
  have htest :
    ((intrMachine.run intrBoot [.push 0, .swtch 0 7, .pop 0, .setIntr 0 true, .push 0,
      .sched 0 7, .push 1, .swtch 1 7, .restore 1, .pop 1]).any fun r =>
      decide (r.2 = [.released (.proc 7) true true]) && (r.1.cpu 1).intr) = true := by
    decide +kernel
  obtain ⟨⟨s, hist⟩, hr, ht⟩ := (Option.any_eq_true _ _).mp htest
  simp only [Bool.and_eq_true, decide_eq_true_eq] at ht
  have h := h0.run _ (fun _ _ => trivial) hr
  rw [ht.1] at h
  exact ⟨s, true, h, ht.2, (intr_nesting h).2.1 7 true true List.mem_cons_self⟩

end Xv6
