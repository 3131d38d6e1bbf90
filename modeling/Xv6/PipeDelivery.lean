import Xv6.PipeSafety

/-! What a call of `piperead` takes out of the pipe, and what it hands to its caller. An
observer keeps, for each process, how far its call has moved `pi->nread`, and the bytes
that `copyout` has stored for the readers. -/

namespace Xv6

open List
open Function (update_self update_of_ne)

open PipeSys

structure PipeTally where
  sys : PipeSys
  /-- How far the call of `piperead` of each process has moved `pi->nread`. -/
  advanced : Nat → Nat
  /-- What the call of `piperead` of each process has stored at its destination. -/
  got : Nat → List UInt8
  /-- The bytes `copyout` has stored, in order. -/
  handed : List UInt8

/-- The next step of the reader `p` copies a byte. -/
def Copies (s : PipeSys) (p : Nat) (c : ReadCall) (i : Nat) : Prop :=
  s.pc p = .readLoop c i ∧ (i : Int) < c.n ∧ s.pipe.isEmpty = false

def handedBy (s : PipeSys) (p : Nat) : List UInt8 :=
  match s.pc p with
  | .readLoop c i =>
    if (i : Int) < c.n ∧ s.pipe.isEmpty = false ∧ c.dst i = true then [s.pipe.remove.1] else []
  | _ => []

def PipeTally.after (t : PipeTally) (a : PipeAct) (s' : PipeSys) : PipeTally :=
  match a with
  | .read p _ =>
    { t with sys := s', advanced := Function.update t.advanced p 0, got := Function.update t.got p [] }
  | .run p =>
    { sys := s'
      advanced := Function.update t.advanced p
        (t.advanced p + (s'.pipe.nread + 2 ^ 32 - t.sys.pipe.nread) % 2 ^ 32)
      got := Function.update t.got p (t.got p ++ handedBy t.sys p)
      handed := t.handed ++ handedBy t.sys p }
  | _ => { t with sys := s' }

def PipeTally.step (t : PipeTally) (a : PipeAct) : Option (PipeTally × List PipeEvent) :=
  (t.sys.step a).map fun r => (t.after a r.1, r.2)

def tallyMachine : Machine PipeTally PipeAct PipeEvent where
  init t := t.sys.Fresh ∧ t.handed = []
  step := PipeTally.step

/-- Every `copyout` succeeds. -/
def CopyoutOk (t : PipeTally) (a : PipeAct) : Prop :=
  ∀ p c i, a = .run p → Copies t.sys p c i → c.dst i = true

section

variable {t t' : PipeTally} {s s' : PipeSys} {h out : List PipeEvent} {a : PipeAct} {p q i : Nat}
  {c : ReadCall} {ok : PipeTally → PipeAct → Prop}

lemma tally_step_cases (hs : t.step a = some (t', out)) : PipeStep t.sys a t'.sys out ∧
    t' = t.after a t'.sys := by
  obtain ⟨⟨s', out'⟩, hr, he⟩ := Option.map_eq_some_iff.mp hs
  cases he
  have hsys : (t.after a s').sys = s' := by cases a <;> rfl
  rw [hsys]
  exact ⟨pipe_step_cases hr, rfl⟩

lemma PipeTally.reach_sys (hr : tallyMachine.Reach ok t h) :
    pipeMachine.Reach (fun _ _ => True) t.sys h := by
  induction hr with
  | init h => exact .init h.1
  | @step t t' h out a hr hok hs ih =>
    obtain ⟨⟨s', out'⟩, hr, he⟩ := Option.map_eq_some_iff.mp hs
    cases he
    have hsys : (t.after a s').sys = s' := by cases a <;> rfl
    rw [hsys]
    exact ih.step trivial hr

/-- How many bytes the call of `piperead` of a process has removed, as its code has it. -/
def PipePc.removedSoFar : PipePc → Option Nat
  | .readEnter _ | .readTest _ | .readDoze _ | .readSleep _ => some 0
  | .readLoop _ i => some i
  | _ => none

variable {d : PipePc} {adv : Nat → Nat}

@[simp] lemma PipePc.removedSoFar_wakeReader : d.wakeReader.removedSoFar = d.removedSoFar := by
  cases d <;> rfl

@[simp] lemma PipePc.removedSoFar_wakeWriter : d.wakeWriter.removedSoFar = d.removedSoFar := by
  cases d <;> rfl

def Tallied (s : PipeSys) (advanced : Nat → Nat) : Prop :=
  ∀ q i, (s.pc q).removedSoFar = some i → advanced q = i

variable (ht : Tallied s adv)
include ht

lemma Tallied.of_pc
    (hpc : ∀ q i, (s'.pc q).removedSoFar = some i → (s.pc q).removedSoFar = some i) : Tallied s' adv :=
  fun q i hq => ht q i (hpc q i hq)

lemma Tallied.of_update (hpc : s'.pc = Function.update s.pc p d)
    (hd : d.removedSoFar = none ∨ d.removedSoFar = (s.pc p).removedSoFar) : Tallied s' adv := by
  refine ht.of_pc fun q i hq => ?_
  rw [hpc] at hq
  by_cases he : q = p
  · subst he
    rw [update_self] at hq
    rcases hd with hd | hd
    · rw [hd] at hq
      cases hq
    · rwa [← hd]
  · rwa [update_of_ne he] at hq

lemma Tallied.update {n : Nat}
    (hself : s'.pc p = d) (hother : ∀ q, q ≠ p → (s'.pc q).removedSoFar = (s.pc q).removedSoFar)
    (hd : ∀ i, d.removedSoFar = some i → n = i) : Tallied s' (Function.update adv p n) := by
  intro q i hq
  by_cases he : q = p
  · subst he
    rw [hself] at hq
    rw [update_self]
    exact hd i hq
  · rw [update_of_ne he]
    rw [hother q he] at hq
    exact ht q i hq

lemma Tallied.run {k : Nat} (hs : PipeStep s (.run p) s' out)
    (hk : (s'.pc p).removedSoFar ≠ none → k = (removedBytes out).length) :
    Tallied s' (Function.update adv p (adv p + k)) := by
  cases hs with
  | writeStop hp hi hr => exact ht.update leave_pc_self (fun q hq => by rw [leave_pc_of_ne hq]) nofun
  | writeGo hp hi hro hr => exact ht.update setPc_pc_self (fun q hq => by rw [setPc_pc_of_ne hq]) nofun
  | writeEnd hp hi | writeFull hp hf | writeFault hp hf hc =>
    exact ht.update leave_pc_self (fun q hq => by rw [leave_pc_of_ne hq]; simp) nofun
  | insert hp hf hc => exact ht.update setPc_pc_self (fun q hq => by rw [setPc_pc_of_ne hq]; rfl) nofun
  | readStop hp he hw hr => exact ht.update leave_pc_self (fun q hq => by rw [leave_pc_of_ne hq]) nofun
  | readWait hp he hw hr =>
    refine ht.update setPc_pc_self (fun q hq => by rw [setPc_pc_of_ne hq]) fun i hi => ?_
    rw [hk (by rw [setPc_pc_self]; nofun), ht p i (by rw [hp]; exact hi)]
    rfl
  | readGo hp he =>
    refine ht.update setPc_pc_self (fun q hq => by rw [setPc_pc_of_ne hq]) fun i hi => ?_
    rw [hk (by rw [setPc_pc_self]; nofun), ht p i (by rw [hp]; exact hi)]
    rfl
  | doze hp =>
    refine ht.update leave_pc_self (fun q hq => by rw [leave_pc_of_ne hq]) fun i hi => ?_
    rw [hk (by rw [leave_pc_self]; nofun), ht p i (by rw [hp]; exact hi)]
    rfl
  | readEmpty hp hi he =>
    exact ht.update leave_pc_self (fun q hq => by rw [leave_pc_of_ne hq]; simp) nofun
  | @remove _ i c hp hi he hd =>
    refine ht.update setPc_pc_self (fun q hq => by rw [setPc_pc_of_ne hq]; rfl) fun j hj => ?_
    cases hj
    rw [hk (by rw [setPc_pc_self]; nofun), ht p i (by rw [hp]; rfl)]
    rfl
  | readFault hp hi he hd =>
    refine ht.update leave_pc_self (fun q hq => ?_) nofun
    rw [leave_pc_of_ne hq, wakeWriters_pc, PipePc.removedSoFar_wakeWriter]
    rfl
  | readEnd hp hi => exact ht.update leave_pc_self (fun q hq => by rw [leave_pc_of_ne hq]; simp) nofun

lemma Tallied.read (hs : PipeStep s (.read p c) s' out) :
    Tallied s' (Function.update adv p 0) := by
  cases hs with
  | read hp =>
    refine ht.update (update_self ..) (fun q hq => ?_) (fun i hi => Option.some.inj hi)
    rw [setPc_pc_of_ne hq]

lemma Tallied.other (hs : PipeStep s a s' out)
    (hrun : ∀ p, a ≠ .run p) (hread : ∀ p c, a ≠ .read p c) : Tallied s' adv := by
  cases hs with
  | write hp => exact ht.of_update rfl (.inl rfl)
  | read hp => exact absurd rfl (hread _ _)
  | lockWrite hl hp => exact ht.of_update rfl (.inl rfl)
  | lockRead hl hp => exact ht.of_update rfl (.inr (by rw [hp]; rfl))
  | closeWrite hp hl => exact ht.of_pc fun q i hq => by rwa [← PipePc.removedSoFar_wakeReader]
  | closeRead hp hl => exact ht.of_pc fun q i hq => by rwa [← PipePc.removedSoFar_wakeWriter]
  | kill => exact ht.of_update rfl (.inr (by simp))
  | _ => exact absurd rfl (hrun _)

omit ht

lemma PipeStep.nread_diff (hr : PipeRing s.pipe h) (hs : PipeStep s (.run p) s' out) :
    (s'.pipe.nread + 2 ^ 32 - s.pipe.nread) % 2 ^ 32 = (removedBytes out).length := by
  have hsame : (s.pipe.nread + 2 ^ 32 - s.pipe.nread) % 2 ^ 32 = 0 := by
    rw [Nat.add_sub_cancel_left]
    rfl
  have hnext : (s.pipe.remove.2.nread + 2 ^ 32 - s.pipe.nread) % 2 ^ 32 = 1 := by
    have hlt : s.pipe.nread < 2 ^ 32 := by
      rw [hr.head_eq]
      exact Nat.mod_lt _ (by decide)
    change ((s.pipe.nread + 1) % 2 ^ 32 + 2 ^ 32 - s.pipe.nread) % 2 ^ 32 = 1
    omega
  cases hs with
  | remove hp hi he hd | readFault hp hi he hd => exact hnext
  | _ => exact hsame

lemma PipeStep.handedBy_eq (hs : PipeStep s (.run p) s' out) :
    handedBy s p = removedBytes out ∨ (∃ c i, Copies s p c i ∧ c.dst i = false) ∧
    handedBy s p = [] ∧ s'.pc p = .out := by
  cases hs with
  | remove hp hi he hd => exact .inl (by simp [handedBy, hp, hi, he, hd, removedBytes])
  | readFault hp hi he hd =>
    refine .inr ⟨⟨_, _, ⟨hp, hi, he⟩, hd⟩, by simp [handedBy, hp, hd], leave_pc_self⟩
  | readEmpty hp hi he => exact .inl (by simp [handedBy, hp, he, removedBytes])
  | readEnd hp hi => exact .inl (by simp [handedBy, hp, hi, removedBytes])
  | _ => exact .inl (by simp_all [handedBy, removedBytes])

structure TallyInv (t : PipeTally) : Prop where
  advanced : Tallied t.sys t.advanced
  got : Tallied t.sys fun q => (t.got q).length

lemma TallyInv.step (ht : TallyInv t) (hr : PipeRing t.sys.pipe h) (hs : PipeStep t.sys a s' out)
    (hsys : (t.after a s').sys = s') : TallyInv (t.after a s') := by
  cases a with
  | run p =>
    refine ⟨?_, ?_⟩
    · rw [hsys]
      exact ht.advanced.run hs fun _ => hs.nread_diff hr
    · have hgot := ht.got.run (k := (handedBy t.sys p).length) hs fun hne => ?_
      · rw [hsys]
        refine fun q i hq => ?_
        rw [← hgot q i hq]
        change (Function.update t.got p (t.got p ++ handedBy t.sys p) q).length = _
        by_cases he : q = p
        · subst he
          rw [update_self, update_self, length_append]
        · rw [update_of_ne he, update_of_ne he]
      · rcases hs.handedBy_eq with he | ⟨-, -, hpc⟩
        · rw [he]
        · rw [hpc] at hne
          exact absurd rfl hne
  | read p c =>
    refine ⟨?_, ?_⟩
    · rw [hsys]
      exact ht.advanced.read hs
    · rw [hsys]
      refine fun q i hq => ?_
      rw [← ht.got.read hs q i hq]
      change (Function.update t.got p [] q).length = _
      by_cases he : q = p
      · subst he
        rw [update_self, update_self]
        rfl
      · rw [update_of_ne he, update_of_ne he]
  | _ =>
    refine ⟨?_, ?_⟩
    · rw [hsys]
      exact ht.advanced.other hs nofun nofun
    · rw [hsys]
      exact ht.got.other hs nofun nofun

lemma TallyInv.reach (hr : tallyMachine.Reach ok t h) : TallyInv t := by
  refine hr.invariant (I := fun t _ => TallyInv t) (fun t h0 => ⟨fun q i hq => ?_, fun q i hq => ?_⟩) ?_
  · rw [h0.1.pc] at hq
    cases hq
  · rw [h0.1.pc] at hq
    cases hq
  · intro t t' h out a hr hi _ hs
    obtain ⟨hstep, he⟩ := tally_step_cases hs
    rw [he]
    exact hi.step (PipeFifo.reach (PipeTally.reach_sys hr)).ring hstep (by rw [← he])

lemma handed_eq_removed (hr : tallyMachine.Reach CopyoutOk t h) : t.handed = removedBytes h := by
  refine hr.invariant (I := fun t h => t.handed = removedBytes h) (fun t h0 => h0.2) ?_
  intro t t' h out a _ hi hok hs
  obtain ⟨hstep, he⟩ := tally_step_cases hs
  rw [he, removedBytes_append, ← hi]
  generalize t'.sys = s' at hstep
  cases a with
  | run p =>
    rcases hstep.handedBy_eq with heq | ⟨⟨c, i, hc, hd⟩, -⟩
    · exact congrArg (t.handed ++ ·) heq
    · rw [hok p c i rfl hc] at hd
      cases hd
  | _ => cases hstep <;> exact (append_nil _).symm

lemma TallyInv.returned {r : Int} (ht : TallyInv t) (hr : PipeRing t.sys.pipe h)
    (hs : PipeStep t.sys (.run p) s' out) (hout : .read c r ∈ out) :
    (∀ c i, ¬ Copies t.sys p c i) ∧ (r = -1 ∧ (t.after (.run p) s').advanced p = 0 ∨
      0 ≤ r ∧ ((t.after (.run p) s').advanced p : Int) = r) ∨
    (∃ i, Copies t.sys p c i ∧ c.dst i = false) ∧ 0 ≤ r ∧
    ((t.after (.run p) s').advanced p : Int) = r + 1 := by
  have hadv : (t.after (.run p) s').advanced p = t.advanced p + (removedBytes out).length := by
    rw [← hs.nread_diff hr]
    exact update_self ..
  rw [hadv]
  cases hs with
  | readStop hp he hw hk =>
    simp only [mem_singleton, PipeEvent.read.injEq] at hout
    obtain ⟨rfl, rfl⟩ := hout
    refine .inl ⟨fun c i hc => ?_, .inl ⟨rfl, ?_⟩⟩
    · rw [hc.1] at hp
      cases hp
    · rw [ht.advanced p 0 (by rw [hp]; rfl)]
      rfl
  | @readEmpty _ i c hp hi he =>
    simp only [mem_singleton, PipeEvent.read.injEq] at hout
    obtain ⟨rfl, rfl⟩ := hout
    refine .inl ⟨fun c i hc => ?_, .inr ⟨Int.natCast_nonneg _, ?_⟩⟩
    · rw [hc.2.2] at he
      cases he
    · rw [ht.advanced p i (by rw [hp]; rfl)]
      rfl
  | @readFault _ i c hp hi he hd =>
    simp only [mem_cons, reduceCtorEq, PipeEvent.read.injEq, not_mem_nil, or_false, false_or] at hout
    obtain ⟨rfl, rfl⟩ := hout
    refine .inr ⟨⟨i, ⟨hp, hi, he⟩, hd⟩, Int.natCast_nonneg _, ?_⟩
    rw [ht.advanced p i (by rw [hp]; rfl)]
    rfl
  | @readEnd _ i c hp hi =>
    simp only [mem_singleton, PipeEvent.read.injEq] at hout
    obtain ⟨rfl, rfl⟩ := hout
    refine .inl ⟨fun c j hc => ?_, .inr ⟨Int.natCast_nonneg _, ?_⟩⟩
    · have hp' := hc.1.symm.trans hp
      cases hp'
      exact hi hc.2.1
    · rw [ht.advanced p i (by rw [hp]; rfl)]
      rfl
  | _ => simp at hout

/-- What readers get is what leaves the ring, in order, as long as every `copyout` succeeds; a call
reports what it has removed if and only if no `copyout` of it fails. -/
theorem piperead_delivers_removed (hr : tallyMachine.Reach CopyoutOk t h) :
    t.handed = removedBytes h ∧ t.handed <+: insertedBytes h ∧
      ∀ p t' out c r, t.step (.run p) = some (t', out) → .read c r ∈ out →
        (CopyoutOk t (.run p) ↔ r = -1 ∧ t'.advanced p = 0 ∨ 0 ≤ r ∧ (t'.advanced p : Int) = r) := by
  have hring := (PipeFifo.reach (PipeTally.reach_sys hr)).ring
  have heq := handed_eq_removed hr
  refine ⟨heq, by rw [heq]; exact hring.taken, ?_⟩
  intro p t' out c r hs hout
  obtain ⟨hstep, he⟩ := tally_step_cases hs
  rcases (TallyInv.reach hr).returned hring hstep hout with ⟨hno, hret⟩ | ⟨⟨i, hc, hd⟩, hr0, hadv⟩
  · rw [← he] at hret
    refine ⟨fun _ => hret, fun _ q c i hq hc => ?_⟩
    cases hq
    exact absurd hc (hno c i)
  · rw [← he] at hadv
    constructor
    · intro hok
      rw [hok p c i rfl hc] at hd
      cases hd
    · intro hret
      omega

def PipePc.loopAt : PipePc → Option (ReadCall × Nat)
  | .readLoop c i => some (c, i)
  | _ => none

@[simp] lemma PipePc.loopAt_wakeReader : d.wakeReader.loopAt = d.loopAt := by
  cases d <;> rfl

@[simp] lemma PipePc.loopAt_wakeWriter : d.wakeWriter.loopAt = d.loopAt := by
  cases d <;> rfl

def PipeBounded (s : PipeSys) : Prop := ∀ q x, (s.pc q).loopAt = some x → (x.2 : Int) ≤ max x.1.n 0

lemma PipeBounded.update (hb : PipeBounded s) (hself : s'.pc p = d)
    (hother : ∀ q, q ≠ p → (s'.pc q).loopAt = (s.pc q).loopAt)
    (hd : ∀ x, d.loopAt = some x → (x.2 : Int) ≤ max x.1.n 0) : PipeBounded s' := by
  intro q x hq
  by_cases he : q = p
  · subst he
    rw [hself] at hq
    exact hd x hq
  · rw [hother q he] at hq
    exact hb q x hq

lemma PipeBounded.step (hb : PipeBounded s) (hs : PipeStep s a s' out) : PipeBounded s' := by
  cases hs with
  | readGo hp he =>
    refine hb.update setPc_pc_self (fun q hq => by rw [setPc_pc_of_ne hq]) fun x hx => ?_
    cases hx
    exact le_max_right _ _
  | remove hp hi he hd =>
    refine hb.update setPc_pc_self (fun q hq => by rw [setPc_pc_of_ne hq]; rfl) fun x hx => ?_
    cases hx
    dsimp only
    omega
  | write hp | lockWrite hl hp | lockRead hl hp =>
    exact hb.update (update_self ..) (fun q hq => congrArg PipePc.loopAt (update_of_ne hq ..)) nofun
  | read hp => exact hb.update (update_self ..) (fun q hq => by rw [setPc_pc_of_ne hq]) nofun
  | writeStop hp hi hk | readStop hp he hw hk | doze hp =>
    exact hb.update leave_pc_self (fun q hq => by rw [leave_pc_of_ne hq]) nofun
  | writeGo hp hi hro hk | readWait hp he hw hk =>
    exact hb.update setPc_pc_self (fun q hq => by rw [setPc_pc_of_ne hq]) nofun
  | insert hp hf hc => exact hb.update setPc_pc_self (fun q hq => by rw [setPc_pc_of_ne hq]; rfl) nofun
  | writeEnd hp hi | writeFull hp hf | writeFault hp hf hc | readEmpty hp hi he | readEnd hp hi =>
    exact hb.update leave_pc_self (fun q hq => by rw [leave_pc_of_ne hq]; simp) nofun
  | readFault hp hi he hd =>
    refine hb.update leave_pc_self (fun q hq => ?_) nofun
    rw [leave_pc_of_ne hq, wakeWriters_pc, PipePc.loopAt_wakeWriter]
    rfl
  | closeWrite hp hl => exact fun q x hq => hb q x (by rwa [← PipePc.loopAt_wakeReader])
  | closeRead hp hl => exact fun q x hq => hb q x (by rwa [← PipePc.loopAt_wakeWriter])
  | @kill p =>
    refine fun q x hq => hb q x ?_
    by_cases he : q = p
    · subst he
      rw [show (killPipe s q).pc q = _ from update_self ..] at hq
      simpa using hq
    · rwa [show (killPipe s p).pc q = _ from update_of_ne he ..] at hq

lemma PipeBounded.reach {ok : PipeSys → PipeAct → Prop} (hr : pipeMachine.Reach ok s h) :
    PipeBounded s := by
  refine hr.invariant (I := fun s _ => PipeBounded s) (fun s h0 q x hq => ?_) ?_
  · rw [h0.pc] at hq
    cases hq
  · intro s s' h out a _ hi _ hs
    exact hi.step (pipe_step_cases hs)

/-- A call `c` of `piperead` returns `r`, after it has stored `got`, in some run of the pipe. -/
def PipereadReturns (c : ReadCall) (r : Int) (got : List UInt8) : Prop :=
  ∃ t h t' out p, tallyMachine.Reach (fun _ _ => True) t h ∧ t.step (.run p) = some (t', out) ∧
    .read c r ∈ out ∧ t'.got p = got

lemma PipereadReturns.bounded {r : Int} {got : List UInt8} (hp : PipereadReturns c r got) :
    r ≤ max c.n 0 ∧ (got.length : Int) ≤ max c.n 0 := by
  obtain ⟨t, h, t', out, p, hr, hs, hout, rfl⟩ := hp
  obtain ⟨hstep, he⟩ := tally_step_cases hs
  have hb := PipeBounded.reach (PipeTally.reach_sys hr)
  have ht : ∀ q i, (t.sys.pc q).removedSoFar = some i → (t.got q).length = i := (TallyInv.reach hr).got
  have hgot : t'.got p = t.got p ++ handedBy t.sys p := by
    rw [he]
    exact update_self ..
  generalize t'.sys = s' at hstep
  rw [hgot, length_append]
  cases hstep with
  | readStop hp he hw hk =>
    simp only [mem_singleton, PipeEvent.read.injEq] at hout
    obtain ⟨rfl, rfl⟩ := hout
    rw [ht p 0 (by rw [hp]; rfl)]
    simp [handedBy, hp]
  | @readEmpty _ i c hp hi he =>
    simp only [mem_singleton, PipeEvent.read.injEq] at hout
    obtain ⟨rfl, rfl⟩ := hout
    have hle := hb p (c, i) (by rw [hp]; rfl)
    rw [ht p i (by rw [hp]; rfl)]
    simpa [handedBy, hp, he] using hle
  | @readFault _ i c hp hi he hd =>
    simp only [mem_cons, reduceCtorEq, PipeEvent.read.injEq, not_mem_nil, or_false, false_or] at hout
    obtain ⟨rfl, rfl⟩ := hout
    have hle := hb p (c, i) (by rw [hp]; rfl)
    rw [ht p i (by rw [hp]; rfl)]
    simpa [handedBy, hp, hd] using hle
  | @readEnd _ i c hp hi =>
    simp only [mem_singleton, PipeEvent.read.injEq] at hout
    obtain ⟨rfl, rfl⟩ := hout
    have hle := hb p (c, i) (by rw [hp]; rfl)
    rw [ht p i (by rw [hp]; rfl)]
    simpa [handedBy, hp, hi] using hle
  | _ => simp at hout

end

def emptyTally : PipeTally := ⟨emptyPipe, fun _ => 0, fun _ => [], []⟩

lemma emptyTally_init : tallyMachine.init emptyTally := ⟨emptyPipe_fresh, rfl⟩

theorem piperead_delivers_removed_one : ∃ t h, tallyMachine.Reach CopyoutOk t h ∧ t.handed = [7] ∧
    insertedBytes h = [7, 8] ∧ t.handed = removedBytes h := by
  have h0 : tallyMachine.Reach CopyoutOk emptyTally [] := .init emptyTally_init
  have h1 := h0.step (a := .write 1 ⟨fun i => [7, 8][i]?, 2⟩) nofun rfl
  have h2 := h1.step (a := .acquire 1) nofun rfl
  have h3 := h2.step (a := .run 1) (fun p c i hp hc => by cases hp; cases hc.1) rfl
  have h4 := h3.step (a := .run 1) (fun p c i hp hc => by cases hp; cases hc.1) rfl
  have h5 := h4.step (a := .run 1) (fun p c i hp hc => by cases hp; cases hc.1) rfl
  have h6 := h5.step (a := .run 1) (fun p c i hp hc => by cases hp; cases hc.1) rfl
  have h7 := h6.step (a := .run 1) (fun p c i hp hc => by cases hp; cases hc.1) rfl
  have h8 := h7.step (a := .read 2 ⟨fun _ => true, 1⟩) nofun rfl
  have h9 := h8.step (a := .acquire 2) nofun rfl
  have h10 := h9.step (a := .run 2) (fun p c i hp hc => by cases hp; cases hc.1) rfl
  have h11 := h10.step (a := .run 2) (fun p c i hp hc => by cases hp; cases hc.1; rfl) rfl
  exact ⟨_, _, h11, rfl, rfl, (piperead_delivers_removed h11).1⟩

/-- The reader's page is not mapped: its call returns 0 after it has moved `pi->nread`, and
the next reader gets the second byte. -/
theorem piperead_loses_byte : ∃ t h t' out t'' h'', tallyMachine.Reach (fun _ _ => True) t h ∧
    t.step (.run 2) = some (t', out) ∧ .read ⟨fun _ => false, 1⟩ 0 ∈ out ∧ t'.advanced 2 = 1 ∧
    tallyMachine.Reach (fun _ _ => True) t'' h'' ∧ insertedBytes h'' = [7, 8] ∧ t''.handed = [8] := by
  have h0 : tallyMachine.Reach (fun _ _ => True) emptyTally [] := .init emptyTally_init
  have h1 := h0.step (a := .write 1 ⟨fun i => [7, 8][i]?, 2⟩) trivial rfl
  have h2 := h1.step (a := .acquire 1) trivial rfl
  have h3 := h2.step (a := .run 1) trivial rfl
  have h4 := h3.step (a := .run 1) trivial rfl
  have h5 := h4.step (a := .run 1) trivial rfl
  have h6 := h5.step (a := .run 1) trivial rfl
  have h7 := h6.step (a := .run 1) trivial rfl
  have h8 := h7.step (a := .read 2 ⟨fun _ => false, 1⟩) trivial rfl
  have h9 := h8.step (a := .acquire 2) trivial rfl
  have h10 := h9.step (a := .run 2) trivial rfl
  have h11 := h10.step (a := .run 2) trivial rfl
  have h12 := h11.step (a := .read 3 ⟨fun _ => true, 1⟩) trivial rfl
  have h13 := h12.step (a := .acquire 3) trivial rfl
  have h14 := h13.step (a := .run 3) trivial rfl
  have h15 := h14.step (a := .run 3) trivial rfl
  exact ⟨_, _, _, _, _, _, h10, rfl, mem_cons_of_mem _ mem_cons_self, rfl, h15, rfl, rfl⟩

end Xv6
