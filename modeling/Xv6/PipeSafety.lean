import Xv6.Lib.Ring
import Xv6.PipeModel

/-! The ring buffer of a pipe is a queue, and who sleeps on a pipe has a reason to. -/

namespace Xv6

open List
open Function (update update_of_ne update_self)

open PipeSys

/-- The steps of the pipe, one constructor for each way through the code. -/
inductive PipeStep (s : PipeSys) : PipeAct → PipeSys → List PipeEvent → Prop
  | write {p : Nat} {c : WriteCall} (hp : s.pc p = .out) :
      PipeStep s (.write p c) { s.setPc p (.writeEnter s.calls c 0) with calls := s.calls + 1 }
      [.called s.calls c]
  | read {p : Nat} {c : ReadCall} (hp : s.pc p = .out) :
      PipeStep s (.read p c) (s.setPc p (.readEnter c)) []
  | lockWrite {p k i : Nat} {c : WriteCall} (hl : s.lock = none) (hp : s.pc p = .writeEnter k c i) :
      PipeStep s (.acquire p) { s.setPc p (.writeTest k c i) with lock := some p } []
  | lockRead {p : Nat} {c : ReadCall} (hl : s.lock = none) (hp : s.pc p = .readEnter c) :
      PipeStep s (.acquire p) { s.setPc p (.readTest c) with lock := some p } []
  | writeStop {p k i : Nat} {c : WriteCall} (hp : s.pc p = .writeTest k c i) (hi : (i : Int) < c.n)
      (hk : s.pipe.readopen = false ∨ s.killed p = true) :
      PipeStep s (.run p) (s.leave p .out) [.wrote k (-1)]
  | writeGo {p k i : Nat} {c : WriteCall} (hp : s.pc p = .writeTest k c i) (hi : (i : Int) < c.n)
      (hr : s.pipe.readopen = true) (hk : s.killed p = false) :
      PipeStep s (.run p) (s.setPc p (.writeBody k c i)) []
  | writeEnd {p k i : Nat} {c : WriteCall} (hp : s.pc p = .writeTest k c i)
      (hi : ¬ (i : Int) < c.n) : PipeStep s (.run p) (s.wakeReaders.leave p .out) [.wrote k i]
  | writeFull {p k i : Nat} {c : WriteCall} (hp : s.pc p = .writeBody k c i)
      (hf : s.pipe.isFull = true) :
      PipeStep s (.run p) (s.wakeReaders.leave p (.writeSleep k c i)) []
  | writeFault {p k i : Nat} {c : WriteCall} (hp : s.pc p = .writeBody k c i)
      (hf : s.pipe.isFull = false)
      (hc : c.src i = none) : PipeStep s (.run p) (s.wakeReaders.leave p .out) [.wrote k i]
  | insert {p k i : Nat} {c : WriteCall} {ch : UInt8} (hp : s.pc p = .writeBody k c i)
      (hf : s.pipe.isFull = false) (hc : c.src i = some ch) :
      PipeStep s (.run p) ((s.setPipe (s.pipe.insert ch)).setPc p (.writeTest k c (i + 1)))
      [.inserted k ch]
  | readStop {p : Nat} {c : ReadCall} (hp : s.pc p = .readTest c) (he : s.pipe.isEmpty = true)
      (hw : s.pipe.writeopen = true) (hk : s.killed p = true) :
      PipeStep s (.run p) (s.leave p .out) [.read c (-1)]
  | readWait {p : Nat} {c : ReadCall} (hp : s.pc p = .readTest c) (he : s.pipe.isEmpty = true)
      (hw : s.pipe.writeopen = true) (hk : s.killed p = false) :
      PipeStep s (.run p) (s.setPc p (.readDoze c)) []
  | readGo {p : Nat} {c : ReadCall} (hp : s.pc p = .readTest c)
      (he : ¬ (s.pipe.isEmpty = true ∧ s.pipe.writeopen = true)) :
      PipeStep s (.run p) (s.setPc p (.readLoop c 0)) []
  | doze {p : Nat} {c : ReadCall} (hp : s.pc p = .readDoze c) :
      PipeStep s (.run p) (s.leave p (.readSleep c)) []
  | readEmpty {p i : Nat} {c : ReadCall} (hp : s.pc p = .readLoop c i) (hi : (i : Int) < c.n)
      (he : s.pipe.isEmpty = true) : PipeStep s (.run p) (s.wakeWriters.leave p .out) [.read c i]
  | remove {p i : Nat} {c : ReadCall} (hp : s.pc p = .readLoop c i) (hi : (i : Int) < c.n)
      (he : s.pipe.isEmpty = false) (hd : c.dst i = true) :
      PipeStep s (.run p) ((s.setPipe s.pipe.remove.2).setPc p (.readLoop c (i + 1)))
      [.removed s.pipe.remove.1]
  | readFault {p i : Nat} {c : ReadCall} (hp : s.pc p = .readLoop c i) (hi : (i : Int) < c.n)
      (he : s.pipe.isEmpty = false) (hd : c.dst i = false) :
      PipeStep s (.run p) ((s.setPipe s.pipe.remove.2).wakeWriters.leave p .out)
        [.removed s.pipe.remove.1, .read c i]
  | readEnd {p i : Nat} {c : ReadCall} (hp : s.pc p = .readLoop c i) (hi : ¬ (i : Int) < c.n) :
      PipeStep s (.run p) (s.wakeWriters.leave p .out) [.read c i]
  | closeWrite {p : Nat} (hp : s.pc p = .out) (hl : s.lock = none) :
      PipeStep s (.close p true) { (s.setPipe (s.pipe.close true)).wakeReaders with
        freed := !s.pipe.readopen } []
  | closeRead {p : Nat} (hp : s.pc p = .out) (hl : s.lock = none) :
      PipeStep s (.close p false) { (s.setPipe (s.pipe.close false)).wakeWriters with
        freed := !s.pipe.writeopen } []
  | kill {p : Nat} : PipeStep s (.kill p) (killPipe s p) []

variable {s s' : PipeSys} {out h : List PipeEvent}

lemma runPipe_cases {p : Nat} (h : runPipe s p = some (s', out)) :
    PipeStep s (.run p) s' out := by
  unfold runPipe at h
  split at h
  next k c i hp =>
    split_ifs at h with hi hk <;> cases h
    · exact .writeStop hp hi hk
    · obtain ⟨hr, hk⟩ := not_or.mp hk
      exact .writeGo hp hi (by simpa using hr) (by simpa using hk)
    · exact .writeEnd hp hi
  next k c i hp =>
    split_ifs at h with hf
    · cases h
      exact .writeFull hp hf
    · cases hc : c.src i with
      | none =>
        rw [hc] at h
        cases h
        exact .writeFault hp (by simpa using hf) hc
      | some ch =>
        rw [hc] at h
        cases h
        exact .insert hp (by simpa using hf) hc
  next c hp =>
    split_ifs at h with he hk <;> cases h
    · exact .readStop hp he.1 he.2 hk
    · exact .readWait hp he.1 he.2 (by simpa using hk)
    · exact .readGo hp he
  next c hp =>
    cases h
    exact .doze hp
  next c i hp =>
    split_ifs at h with hi he hd <;> cases h
    · exact .readEmpty hp hi he
    · exact .remove hp hi (by simpa using he) hd
    · exact .readFault hp hi (by simpa using he) (by simpa using hd)
    · exact .readEnd hp hi
  next => cases h

lemma pipe_step_cases {a : PipeAct} (h : s.step a = some (s', out)) :
    PipeStep s a s' out := by
  unfold PipeSys.step at h
  split_ifs at h
  cases a with
  | write p c =>
    cases hp : s.pc p <;> simp only [hp, Option.some.injEq, Prod.mk.injEq, reduceCtorEq] at h
    obtain ⟨rfl, rfl⟩ := h
    exact .write hp
  | read p c =>
    cases hp : s.pc p <;> simp only [hp, Option.some.injEq, Prod.mk.injEq, reduceCtorEq] at h
    obtain ⟨rfl, rfl⟩ := h
    exact .read hp
  | acquire p =>
    simp only [acquirePipe, Option.map_eq_some_iff] at h
    obtain ⟨s1, h, he⟩ := h
    cases he
    split_ifs at h with hl
    cases hp : s.pc p <;> simp only [hp, Option.some.injEq, reduceCtorEq] at h
    · subst h
      exact .lockWrite hl hp
    · subst h
      exact .lockRead hl hp
  | run p => exact runPipe_cases h
  | close p writable =>
    simp only [pipeclose, Option.map_eq_some_iff] at h
    obtain ⟨s1, h, he⟩ := h
    cases he
    cases hp : s.pc p <;> cases hl : s.lock <;> simp only [hp, hl, Option.some.injEq, reduceCtorEq] at h
    subst h
    cases writable with
    | true => simpa [Pipe.close, setPipe, wakeReaders] using PipeStep.closeWrite hp hl
    | false => simpa [Pipe.close, setPipe, wakeWriters] using PipeStep.closeRead hp hl
  | kill p =>
    cases h
    exact .kill

/-- The bytes that were put into the ring, in order. -/
def insertedBytes (h : List PipeEvent) : List UInt8 :=
  h.filterMap fun e => match e with | .inserted _ ch => some ch | _ => none

/-- The bytes that were taken out, in order. -/
def removedBytes (h : List PipeEvent) : List UInt8 :=
  h.filterMap fun e => match e with | .removed ch => some ch | _ => none

def insertedBy (k : Nat) (h : List PipeEvent) : List UInt8 :=
  h.filterMap fun e => match e with | .inserted k' ch => if k' = k then some ch else none | _ => none

section

variable {s s' : PipeSys} {p q : Nat} {c : PipePc} {a : PipeAct} {out : List PipeEvent}

@[simp] lemma PipeSys.setPc_pc_self : (s.setPc p c).pc p = c := update_self ..

lemma PipeSys.setPc_pc_of_ne (h : q ≠ p) : (s.setPc p c).pc q = s.pc q := update_of_ne h ..

@[simp] lemma leave_pc_self : (s.leave p c).pc p = c := update_self ..

lemma leave_pc_of_ne (h : q ≠ p) : (s.leave p c).pc q = s.pc q := update_of_ne h ..

@[simp] lemma PipePc.holds_wakeReader : c.wakeReader.holds = c.holds := by
  cases c <;> rfl

@[simp] lemma PipePc.holds_wakeWriter : c.wakeWriter.holds = c.holds := by
  cases c <;> rfl

@[simp] lemma wakeReaders_pc : s.wakeReaders.pc q = (s.pc q).wakeReader := rfl

@[simp] lemma wakeWriters_pc : s.wakeWriters.pc q = (s.pc q).wakeWriter := rfl

/-- Who is in a critical section has the lock. -/
def PipeLocks (s : PipeSys) : Prop := ∀ q, (s.pc q).holds = true ↔ s.lock = some q

lemma PipeLocks.setPc (h : PipeLocks s) (hc : c.holds = (s.pc p).holds) : PipeLocks (s.setPc p c) := by
  intro q
  by_cases hq : q = p
  · subst hq
    rw [PipeSys.setPc_pc_self, hc]
    exact h q
  · rw [PipeSys.setPc_pc_of_ne hq]
    exact h q

lemma PipeLocks.take (h : PipeLocks s) (hl : s.lock = none) (hc : c.holds = true) :
    PipeLocks { s.setPc p c with lock := some p } := by
  intro q
  change ((s.setPc p c).pc q).holds = true ↔ some p = some q
  by_cases hq : q = p
  · subst hq
    simp [hc]
  · rw [PipeSys.setPc_pc_of_ne hq, h q, hl]
    simp [Ne.symm hq]

lemma PipeLocks.leave (h : PipeLocks s) (hp : (s.pc p).holds = true) (hc : c.holds = false) :
    PipeLocks (s.leave p c) := by
  intro q
  change ((s.leave p c).pc q).holds = true ↔ none = some q
  by_cases hq : q = p
  · subst hq
    simp [hc]
  · rw [leave_pc_of_ne hq, h q, (h p).mp hp]
    simp [Ne.symm hq]

lemma PipeLocks.wakeReaders (h : PipeLocks s) : PipeLocks s.wakeReaders := by
  intro q
  rw [wakeReaders_pc, PipePc.holds_wakeReader]
  exact h q

lemma PipeLocks.wakeWriters (h : PipeLocks s) : PipeLocks s.wakeWriters := by
  intro q
  rw [wakeWriters_pc, PipePc.holds_wakeWriter]
  exact h q

lemma PipeLocks.step (h : PipeLocks s) (hs : PipeStep s a s' out) : PipeLocks s' := by
  cases hs with
  | write hp => exact PipeLocks.setPc h (by rw [hp]; rfl)
  | read hp => exact h.setPc (by rw [hp]; rfl)
  | lockWrite hl hp => exact h.take hl rfl
  | lockRead hl hp => exact h.take hl rfl
  | writeStop hp hi hk => exact h.leave (by rw [hp]; rfl) rfl
  | writeGo hp hi hr hk => exact h.setPc (by rw [hp]; rfl)
  | writeEnd hp hi => exact h.wakeReaders.leave (by rw [wakeReaders_pc, hp]; rfl) rfl
  | writeFull hp hf => exact h.wakeReaders.leave (by rw [wakeReaders_pc, hp]; rfl) rfl
  | writeFault hp hf hc => exact h.wakeReaders.leave (by rw [wakeReaders_pc, hp]; rfl) rfl
  | @insert p k i c ch hp hf hc =>
    exact PipeLocks.setPc
      (s := s.setPipe (s.pipe.insert ch)) h (by change _ = (s.pc p).holds; rw [hp]; rfl)
  | readStop hp he hw hk => exact h.leave (by rw [hp]; rfl) rfl
  | readWait hp he hw hk => exact h.setPc (by rw [hp]; rfl)
  | readGo hp he => exact h.setPc (by rw [hp]; rfl)
  | doze hp => exact h.leave (by rw [hp]; rfl) rfl
  | readEmpty hp hi he => exact h.wakeWriters.leave (by rw [wakeWriters_pc, hp]; rfl) rfl
  | @remove p i c hp hi he hd =>
    exact PipeLocks.setPc
      (s := s.setPipe s.pipe.remove.2) h (by change _ = (s.pc p).holds; rw [hp]; rfl)
  | @readFault p i c hp hi he hd =>
    have h' : PipeLocks (s.setPipe s.pipe.remove.2) := h
    exact h'.wakeWriters.leave (by rw [wakeWriters_pc, setPipe, hp]; rfl) rfl
  | readEnd hp hi => exact h.wakeWriters.leave (by rw [wakeWriters_pc, hp]; rfl) rfl
  | closeWrite hp hl =>
    have h' : PipeLocks (s.setPipe (s.pipe.close true)) := h
    exact h'.wakeReaders
  | closeRead hp hl =>
    have h' : PipeLocks (s.setPipe (s.pipe.close false)) := h
    exact h'.wakeWriters
  | kill => exact PipeLocks.setPc h (by simp)

end

section

variable {s s' : PipeSys} {h out : List PipeEvent} {a : PipeAct}

@[simp] lemma insertedBytes_append : insertedBytes (h ++ out) = insertedBytes h ++ insertedBytes out :=
  filterMap_append

@[simp] lemma removedBytes_append : removedBytes (h ++ out) = removedBytes h ++ removedBytes out :=
  filterMap_append

@[simp] lemma insertedBy_append {k : Nat} :
    insertedBy k (h ++ out) = insertedBy k h ++ insertedBy k out :=
  filterMap_append

def PipeRing (pi : Pipe) (h : List PipeEvent) : Prop :=
  RingRep pipeSize (2 ^ 32) pi.data pi.nread pi.nwrite (insertedBytes h) (removedBytes h)

variable {pi : Pipe}

section

variable (hr : PipeRing pi h)
include hr

lemma PipeRing.isEmpty_iff :
    pi.isEmpty = true ↔ removedBytes h = insertedBytes h := by
  rw [← RingRep.empty_iff hr (by decide)]
  exact decide_eq_true_iff

lemma PipeRing.isFull_iff :
    pi.isFull = true ↔ (insertedBytes h).length = (removedBytes h).length + pipeSize := by
  rw [← RingRep.full_iff hr (by decide)]
  exact decide_eq_true_iff

lemma PipeRing.insert (hf : pi.isFull = false) (k : Nat) (ch : UInt8) :
    PipeRing (pi.insert ch) (h ++ [.inserted k ch]) := by
  have hlen : ¬ (insertedBytes h).length = (removedBytes h).length + pipeSize := by
    rw [← hr.isFull_iff, hf]
    simp
  have hroom : (insertedBytes h).length < (removedBytes h).length + pipeSize := by
    have hc := hr.count_le
    omega
  have hrem : removedBytes (h ++ [.inserted k ch]) = removedBytes h := by
    rw [removedBytes_append]
    exact append_nil _
  unfold PipeRing
  rw [insertedBytes_append, hrem]
  exact RingRep.push hr (by decide) hroom ch

lemma PipeRing.other (h1 : insertedBytes out = []) (h2 : removedBytes out = []) :
    PipeRing pi (h ++ out) := by
  unfold PipeRing
  rw [insertedBytes_append, removedBytes_append, h1, h2, append_nil, append_nil]
  exact hr

lemma PipeRing.remove (he : pi.isEmpty = false) :
    PipeRing pi.remove.2 (h ++ [.removed pi.remove.1]) := by
  have hne : removedBytes h ≠ insertedBytes h := by
    intro heq
    rw [hr.isEmpty_iff.mpr heq] at he
    cases he
  have hins : insertedBytes (h ++ [.removed pi.remove.1]) = insertedBytes h := by
    rw [insertedBytes_append]
    exact append_nil _
  unfold PipeRing
  rw [removedBytes_append, hins]
  exact (RingRep.pop hr (by decide) hne).2

end

/-- The ring is a queue after each step. -/
lemma PipeRing.step (hr : PipeRing s.pipe h) (hs : PipeStep s a s' out) :
    PipeRing s'.pipe (h ++ out) := by
  cases hs with
  | insert hp hf hc => exact hr.insert hf _ _
  | remove hp hi he hd => exact hr.remove he
  | @readFault p i c hp hi he hd =>
    have hr' : PipeRing s.pipe.remove.2 (h ++ [.removed s.pipe.remove.1] ++ [.read c i]) :=
      (hr.remove he).other rfl rfl
    rwa [append_assoc] at hr'
  | _ => exact hr.other rfl rfl

end

section

variable {s s' : PipeSys} {h out : List PipeEvent} {a : PipeAct} {p q k i : Nat} {c : WriteCall}

def PipePc.call : PipePc → Option (Nat × WriteCall × Nat)
  | .writeEnter k c i | .writeTest k c i | .writeBody k c i | .writeSleep k c i => some (k, c, i)
  | _ => none

/-- The call `k` has put in its first `i` bytes. -/
def CallAt (h : List PipeEvent) (k : Nat) (c : WriteCall) (i : Nat) : Prop :=
  .called k c ∈ h ∧ (insertedBy k h).map some = (List.range i).map c.src

structure PipeCalls (s : PipeSys) (h : List PipeEvent) : Prop where
  bound : ∀ k c, .called k c ∈ h → k < s.calls
  fresh : ∀ k, s.calls ≤ k → insertedBy k h = []
  same : ∀ k c c', .called k c ∈ h → .called k c' ∈ h → c = c'
  inOrder : ∀ k c, .called k c ∈ h → ∃ i, CallAt h k c i
  own : ∀ p k c i, (s.pc p).call = some (k, c, i) → CallAt h k c i
  apart : ∀ p q k c i c' i', (s.pc p).call = some (k, c, i) → (s.pc q).call = some (k, c', i') → p = q

lemma CallAt.append (hc : CallAt h k c i) (ho : insertedBy k out = []) : CallAt (h ++ out) k c i := by
  refine ⟨mem_append_left _ hc.1, ?_⟩
  rw [insertedBy_append, ho, append_nil]
  exact hc.2

lemma PipeCalls.other (hi : PipeCalls s h) (hcalls : s'.calls = s.calls)
    (hpc : ∀ q x, (s'.pc q).call = some x → (s.pc q).call = some x)
    (h1 : ∀ k c, .called k c ∉ out) (h2 : ∀ k, insertedBy k out = []) : PipeCalls s' (h ++ out) := by
  have hmem : ∀ {k c}, .called k c ∈ h ++ out → .called k c ∈ h := by
    intro k c hm
    exact (mem_append.mp hm).resolve_right (h1 k c)
  refine ⟨?_, ?_, ?_, ?_, ?_, ?_⟩
  · intro k c hm
    rw [hcalls]
    exact hi.bound k c (hmem hm)
  · intro k hk
    rw [insertedBy_append, h2, append_nil]
    exact hi.fresh k (by omega)
  · exact fun k c c' hm hm' => hi.same k c c' (hmem hm) (hmem hm')
  · intro k c hm
    obtain ⟨i, hc⟩ := hi.inOrder k c (hmem hm)
    exact ⟨i, hc.append (h2 k)⟩
  · exact fun p k c i hp => (hi.own p k c i (hpc _ _ hp)).append (h2 k)
  · exact fun p q k c i c' i' hp hq => hi.apart p q k c i c' i' (hpc _ _ hp) (hpc _ _ hq)

lemma PipeCalls.start (hi : PipeCalls s h) (hp : s.pc p = .out) :
    PipeCalls { s.setPc p (.writeEnter s.calls c 0) with calls := s.calls + 1 }
    (h ++ [.called s.calls c]) := by
  have hpc : ∀ q x, q ≠ p → ((s.setPc p (.writeEnter s.calls c 0)).pc q).call = some x →
    (s.pc q).call = some x := by
    intro q x hq hx
    rwa [PipeSys.setPc_pc_of_ne hq] at hx
  have hnew : CallAt (h ++ [.called s.calls c]) s.calls c 0 := by
    refine ⟨mem_append_right _ (mem_singleton.mpr rfl), ?_⟩
    rw [insertedBy_append, hi.fresh _ le_rfl]
    rfl
  have hmem : ∀ {k c'}, .called k c' ∈ h ++ [.called s.calls c] → .called k c' ∈ h ∨
    k = s.calls ∧ c' = c := by
    intro k c' hm
    rcases mem_append.mp hm with hm | hm
    · exact .inl hm
    · cases mem_singleton.mp hm
      exact .inr ⟨rfl, rfl⟩
  have hold : ∀ q x, q ≠ p → ((s.setPc p (.writeEnter s.calls c 0)).pc q).call = some x →
    x.1 < s.calls :=
    fun q x hq hx => hi.bound _ _ (hi.own q x.1 x.2.1 x.2.2 (hpc q x hq hx)).1
  refine ⟨?_, ?_, ?_, ?_, ?_, ?_⟩
  · intro k c' hm
    change k < s.calls + 1
    rcases hmem hm with hm | ⟨rfl, -⟩
    · exact (hi.bound k c' hm).trans (Nat.lt_succ_self _)
    · exact Nat.lt_succ_self _
  · intro k hk
    change s.calls + 1 ≤ k at hk
    rw [insertedBy_append, hi.fresh k (by omega)]
    rfl
  · intro k c1 c2 hm1 hm2
    rcases hmem hm1 with hm1 | ⟨rfl, rfl⟩ <;> rcases hmem hm2 with hm2 | ⟨hk, hc⟩
    · exact hi.same k c1 c2 hm1 hm2
    · subst hk
      exact absurd (hi.bound _ _ hm1) (Nat.lt_irrefl _)
    · exact absurd (hi.bound _ _ hm2) (Nat.lt_irrefl _)
    · exact hc.symm
  · intro k c' hm
    rcases hmem hm with hm | ⟨rfl, rfl⟩
    · obtain ⟨i, hc⟩ := hi.inOrder k c' hm
      exact ⟨i, hc.append rfl⟩
    · exact ⟨0, hnew⟩
  · intro q k c' i hq
    by_cases hqp : q = p
    · subst hqp
      change ((s.setPc q (.writeEnter s.calls c 0)).pc q).call = some (k, c', i) at hq
      rw [PipeSys.setPc_pc_self] at hq
      cases hq
      exact hnew
    · exact (hi.own q k c' i (hpc q _ hqp hq)).append rfl
  · intro q r k c1 i1 c2 i2 hq hr
    change ((s.setPc p (.writeEnter s.calls c 0)).pc q).call = some (k, c1, i1) at hq
    change ((s.setPc p (.writeEnter s.calls c 0)).pc r).call = some (k, c2, i2) at hr
    by_cases hqp : q = p <;> by_cases hrp : r = p
    · rw [hqp, hrp]
    · have hlt := hold r _ hrp hr
      subst hqp
      rw [PipeSys.setPc_pc_self] at hq
      cases hq
      exact absurd hlt (Nat.lt_irrefl _)
    · have hlt := hold q _ hqp hq
      subst hrp
      rw [PipeSys.setPc_pc_self] at hr
      cases hr
      exact absurd hlt (Nat.lt_irrefl _)
    · exact hi.apart q r k c1 i1 c2 i2 (hpc q _ hqp hq) (hpc r _ hrp hr)

lemma PipeCalls.insert {ch : UInt8} {pi : Pipe} (hi : PipeCalls s h)
    (hp : s.pc p = .writeBody k c i) (hc : c.src i = some ch) :
    PipeCalls ((s.setPipe pi).setPc p (.writeTest k c (i + 1))) (h ++ [.inserted k ch]) := by
  have hown := hi.own p k c i (by rw [hp]; rfl)
  have hmem : ∀ {k' c'}, .called k' c' ∈ h ++ [.inserted k ch] → .called k' c' ∈ h := by
    intro k' c' hm
    rcases mem_append.mp hm with hm | hm
    · exact hm
    · cases mem_singleton.mp hm
  have hnew : CallAt (h ++ [.inserted k ch]) k c (i + 1) := by
    refine ⟨mem_append_left _ hown.1, ?_⟩
    have hone : insertedBy k [.inserted k ch] = [ch] := by simp [insertedBy]
    rw [insertedBy_append, hone, map_append, hown.2, range_succ, map_append]
    simp [hc]
  have hother : ∀ k', k' ≠ k → insertedBy k' [.inserted k ch] = [] := by
    intro k' hk
    simp [insertedBy, Ne.symm hk]
  have hpc : ∀ q x, q ≠ p → (((s.setPipe pi).setPc p (.writeTest k c (i + 1))).pc q).call = some x →
      (s.pc q).call = some x := by
    intro q x hq hx
    rwa [PipeSys.setPc_pc_of_ne hq] at hx
  have happart : ∀ q x, q ≠ p → (s.pc q).call = some x → x.1 ≠ k := by
    rintro q ⟨k', c', i'⟩ hq hx rfl
    exact hq (hi.apart q p k' c' i' c i hx (by rw [hp]; rfl))
  refine ⟨fun k' c' hm => hi.bound k' c' (hmem hm), ?_, fun k' c1 c2 h₁ h₂ =>
    hi.same k' c1 c2 (hmem h₁) (hmem h₂), ?_, ?_, ?_⟩
  · intro k' hk'
    have hlt := hi.bound k c hown.1
    change s.calls ≤ k' at hk'
    rw [insertedBy_append, hi.fresh k' hk', hother k' (by omega)]
    rfl
  · intro k' c' hm
    by_cases hk : k' = k
    · subst hk
      cases hi.same k' c' c (hmem hm) hown.1
      exact ⟨i + 1, hnew⟩
    · obtain ⟨j, hj⟩ := hi.inOrder k' c' (hmem hm)
      exact ⟨j, hj.append (hother k' hk)⟩
  · intro q k' c' j hq
    by_cases hqp : q = p
    · subst hqp
      rw [PipeSys.setPc_pc_self] at hq
      cases hq
      exact hnew
    · have hq' := hpc q _ hqp hq
      exact (hi.own q k' c' j hq').append (hother k' (happart q _ hqp hq'))
  · intro q r k' c1 i1 c2 i2 hq hr
    by_cases hqp : q = p <;> by_cases hrp : r = p
    · rw [hqp, hrp]
    · have hne := happart r _ hrp (hpc r _ hrp hr)
      subst hqp
      rw [PipeSys.setPc_pc_self] at hq
      cases hq
      exact absurd rfl hne
    · have hne := happart q _ hqp (hpc q _ hqp hq)
      subst hrp
      rw [PipeSys.setPc_pc_self] at hr
      cases hr
      exact absurd rfl hne
    · exact hi.apart q r k' c1 i1 c2 i2 (hpc q _ hqp hq) (hpc r _ hrp hr)

variable {d : PipePc}

@[simp] lemma PipePc.call_wakeReader : d.wakeReader.call = d.call := by
  cases d <;> rfl

@[simp] lemma PipePc.call_wakeWriter : d.wakeWriter.call = d.call := by
  cases d <;> rfl

lemma call_update {f : Nat → PipePc} (hd : d.call = none ∨ d.call = (f p).call) (q : Nat)
    (x : Nat × WriteCall × Nat) (hx : (update f p d q).call = some x) : (f q).call = some x := by
  by_cases hq : q = p
  · subst hq
    rw [update_self] at hx
    rcases hd with hd | hd
    · rw [hd] at hx
      cases hx
    · rwa [← hd]
  · rwa [update_of_ne hq] at hx

lemma call_wakeReaders (hd : d.call = none ∨ d.call = (s.pc p).call) (q : Nat)
    (x : Nat × WriteCall × Nat) (hx : ((s.wakeReaders.leave p d).pc q).call = some x) :
    (s.pc q).call = some x := by
  have hx' := call_update (f := s.wakeReaders.pc) (by simpa using hd) q x hx
  simpa using hx'

lemma call_wakeWriters (hd : d.call = none ∨ d.call = (s.pc p).call) (q : Nat)
    (x : Nat × WriteCall × Nat) (hx : ((s.wakeWriters.leave p d).pc q).call = some x) :
    (s.pc q).call = some x := by
  have hx' := call_update (f := s.wakeWriters.pc) (by simpa using hd) q x hx
  simpa using hx'

lemma PipeCalls.step (hi : PipeCalls s h) (hs : PipeStep s a s' out) : PipeCalls s' (h ++ out) := by
  cases hs with
  | write hp => exact hi.start hp
  | insert hp hf hc => exact hi.insert hp hc
  | read hp => exact hi.other rfl (call_update (.inl rfl)) (by simp) fun _ => rfl
  | lockWrite hl hp => exact hi.other rfl (call_update (.inr (by rw [hp]; rfl))) (by simp) fun _ => rfl
  | lockRead hl hp => exact hi.other rfl (call_update (.inl rfl)) (by simp) fun _ => rfl
  | writeStop hp hn hk => exact hi.other rfl (call_update (.inl rfl)) (by simp) fun _ => rfl
  | writeGo hp hn hr hk =>
    exact hi.other rfl (call_update (.inr (by rw [hp]; rfl))) (by simp) fun _ => rfl
  | writeEnd hp hn => exact hi.other rfl (call_wakeReaders (.inl rfl)) (by simp) fun _ => rfl
  | writeFull hp hf =>
    exact hi.other rfl (call_wakeReaders (.inr (by rw [hp]; rfl))) (by simp) fun _ => rfl
  | writeFault hp hf hc => exact hi.other rfl (call_wakeReaders (.inl rfl)) (by simp) fun _ => rfl
  | readStop hp he hw hk => exact hi.other rfl (call_update (.inl rfl)) (by simp) fun _ => rfl
  | readWait hp he hw hk => exact hi.other rfl (call_update (.inl rfl)) (by simp) fun _ => rfl
  | readGo hp he => exact hi.other rfl (call_update (.inl rfl)) (by simp) fun _ => rfl
  | doze hp => exact hi.other rfl (call_update (.inl rfl)) (by simp) fun _ => rfl
  | readEmpty hp hn he => exact hi.other rfl (call_wakeWriters (.inl rfl)) (by simp) fun _ => rfl
  | remove hp hn he hd => exact hi.other rfl (call_update (.inl rfl)) (by simp) fun _ => rfl
  | readFault hp hn he hd =>
    exact hi.other rfl (call_wakeWriters (s := s.setPipe s.pipe.remove.2) (.inl rfl))
      (by simp) fun _ => rfl
  | readEnd hp hn => exact hi.other rfl (call_wakeWriters (.inl rfl)) (by simp) fun _ => rfl
  | closeWrite hp hl =>
    exact hi.other rfl (fun q x hx => by simpa [setPipe] using hx) (by simp) fun _ => rfl
  | closeRead hp hl =>
    exact hi.other rfl (fun q x hx => by simpa [setPipe] using hx) (by simp) fun _ => rfl
  | kill => exact hi.other rfl (call_update (.inr (by simp))) (by simp) fun _ => rfl

end

section

variable {s s' : PipeSys} {h out : List PipeEvent} {a : PipeAct} {p q : Nat}

lemma PipeLocks.unique (hl : PipeLocks s) (hp : (s.pc p).holds = true)
    (hq : (s.pc q).holds = true) : p = q := by
  have hlock := ((hl p).mp hp).symm.trans ((hl q).mp hq)
  exact Option.some.inj hlock

/-- A reader that has seen bytes or the closed end (`true`), or that is about to sleep. -/
def PipePc.watch : PipePc → Option Bool
  | .readLoop _ 0 => some true
  | .readDoze _ => some false
  | _ => none

variable {d : PipePc}

lemma PipePc.holds_of_watch {b : Bool} (hd : d.watch = some b) : d.holds = true := by
  unfold PipePc.watch at hd
  split at hd
  · rfl
  · rfl
  · cases hd

@[simp] lemma PipePc.watch_wakeReader : d.wakeReader.watch = d.watch := by
  cases d <;> rfl

@[simp] lemma PipePc.watch_wakeWriter : d.wakeWriter.watch = d.watch := by
  cases d <;> rfl

def PipeReads (s : PipeSys) : Prop :=
  ∀ q b, (s.pc q).watch = some b → (s.pipe.isEmpty && s.pipe.writeopen) = !b

lemma PipeReads.same (hr : PipeReads s) (hpipe : s'.pipe = s.pipe)
    (hpc : ∀ q b, (s'.pc q).watch = some b → (s.pc q).watch = some b) : PipeReads s' := by
  intro q b hq
  rw [hpipe]
  exact hr q b (hpc q b hq)

lemma PipeReads.changed (hl : PipeLocks s) (hp : (s.pc p).holds = true) (hd : (s'.pc p).watch = none)
    (hpc : ∀ q b, q ≠ p → (s'.pc q).watch = some b → (s.pc q).watch = some b) : PipeReads s' := by
  intro q b hq
  by_cases hqp : q = p
  · rw [hqp, hd] at hq
    cases hq
  · exact absurd (hl.unique (PipePc.holds_of_watch (hpc q b hqp hq)) hp) hqp

lemma watch_update {f : Nat → PipePc} (hd : d.watch = none) (q : Nat) (b : Bool)
    (hx : (update f p d q).watch = some b) : (f q).watch = some b := by
  by_cases hq : q = p
  · subst hq
    rw [update_self, hd] at hx
    cases hx
  · rwa [update_of_ne hq] at hx

lemma watch_set {b : Bool} (hr : PipeReads s) (hd : d.watch = some b)
    (hb : (s.pipe.isEmpty && s.pipe.writeopen) = !b) : PipeReads (s.setPc p d) := by
  intro q b' hq
  by_cases hqp : q = p
  · subst hqp
    rw [PipeSys.setPc_pc_self, hd] at hq
    cases hq
    exact hb
  · rw [PipeSys.setPc_pc_of_ne hqp] at hq
    exact hr q b' hq

lemma watch_wakeReaders (hd : d.watch = none) (q : Nat) (b : Bool)
    (hx : ((s.wakeReaders.leave p d).pc q).watch = some b) : (s.pc q).watch = some b := by
  simpa using watch_update (f := s.wakeReaders.pc) hd q b hx

lemma watch_wakeWriters (hd : d.watch = none) (q : Nat) (b : Bool)
    (hx : ((s.wakeWriters.leave p d).pc q).watch = some b) : (s.pc q).watch = some b := by
  simpa using watch_update (f := s.wakeWriters.pc) hd q b hx

lemma PipeReads.closed (hl : PipeLocks s) (hfree : s.lock = none)
    (hpc : ∀ q b, (s'.pc q).watch = some b → (s.pc q).watch = some b) : PipeReads s' := by
  intro q b hq
  have hlock := (hl q).mp (PipePc.holds_of_watch (hpc q b hq))
  rw [hfree] at hlock
  cases hlock

lemma PipeReads.step (hr : PipeReads s) (hl : PipeLocks s) (hs : PipeStep s a s' out) :
    PipeReads s' := by
  cases hs with
  | write hp => exact hr.same rfl (watch_update rfl)
  | read hp => exact hr.same rfl (watch_update rfl)
  | lockWrite hf hp => exact hr.same rfl (watch_update rfl)
  | lockRead hf hp => exact hr.same rfl (watch_update rfl)
  | writeStop hp hn hk => exact hr.same rfl (watch_update rfl)
  | writeGo hp hn ho hk => exact hr.same rfl (watch_update rfl)
  | writeEnd hp hn => exact hr.same rfl (watch_wakeReaders rfl)
  | writeFull hp hf => exact hr.same rfl (watch_wakeReaders rfl)
  | writeFault hp hf hc => exact hr.same rfl (watch_wakeReaders rfl)
  | @insert p k i c ch hp hf hc =>
    refine PipeReads.changed hl (p := p) (by rw [hp]; rfl) (by rw [PipeSys.setPc_pc_self]; rfl)
      fun q b hq hx => ?_
    rwa [PipeSys.setPc_pc_of_ne hq] at hx
  | readStop hp he hw hk => exact hr.same rfl (watch_update rfl)
  | readWait hp he hw hk => exact watch_set hr rfl (by simp [he, hw])
  | readGo hp he => exact watch_set hr rfl (by simpa using he)
  | doze hp => exact hr.same rfl (watch_update rfl)
  | readEmpty hp hn he => exact hr.same rfl (watch_wakeWriters rfl)
  | @remove p i c hp hn he hd =>
    refine PipeReads.changed hl (p := p) (by rw [hp]; rfl) (by rw [PipeSys.setPc_pc_self]; rfl)
      fun q b hq hx => ?_
    rwa [PipeSys.setPc_pc_of_ne hq] at hx
  | @readFault p i c hp hn he hd =>
    refine PipeReads.changed hl (p := p) (by rw [hp]; rfl) (by rw [leave_pc_self]; rfl)
      fun q b _ hx => ?_
    exact watch_wakeWriters (s := s.setPipe s.pipe.remove.2) rfl q b hx
  | readEnd hp hn => exact hr.same rfl (watch_wakeWriters rfl)
  | closeWrite hp hf => exact PipeReads.closed hl hf fun q b hx => by simpa [setPipe] using hx
  | closeRead hp hf => exact PipeReads.closed hl hf fun q b hx => by simpa [setPipe] using hx
  | @kill p =>
    refine hr.same rfl fun q b hx => ?_
    by_cases hq : q = p
    · subst hq
      change ((s.setPc q _).pc q).watch = some b at hx
      rw [PipeSys.setPc_pc_self] at hx
      simpa using hx
    · change ((s.setPc p _).pc q).watch = some b at hx
      rwa [PipeSys.setPc_pc_of_ne hq] at hx

end

structure PipeFifo (s : PipeSys) (h : List PipeEvent) : Prop where
  locks : PipeLocks s
  ring : PipeRing s.pipe h
  calls : PipeCalls s h
  reads : PipeReads s

lemma PipeFifo.init (h : s.Fresh) : PipeFifo s [] := by
  refine ⟨?_, ?_, ⟨nofun, fun _ _ => rfl, nofun, nofun, ?_, ?_⟩, ?_⟩
  · intro q
    rw [h.pc, h.lock]
    simp [PipePc.holds]
  · unfold PipeRing
    rw [h.nread, h.nwrite]
    exact RingRep.nil ..
  · intro p k c i hp
    rw [h.pc] at hp
    cases hp
  · intro p q k c i c' i' hp
    rw [h.pc] at hp
    cases hp
  · intro q b hq
    rw [h.pc] at hq
    cases hq

lemma PipeFifo.reach {ok : PipeSys → PipeAct → Prop}
    (hr : pipeMachine.Reach ok s h) : PipeFifo s h := by
  refine hr.invariant (fun s hs => PipeFifo.init hs) ?_
  intro s s' h out a _ hi _ hs
  have hc := pipe_step_cases hs
  exact ⟨hi.locks.step hc, hi.ring.step hc, hi.calls.step hc, hi.reads.step hi.locks hc⟩

lemma PipeFifo.read_zero {a : PipeAct} {c : ReadCall}
    (hi : PipeFifo s h) (hs : PipeStep s a s' out) (hout : .read c 0 ∈ out) (hn : 0 < c.n)
    (hd : ∀ i, c.dst i = true) :
    s'.pipe.writeopen = false ∧ removedBytes (h ++ out) = insertedBytes (h ++ out) := by
  cases hs with
  | readEmpty hp hlt he =>
    have hev := mem_singleton.mp hout
    simp only [PipeEvent.read.injEq] at hev
    obtain ⟨rfl, hz⟩ := hev
    have hi0 : (0 : Nat) = _ := Int.ofNat_inj.mp hz
    subst hi0
    have hw := hi.reads _ true (by rw [hp]; rfl)
    rw [he] at hw
    have hclosed : s.pipe.writeopen = false := by simpa using hw
    refine ⟨hclosed, ?_⟩
    have heq := hi.ring.isEmpty_iff.mp he
    rw [removedBytes_append, insertedBytes_append, heq]
    rfl
  | readFault hp hlt he hf =>
    simp only [mem_cons, reduceCtorEq, PipeEvent.read.injEq, not_mem_nil, or_false, false_or] at hout
    obtain ⟨rfl, -⟩ := hout
    rw [hd] at hf
    cases hf
  | readEnd hp hlt =>
    have hev := mem_singleton.mp hout
    simp only [PipeEvent.read.injEq] at hev
    obtain ⟨rfl, hz⟩ := hev
    omega
  | readStop hp he hw hk => simp at hout
  | _ => simp at hout

/-- The pipe is a bounded queue. Readers take the bytes in the order in which they were put in, each
call of `pipewrite` puts in its own bytes in order, and a read that returns 0 has reached the end of
the input. -/
theorem pipe_ring_fifo {s : PipeSys} {h : List PipeEvent}
    (hr : pipeMachine.Reach (fun _ _ => True) s h) :
    (s.pipe.nwrite + 2 ^ 32 - s.pipe.nread) % 2 ^ 32 ≤ pipeSize ∧
      removedBytes h <+: insertedBytes h ∧
      (∀ j x, (removedBytes h).length ≤ j → (insertedBytes h)[j]? = some x →
        s.pipe.data (j % pipeSize) = x) ∧
      (∀ k c, .called k c ∈ h → ∃ i, (insertedBy k h).map some = (List.range i).map c.src) ∧
      ∀ a s' out c, s.step a = some (s', out) → .read c 0 ∈ out → 0 < c.n → (∀ i, c.dst i = true) →
        s'.pipe.writeopen = false ∧ removedBytes (h ++ out) = insertedBytes (h ++ out) := by
  have hi := PipeFifo.reach hr
  refine ⟨?_, hi.ring.taken, fun j x hj hx => hi.ring.slot j hj x hx, ?_, ?_⟩
  · rw [hi.ring.diff_eq (by decide)]
    have hc := hi.ring.count_le
    omega
  · intro k c hk
    obtain ⟨i, hc⟩ := hi.calls.inOrder k c hk
    exact ⟨i, hc.2⟩
  · exact fun a s' out c hs => hi.read_zero (pipe_step_cases hs)

def emptyPipe : PipeSys where
  pipe := ⟨fun _ => 5, 0, 0, true, true⟩
  lock := none
  pc := fun _ => .out
  killed := fun _ => false
  freed := false
  calls := 0

lemma emptyPipe_fresh : emptyPipe.Fresh := ⟨rfl, rfl, rfl, rfl, rfl, fun _ => rfl, rfl, rfl⟩

theorem pipe_ring_fifo_oneByte :
    ∃ s, pipeMachine.Reach (fun _ _ => True) s [.called 0 ⟨fun _ => some 7, 1⟩, .inserted 0 7] ∧
      (s.pipe.nwrite + 2 ^ 32 - s.pipe.nread) % 2 ^ 32 ≤ pipeSize := by
  have h0 : pipeMachine.Reach (fun _ _ => True) emptyPipe [] := .init emptyPipe_fresh
  have h1 := h0.step (a := .write 1 ⟨fun _ => some 7, 1⟩) trivial rfl
  have h2 := h1.step (a := .acquire 1) trivial rfl
  have h3 := h2.step (a := .run 1) trivial rfl
  have h4 := h3.step (a := .run 1) trivial rfl
  exact ⟨_, h4, (pipe_ring_fifo h4).1⟩

section

variable {s s' : PipeSys} {a : PipeAct} {out : List PipeEvent} {p : Nat}

/-- A process sleeps on `&pi->nread`. -/
def ReaderAsleep (s : PipeSys) : Prop := ∃ r, (s.pc r).onNread = true

/-- A process sleeps on `&pi->nwrite`. -/
def WriterAsleep (s : PipeSys) : Prop := ∃ r, (s.pc r).onNwrite = true

def PipePc.writing : PipePc → Bool
  | .writeTest .. | .writeBody .. => true
  | _ => false

def PipePc.reading : PipePc → Bool
  | .readLoop .. => true
  | _ => false

/-- `kill` hits a writer that has the lock, after a look at `killed()` whose byte the
sleeping readers will not be told of: more bytes are to come. -/
def LateKill (s : PipeSys) (q : Nat) : Prop :=
  ReaderAsleep s ∧
    match s.pc q with
    | .writeTest _ c i => (i : Int) < c.n ∧ s.pipe.isEmpty = false
    | .writeBody _ c i => (i : Int) + 1 < c.n ∧ s.pipe.isFull = false ∧ c.src i ≠ none
    | _ => False

def NoLateKill (s : PipeSys) (a : PipeAct) : Prop := ∀ q, a = .kill q → ¬ LateKill s q

structure PipeSleep (s : PipeSys) : Prop where
  openWrite : ReaderAsleep s → s.pipe.writeopen = true
  openRead : WriterAsleep s → s.pipe.readopen = true
  writer : ReaderAsleep s → s.pipe.isEmpty = false → ∃ q, (s.pc q).writing = true
  reader : WriterAsleep s → s.pipe.isFull = false → ∃ q, (s.pc q).reading = true
  test : ReaderAsleep s → s.pipe.isEmpty = false → ∀ q k c i, s.pc q = .writeTest k c i →
    (i : Int) < c.n → s.killed q = false ∧ s.pipe.readopen = true
  body : ∀ q k c i, s.pc q = .writeBody k c i → s.pipe.readopen = true ∧
    (ReaderAsleep s → (i : Int) + 1 < c.n → s.pipe.isFull = false → c.src i ≠ none → s.killed q = false)

variable {d : PipePc} {f : Nat → PipePc} {r k i : Nat} {c : WriteCall}

lemma PipePc.holds_of_writing (h : d.writing = true) : d.holds = true := by
  cases d <;> first | rfl | cases h

lemma PipePc.holds_of_reading (h : d.reading = true) : d.holds = true := by
  cases d <;> first | rfl | cases h

lemma PipePc.not_reading (h : d.writing = true) : d.reading = false := by
  cases d <;> first | rfl | cases h

lemma PipeSleep.holder_writing (h : PipeSleep s) (hl : PipeLocks s) (hr : ReaderAsleep s)
    (he : s.pipe.isEmpty = false) (hp : (s.pc p).holds = true) : (s.pc p).writing = true := by
  obtain ⟨q, hq⟩ := h.writer hr he
  rwa [← hl.unique (PipePc.holds_of_writing hq) hp]

lemma PipeSleep.holder_reading (h : PipeSleep s) (hl : PipeLocks s) (hw : WriterAsleep s)
    (hf : s.pipe.isFull = false) (hp : (s.pc p).holds = true) : (s.pc p).reading = true := by
  obtain ⟨q, hq⟩ := h.reader hw hf
  rwa [← hl.unique (PipePc.holds_of_reading hq) hp]

lemma PipeSleep.empty_of_free (h : PipeSleep s) (hl : PipeLocks s) (hfree : s.lock = none)
    (hr : ReaderAsleep s) : s.pipe.isEmpty = true := by
  by_contra he
  obtain ⟨q, hq⟩ := h.writer hr (by simpa using he)
  have hlock := (hl q).mp (PipePc.holds_of_writing hq)
  rw [hfree] at hlock
  cases hlock

lemma PipeSleep.full_of_free (h : PipeSleep s) (hl : PipeLocks s) (hfree : s.lock = none)
    (hw : WriterAsleep s) : s.pipe.isFull = true := by
  by_contra hf
  obtain ⟨q, hq⟩ := h.reader hw (by simpa using hf)
  have hlock := (hl q).mp (PipePc.holds_of_reading hq)
  rw [hfree] at hlock
  cases hlock

lemma onNread_update (hd : d.onNread = false)
    (h : (update f p d r).onNread = true) : (f r).onNread = true := by
  by_cases hr : r = p
  · subst hr
    rw [update_self, hd] at h
    cases h
  · rwa [update_of_ne hr] at h

lemma onNwrite_update (hd : d.onNwrite = false)
    (h : (update f p d r).onNwrite = true) : (f r).onNwrite = true := by
  by_cases hr : r = p
  · subst hr
    rw [update_self, hd] at h
    cases h
  · rwa [update_of_ne hr] at h

lemma PipePc.onNread_wakeReader : d.wakeReader.onNread = false := by
  cases d <;> rfl

lemma PipePc.onNwrite_wakeWriter : d.wakeWriter.onNwrite = false := by
  cases d <;> rfl

lemma PipePc.onNwrite_wakeReader : d.wakeReader.onNwrite = d.onNwrite := by
  cases d <;> rfl

lemma PipePc.onNread_wakeWriter : d.wakeWriter.onNread = d.onNread := by
  cases d <;> rfl

lemma PipeSleep.quiet (h : PipeSleep s) (hpipe : s'.pipe = s.pipe) (hkill : s'.killed = s.killed)
    (hr : ReaderAsleep s' → ReaderAsleep s) (hw : WriterAsleep s' → WriterAsleep s)
    (hwriter : ReaderAsleep s → s.pipe.isEmpty = false → ∀ q, (s.pc q).writing = true →
      (s'.pc q).writing = true)
    (hreader : WriterAsleep s → s.pipe.isFull = false → ∀ q, (s.pc q).reading = true →
      (s'.pc q).reading = true)
    (htest : ReaderAsleep s → s.pipe.isEmpty = false → ∀ q k c i, s'.pc q = .writeTest k c i →
      s.pc q = .writeTest k c i)
    (hbody : ∀ q k c i, s'.pc q = .writeBody k c i → s.pc q = .writeBody k c i) : PipeSleep s' := by
  refine ⟨?_, ?_, ?_, ?_, ?_, ?_⟩
  all_goals rw [hpipe]
  · exact fun h' => h.openWrite (hr h')
  · exact fun h' => h.openRead (hw h')
  · intro h' he
    obtain ⟨q, hq⟩ := h.writer (hr h') he
    exact ⟨q, hwriter (hr h') he q hq⟩
  · intro h' hf
    obtain ⟨q, hq⟩ := h.reader (hw h') hf
    exact ⟨q, hreader (hw h') hf q hq⟩
  · intro h' he q k c i hq hi
    rw [hkill]
    exact h.test (hr h') he q k c i (htest (hr h') he q k c i hq) hi
  · intro q k c i hq
    obtain ⟨ho, hb⟩ := h.body q k c i (hbody q k c i hq)
    refine ⟨ho, fun h' => ?_⟩
    rw [hkill]
    exact hb (hr h')

lemma PipeSleep.setPc (h : PipeSleep s) (hd : d.writing = false) (hr : d.onNread = false)
    (hw : d.onNwrite = false) (hwriter : ReaderAsleep s → s.pipe.isEmpty = false →
      (s.pc p).writing = false)
    (hreader : WriterAsleep s → s.pipe.isFull = false → (s.pc p).reading = true → d.reading = true) :
    PipeSleep (s.setPc p d) := by
  refine h.quiet rfl rfl (fun ⟨r, hx⟩ => ⟨r, onNread_update hr hx⟩)
    (fun ⟨r, hx⟩ => ⟨r, onNwrite_update hw hx⟩) ?_ ?_ ?_ ?_
  · intro ha he q hq
    by_cases hqp : q = p
    · rw [hqp, hwriter ha he] at hq
      cases hq
    · rwa [PipeSys.setPc_pc_of_ne hqp]
  · intro ha hf q hq
    by_cases hqp : q = p
    · subst hqp
      rw [PipeSys.setPc_pc_self]
      exact hreader ha hf hq
    · rwa [PipeSys.setPc_pc_of_ne hqp]
  · intro _ _ q k c i hq
    by_cases hqp : q = p
    · subst hqp
      rw [PipeSys.setPc_pc_self] at hq
      rw [hq] at hd
      cases hd
    · rwa [PipeSys.setPc_pc_of_ne hqp] at hq
  · intro q k c i hq
    by_cases hqp : q = p
    · subst hqp
      rw [PipeSys.setPc_pc_self] at hq
      rw [hq] at hd
      cases hd
    · rwa [PipeSys.setPc_pc_of_ne hqp] at hq

lemma PipeSleep.congr (h : PipeSleep s) (hpipe : s'.pipe = s.pipe) (hkill : s'.killed = s.killed)
    (hpc : s'.pc = s.pc) : PipeSleep s' := by
  refine h.quiet hpipe hkill ?_ ?_ ?_ ?_ ?_ ?_
  · rintro ⟨r, hx⟩
    exact ⟨r, hpc ▸ hx⟩
  · rintro ⟨r, hx⟩
    exact ⟨r, hpc ▸ hx⟩
  all_goals
    rw [hpc]
  · exact fun _ _ _ hq => hq
  · exact fun _ _ _ hq => hq
  · exact fun _ _ _ _ _ _ hq => hq
  · exact fun _ _ _ _ hq => hq

lemma not_readerAsleep_wakeReaders (hd : d.onNread = false) :
    ¬ ReaderAsleep (s.wakeReaders.leave p d) := by
  rintro ⟨r, hx⟩
  have hx' := onNread_update (f := s.wakeReaders.pc) hd hx
  rw [wakeReaders_pc, PipePc.onNread_wakeReader] at hx'
  cases hx'

lemma not_writerAsleep_wakeWriters (hd : d.onNwrite = false) :
    ¬ WriterAsleep (s.wakeWriters.leave p d) := by
  rintro ⟨r, hx⟩
  have hx' := onNwrite_update (f := s.wakeWriters.pc) hd hx
  rw [wakeWriters_pc, PipePc.onNwrite_wakeWriter] at hx'
  cases hx'

lemma PipeSleep.wake_leave (h : PipeSleep s) (hl : PipeLocks s) (hp : (s.pc p).writing = true)
    (hd : d.holds = false) (hr : d.onNread = false)
    (hfull : d.onNwrite = true → s.pipe.isFull = true ∧ s.pipe.readopen = true) :
    PipeSleep (s.wakeReaders.leave p d) := by
  have hno := not_readerAsleep_wakeReaders (s := s) (p := p) hr
  have hhold := PipePc.holds_of_writing hp
  -- Nobody has the lock any more.
  have hnone : ∀ q, ((s.wakeReaders.leave p d).pc q).holds = false := by
    intro q
    by_cases hqp : q = p
    · subst hqp
      rwa [leave_pc_self]
    · rw [leave_pc_of_ne hqp, wakeReaders_pc, PipePc.holds_wakeReader]
      by_contra hq
      exact hqp (hl.unique (by simpa using hq) hhold)
  have hsub : WriterAsleep (s.wakeReaders.leave p d) → d.onNwrite = true ∨ WriterAsleep s := by
    rintro ⟨r, hx⟩
    by_cases hrp : r = p
    · subst hrp
      rw [leave_pc_self] at hx
      exact .inl hx
    · rw [leave_pc_of_ne hrp, wakeReaders_pc, PipePc.onNwrite_wakeReader] at hx
      exact .inr ⟨r, hx⟩
  refine ⟨fun h' => absurd h' hno, ?_, fun h' => absurd h' hno, ?_, fun h' => absurd h' hno, ?_⟩
  · intro h'
    rcases hsub h' with hd | hw
    · exact (hfull hd).2
    · exact h.openRead hw
  · intro h' hf
    change s.pipe.isFull = false at hf
    rcases hsub h' with hd | hw
    · rw [(hfull hd).1] at hf
      cases hf
    · have hread := h.holder_reading hl hw hf hhold
      rw [PipePc.not_reading hp] at hread
      cases hread
  · intro q k c i hq
    have hq' := hnone q
    rw [hq] at hq'
    cases hq'

lemma PipeSleep.wakeW_leave (pi : Pipe) (h : PipeSleep s) (hl : PipeLocks s)
    (hp : (s.pc p).reading = true)
    (hopen : pi.writeopen = s.pipe.writeopen) (he : ReaderAsleep s → pi.isEmpty = true) :
    PipeSleep ((s.setPipe pi).wakeWriters.leave p .out) := by
  have hno := not_writerAsleep_wakeWriters (s := s.setPipe pi) (p := p) (d := .out) rfl
  have hsub : ReaderAsleep ((s.setPipe pi).wakeWriters.leave p .out) → ReaderAsleep s := by
    rintro ⟨r, hx⟩
    have hx' := onNread_update (f := (s.setPipe pi).wakeWriters.pc) (d := .out) rfl hx
    rw [wakeWriters_pc, PipePc.onNread_wakeWriter] at hx'
    exact ⟨r, hx'⟩
  have hnone : ∀ q, (((s.setPipe pi).wakeWriters.leave p .out).pc q).holds = false := by
    intro q
    by_cases hqp : q = p
    · subst hqp
      rw [leave_pc_self]
      rfl
    · rw [leave_pc_of_ne hqp, wakeWriters_pc, PipePc.holds_wakeWriter]
      change (s.pc q).holds = false
      by_contra hq
      exact hqp (hl.unique (by simpa using hq) (PipePc.holds_of_reading hp))
  refine ⟨?_, fun h' => absurd h' hno, ?_, fun h' => absurd h' hno, ?_, ?_⟩
  · exact fun h' => hopen.trans (h.openWrite (hsub h'))
  · intro h' hne
    have hemp := he (hsub h')
    change pi.isEmpty = false at hne
    rw [hemp] at hne
    cases hne
  · intro h' hne
    have hemp := he (hsub h')
    change pi.isEmpty = false at hne
    rw [hemp] at hne
    cases hne
  · intro q k c i hq
    have hq' := hnone q
    rw [hq] at hq'
    cases hq'

lemma PipeSleep.lockWrite (h : PipeSleep s) (hl : PipeLocks s) (hfree : s.lock = none)
    (hp : s.pc p = .writeEnter k c i) :
    PipeSleep { s.setPc p (.writeTest k c i) with lock := some p } := by
  refine h.quiet rfl rfl (fun ⟨r, hx⟩ => ⟨r, onNread_update rfl hx⟩)
    (fun ⟨r, hx⟩ => ⟨r, onNwrite_update rfl hx⟩) ?_ ?_ ?_ ?_
  · intro ha he
    rw [h.empty_of_free hl hfree ha] at he
    cases he
  · intro ha hf
    rw [h.full_of_free hl hfree ha] at hf
    cases hf
  · intro ha he
    rw [h.empty_of_free hl hfree ha] at he
    cases he
  · intro q k' c' i' hq
    by_cases hqp : q = p
    · subst hqp
      change (s.setPc q _).pc q = _ at hq
      rw [PipeSys.setPc_pc_self] at hq
      cases hq
    · change (s.setPc p _).pc q = _ at hq
      rwa [PipeSys.setPc_pc_of_ne hqp] at hq

lemma PipeSleep.writeGo (h : PipeSleep s) (hp : s.pc p = .writeTest k c i)
    (ho : s.pipe.readopen = true) (hk : s.killed p = false) :
    PipeSleep (s.setPc p (.writeBody k c i)) := by
  have hr : ReaderAsleep (s.setPc p (.writeBody k c i)) → ReaderAsleep s :=
    fun ⟨r, hx⟩ => ⟨r, onNread_update rfl hx⟩
  have hw : WriterAsleep (s.setPc p (.writeBody k c i)) → WriterAsleep s :=
    fun ⟨r, hx⟩ => ⟨r, onNwrite_update rfl hx⟩
  refine ⟨fun h' => h.openWrite (hr h'), fun _ => ho,
    fun _ _ => ⟨p, by rw [PipeSys.setPc_pc_self]; rfl⟩, ?_, ?_, ?_⟩
  · intro h' hf
    obtain ⟨q, hq⟩ := h.reader (hw h') hf
    have hqp : q ≠ p := by
      rintro rfl
      rw [hp] at hq
      cases hq
    exact ⟨q, by rwa [PipeSys.setPc_pc_of_ne hqp]⟩
  · intro h' he q k' c' i' hq hi
    have hqp : q ≠ p := by
      rintro rfl
      rw [PipeSys.setPc_pc_self] at hq
      cases hq
    rw [PipeSys.setPc_pc_of_ne hqp] at hq
    exact h.test (hr h') he q k' c' i' hq hi
  · intro q k' c' i' hq
    by_cases hqp : q = p
    · subst hqp
      exact ⟨ho, fun _ _ _ _ => hk⟩
    · rw [PipeSys.setPc_pc_of_ne hqp] at hq
      obtain ⟨ho', hb⟩ := h.body q k' c' i' hq
      exact ⟨ho', fun h' => hb (hr h')⟩

lemma PipeSleep.insert {ch : UInt8} (h : PipeSleep s) (hl : PipeLocks s)
    (hp : s.pc p = .writeBody k c i) (hf : s.pipe.isFull = false) (hc : c.src i = some ch) :
    PipeSleep ((s.setPipe (s.pipe.insert ch)).setPc p (.writeTest k c (i + 1))) := by
  have hhold : (s.pc p).holds = true := by rw [hp]; rfl
  have hr : ReaderAsleep ((s.setPipe (s.pipe.insert ch)).setPc p (.writeTest k c (i + 1))) →
    ReaderAsleep s :=
    fun ⟨r, hx⟩ => ⟨r, onNread_update (f := s.pc) rfl hx⟩
  have hw : WriterAsleep ((s.setPipe (s.pipe.insert ch)).setPc p (.writeTest k c (i + 1))) →
    WriterAsleep s :=
    fun ⟨r, hx⟩ => ⟨r, onNwrite_update (f := s.pc) rfl hx⟩
  -- With room in the pipe and a writer at work no writer sleeps.
  have hnw : ¬ WriterAsleep s := by
    intro hw
    have hread := h.holder_reading hl hw hf hhold
    rw [hp] at hread
    cases hread
  obtain ⟨ho, hb⟩ := h.body p k c i hp
  have honly : ∀ q, q ≠ p → (s.pc q).holds = false := by
    intro q hq
    by_contra hx
    exact hq (hl.unique (by simpa using hx) hhold)
  refine ⟨fun h' => h.openWrite (hr h'), fun h' => absurd (hw h') hnw,
    fun _ _ => ⟨p, by rw [PipeSys.setPc_pc_self]; rfl⟩, fun h' => absurd (hw h') hnw, ?_, ?_⟩
  · intro h' _ q k' c' i' hq hi
    by_cases hqp : q = p
    · subst hqp
      rw [PipeSys.setPc_pc_self] at hq
      cases hq
      refine ⟨hb (hr h') (by simpa using hi) hf (by simp [hc]), ho⟩
    · rw [PipeSys.setPc_pc_of_ne hqp] at hq
      have hx := honly q hqp
      change s.pc q = _ at hq
      rw [hq] at hx
      cases hx
  · intro q k' c' i' hq
    have hqp : q ≠ p := by
      rintro rfl
      rw [PipeSys.setPc_pc_self] at hq
      cases hq
    rw [PipeSys.setPc_pc_of_ne hqp] at hq
    have hx := honly q hqp
    change s.pc q = _ at hq
    rw [hq] at hx
    cases hx

lemma PipeSleep.no_reader (h : PipeSleep s) (hl : PipeLocks s) (hp : (s.pc p).reading = true)
    (he : s.pipe.isEmpty = false) : ¬ ReaderAsleep s := by
  intro hr
  have hx := PipePc.not_reading (h.holder_writing hl hr he (PipePc.holds_of_reading hp))
  rw [hp] at hx
  cases hx

lemma PipeSleep.remove {c : ReadCall} {pi : Pipe} (h : PipeSleep s) (hl : PipeLocks s)
    (hp : s.pc p = .readLoop c i) (he : s.pipe.isEmpty = false) (ho : pi.readopen = s.pipe.readopen) :
    PipeSleep ((s.setPipe pi).setPc p (.readLoop c (i + 1))) := by
  have hread : (s.pc p).reading = true := by rw [hp]; rfl
  have hno := h.no_reader hl hread he
  have hr : ¬ ReaderAsleep ((s.setPipe pi).setPc p (.readLoop c (i + 1))) :=
    fun ⟨r, hx⟩ => hno ⟨r, onNread_update (f := s.pc) rfl hx⟩
  refine ⟨fun h' => absurd h' hr, ?_, fun h' => absurd h' hr,
    fun _ _ => ⟨p, by rw [PipeSys.setPc_pc_self]; rfl⟩, fun h' => absurd h' hr, ?_⟩
  · rintro ⟨r, hx⟩
    exact ho.trans (h.openRead ⟨r, onNwrite_update (f := s.pc) rfl hx⟩)
  · intro q k' c' i' hq
    have hqp : q ≠ p := by
      rintro rfl
      rw [PipeSys.setPc_pc_self] at hq
      cases hq
    rw [PipeSys.setPc_pc_of_ne hqp] at hq
    change s.pc q = _ at hq
    exact absurd (hl.unique (by rw [hq]; rfl) (PipePc.holds_of_reading hread)) hqp

lemma PipeSleep.doze {c : ReadCall} (h : PipeSleep s) (hl : PipeLocks s) (hr : PipeReads s)
    (hp : s.pc p = .readDoze c) : PipeSleep (s.leave p (.readSleep c)) := by
  have hboth := hr p false (by rw [hp]; rfl)
  simp only [Bool.not_false, Bool.and_eq_true] at hboth
  obtain ⟨he, ho⟩ := hboth
  have hw : WriterAsleep (s.leave p (.readSleep c)) → WriterAsleep s :=
    fun ⟨r, hx⟩ => ⟨r, onNwrite_update rfl hx⟩
  have hne : ∀ {P : Prop}, (s.leave p (.readSleep c)).pipe.isEmpty = false → P := by
    intro P hx
    change s.pipe.isEmpty = false at hx
    rw [he] at hx
    cases hx
  refine ⟨fun _ => ho, fun h' => h.openRead (hw h'), fun _ hx => hne hx, ?_, fun _ hx => hne hx, ?_⟩
  · intro h' hf
    have hread := h.holder_reading hl (hw h') hf (p := p) (by rw [hp]; rfl)
    rw [hp] at hread
    cases hread
  · intro q k' c' i' hq
    have hqp : q ≠ p := by
      rintro rfl
      rw [leave_pc_self] at hq
      cases hq
    rw [leave_pc_of_ne hqp] at hq
    exact absurd (hl.unique (p := q) (q := p) (by rw [hq]; rfl) (by rw [hp]; rfl)) hqp

lemma PipeLocks.none_holds (hl : PipeLocks s) (hfree : s.lock = none) (q : Nat) :
    (s.pc q).holds = false := by
  by_contra hq
  have hlock := (hl q).mp (by simpa using hq)
  rw [hfree] at hlock
  cases hlock

lemma PipeSleep.closeWrite (h : PipeSleep s) (hl : PipeLocks s) (hfree : s.lock = none) :
    PipeSleep { (s.setPipe (s.pipe.close true)).wakeReaders with freed := !s.pipe.readopen } := by
  have hno : ¬ ReaderAsleep { (s.setPipe (s.pipe.close true)).wakeReaders with
    freed := !s.pipe.readopen } := by
    rintro ⟨r, hx⟩
    change ((s.pc r).wakeReader).onNread = true at hx
    rw [PipePc.onNread_wakeReader] at hx
    cases hx
  have hw : WriterAsleep { (s.setPipe (s.pipe.close true)).wakeReaders with
    freed := !s.pipe.readopen } → WriterAsleep s := by
    rintro ⟨r, hx⟩
    change ((s.pc r).wakeReader).onNwrite = true at hx
    exact ⟨r, by rwa [PipePc.onNwrite_wakeReader] at hx⟩
  refine ⟨fun h' => absurd h' hno, fun h' => h.openRead (hw h'), fun h' => absurd h' hno, ?_,
    fun h' => absurd h' hno, ?_⟩
  · intro h' hf
    change s.pipe.isFull = false at hf
    rw [h.full_of_free hl hfree (hw h')] at hf
    cases hf
  · intro q k c i hq
    have hx := hl.none_holds hfree q
    change (s.pc q).wakeReader = _ at hq
    rw [← PipePc.holds_wakeReader, hq] at hx
    cases hx

lemma PipeSleep.closeRead (h : PipeSleep s) (hl : PipeLocks s) (hfree : s.lock = none) :
    PipeSleep { (s.setPipe (s.pipe.close false)).wakeWriters with freed := !s.pipe.writeopen } := by
  have hno : ¬ WriterAsleep { (s.setPipe (s.pipe.close false)).wakeWriters with
    freed := !s.pipe.writeopen } := by
    rintro ⟨r, hx⟩
    change ((s.pc r).wakeWriter).onNwrite = true at hx
    rw [PipePc.onNwrite_wakeWriter] at hx
    cases hx
  have hr : ReaderAsleep { (s.setPipe (s.pipe.close false)).wakeWriters with
    freed := !s.pipe.writeopen } → ReaderAsleep s := by
    rintro ⟨r, hx⟩
    change ((s.pc r).wakeWriter).onNread = true at hx
    exact ⟨r, by rwa [PipePc.onNread_wakeWriter] at hx⟩
  have hne : ∀ {P : Prop}, ReaderAsleep s → s.pipe.isEmpty = false → P := by
    intro P ha hx
    rw [h.empty_of_free hl hfree ha] at hx
    cases hx
  refine ⟨fun h' => h.openWrite (hr h'), fun h' => absurd h' hno, fun h' hx => hne (hr h') hx,
    fun h' => absurd h' hno, fun h' hx => hne (hr h') hx, ?_⟩
  intro q k c i hq
  have hx := hl.none_holds hfree q
  change (s.pc q).wakeWriter = _ at hq
  rw [← PipePc.holds_wakeWriter, hq] at hx
  cases hx

lemma killPipe_pc_of_holds {q : Nat} (hq : ((killPipe s p).pc q).holds = true) :
    (killPipe s p).pc q = s.pc q := by
  by_cases hqp : q = p
  · subst hqp
    change ((s.setPc q _).pc q).holds = true at hq
    change (s.setPc q _).pc q = s.pc q
    rw [PipeSys.setPc_pc_self] at hq ⊢
    cases hd : s.pc q <;> rw [hd] at hq <;> first | rfl | cases hq
  · exact PipeSys.setPc_pc_of_ne hqp

lemma PipeSleep.kill (h : PipeSleep s) (hk : ¬ LateKill s p) : PipeSleep (killPipe s p) := by
  have hr : ReaderAsleep (killPipe s p) → ReaderAsleep s := by
    rintro ⟨r, hx⟩
    refine ⟨r, onNread_update (f := s.pc) ?_ hx⟩
    rw [PipePc.onNread_wakeWriter, PipePc.onNread_wakeReader]
  have hw : WriterAsleep (killPipe s p) → WriterAsleep s := by
    rintro ⟨r, hx⟩
    exact ⟨r, onNwrite_update (f := s.pc) PipePc.onNwrite_wakeWriter hx⟩
  have hkeep : ∀ q, (s.pc q).holds = true → (killPipe s p).pc q = s.pc q := by
    intro q hq
    refine killPipe_pc_of_holds ?_
    by_cases hqp : q = p
    · subst hqp
      change ((s.setPc q _).pc q).holds = true
      rw [PipeSys.setPc_pc_self]
      simpa using hq
    · change ((s.setPc p _).pc q).holds = true
      rwa [PipeSys.setPc_pc_of_ne hqp]
  have hkilled : ∀ q, q ≠ p → (killPipe s p).killed q = s.killed q := fun q hq => update_of_ne hq ..
  refine ⟨fun h' => h.openWrite (hr h'), fun h' => h.openRead (hw h'), ?_, ?_, ?_, ?_⟩
  · intro h' he
    obtain ⟨q, hq⟩ := h.writer (hr h') he
    exact ⟨q, by rwa [hkeep q (PipePc.holds_of_writing hq)]⟩
  · intro h' hf
    obtain ⟨q, hq⟩ := h.reader (hw h') hf
    exact ⟨q, by rwa [hkeep q (PipePc.holds_of_reading hq)]⟩
  · intro h' he q k c i hq hi
    have hq' := hq
    rw [killPipe_pc_of_holds (by rw [hq]; rfl)] at hq'
    have hne : q ≠ p := by
      rintro rfl
      refine hk ⟨hr h', ?_⟩
      rw [hq']
      exact ⟨hi, he⟩
    rw [hkilled q hne]
    exact h.test (hr h') he q k c i hq' hi
  · intro q k c i hq
    have hq' := hq
    rw [killPipe_pc_of_holds (by rw [hq]; rfl)] at hq'
    obtain ⟨ho, hb⟩ := h.body q k c i hq'
    refine ⟨ho, fun h' hi hf hc => ?_⟩
    have hne : q ≠ p := by
      rintro rfl
      refine hk ⟨hr h', ?_⟩
      rw [hq']
      exact ⟨hi, hf, hc⟩
    rw [hkilled q hne]
    exact hb (hr h') hi hf hc

lemma PipeSleep.step (h : PipeSleep s) (hl : PipeLocks s) (hr : PipeReads s) (hok : NoLateKill s a)
    (hs : PipeStep s a s' out) : PipeSleep s' := by
  cases hs with
  | write hp =>
    exact (h.setPc rfl rfl rfl (fun _ _ => by rw [hp]; rfl) (by rw [hp]; nofun)).congr rfl rfl rfl
  | read hp => exact h.setPc rfl rfl rfl (fun _ _ => by rw [hp]; rfl) (by rw [hp]; nofun)
  | lockWrite hf hp => exact h.lockWrite hl hf hp
  | lockRead hf hp =>
    exact (h.setPc rfl rfl rfl (fun _ _ => by rw [hp]; rfl) (by rw [hp]; nofun)).congr rfl rfl rfl
  | writeStop hp hn hk =>
    refine (h.setPc (d := .out) rfl rfl rfl (fun ha he => ?_) (by rw [hp]; nofun)).congr rfl rfl rfl
    obtain ⟨h1, h2⟩ := h.test ha he _ _ _ _ hp hn
    rw [h1, h2] at hk
    simp at hk
  | writeGo hp hn ho hk => exact h.writeGo hp ho hk
  | writeEnd hp hn => exact h.wake_leave hl (by rw [hp]; rfl) rfl rfl nofun
  | writeFull hp hf =>
    exact h.wake_leave hl (by rw [hp]; rfl) rfl rfl fun _ => ⟨hf, (h.body _ _ _ _ hp).1⟩
  | writeFault hp hf hc => exact h.wake_leave hl (by rw [hp]; rfl) rfl rfl nofun
  | insert hp hf hc => exact h.insert hl hp hf hc
  | readStop hp he hw hk =>
    exact (h.setPc (d := .out) rfl rfl rfl (fun _ _ => by rw [hp]; rfl)
      (by rw [hp]; nofun)).congr rfl rfl rfl
  | readWait hp he hw hk => exact h.setPc rfl rfl rfl (fun _ _ => by rw [hp]; rfl) (by rw [hp]; nofun)
  | readGo hp he => exact h.setPc rfl rfl rfl (fun _ _ => by rw [hp]; rfl) (by rw [hp]; nofun)
  | doze hp => exact h.doze hl hr hp
  | readEmpty hp hn he => exact h.wakeW_leave s.pipe hl (by rw [hp]; rfl) rfl fun _ => he
  | remove hp hn he hd => exact h.remove hl hp he rfl
  | readFault hp hn he hd =>
    refine h.wakeW_leave s.pipe.remove.2 hl (by rw [hp]; rfl) rfl fun ha => absurd ha ?_
    exact h.no_reader hl (by rw [hp]; rfl) he
  | @readEnd p i c hp hn =>
    refine h.wakeW_leave s.pipe hl (by rw [hp]; rfl) rfl fun ha => ?_
    by_contra he
    exact h.no_reader hl (p := p) (by rw [hp]; rfl) (by simpa using he) ha
  | closeWrite hp hf => exact h.closeWrite hl hf
  | closeRead hp hf => exact h.closeRead hl hf
  | @kill p => exact h.kill (hok p rfl)

end

lemma PipeSleep.init (h : s.Fresh) : PipeSleep s := by
  have hr : ¬ ReaderAsleep s := by
    rintro ⟨r, hx⟩
    rw [h.pc] at hx
    cases hx
  have hw : ¬ WriterAsleep s := by
    rintro ⟨r, hx⟩
    rw [h.pc] at hx
    cases hx
  refine ⟨fun h' => absurd h' hr, fun h' => absurd h' hw, fun h' => absurd h' hr,
    fun h' => absurd h' hw, fun h' => absurd h' hr, fun q k c i hq => ?_⟩
  rw [h.pc] at hq
  cases hq

lemma PipeSleep.reach (hr : pipeMachine.Reach NoLateKill s h) : PipeSleep s := by
  refine hr.invariant (I := fun s _ => PipeSleep s) (fun s hs => PipeSleep.init hs) ?_
  intro s s' h out a hreach hi hok hs
  have hf := PipeFifo.reach hreach
  exact hi.step hf.locks hf.reads hok (pipe_step_cases hs)

/-- Whenever the lock is free, a sleeping reader has nothing to read and a sleeping writer no room,
as long as nobody is killed between its last test and its sleep. -/
theorem pipe_no_lost_wakeup {s : PipeSys} {h : List PipeEvent}
    (hr : pipeMachine.Reach NoLateKill s h) (hfree : s.lock = none) :
    (ReaderAsleep s → s.pipe.nread = s.pipe.nwrite ∧ s.pipe.writeopen = true) ∧
    (WriterAsleep s → s.pipe.nwrite = (s.pipe.nread + pipeSize) % 2 ^ 32 ∧
      s.pipe.readopen = true) := by
  have hi := PipeSleep.reach hr
  have hl := (PipeFifo.reach hr).locks
  refine ⟨fun ha => ⟨?_, hi.openWrite ha⟩, fun ha => ⟨?_, hi.openRead ha⟩⟩
  · exact of_decide_eq_true (hi.empty_of_free hl hfree ha)
  · exact of_decide_eq_true (hi.full_of_free hl hfree ha)

theorem pipe_no_lost_wakeup_reader : ∃ s, pipeMachine.Reach NoLateKill s [] ∧ s.lock = none ∧
    ReaderAsleep s ∧ s.pipe.nread = s.pipe.nwrite ∧ s.pipe.writeopen = true := by
  have h0 : pipeMachine.Reach NoLateKill emptyPipe [] := .init emptyPipe_fresh
  have h1 := h0.step (a := .read 2 ⟨fun _ => true, 1⟩) nofun rfl
  have h2 := h1.step (a := .acquire 2) nofun rfl
  have h3 := h2.step (a := .run 2) nofun rfl
  have h4 := h3.step (a := .run 2) nofun rfl
  exact ⟨_, h4, rfl, ⟨2, rfl⟩, (pipe_no_lost_wakeup h4 rfl).1 ⟨2, rfl⟩⟩

/-- A reader sleeps on an empty pipe; the writer of two bytes is killed after the first
and returns without `wakeup(&pi->nread)`. -/
theorem pipe_wakeup_lost : ∃ s h, pipeMachine.Reach (fun _ _ => True) s h ∧ s.lock = none ∧
    ReaderAsleep s ∧ s.pipe.nread ≠ s.pipe.nwrite := by
  have h0 : pipeMachine.Reach (fun _ _ => True) emptyPipe [] := .init emptyPipe_fresh
  have h1 := h0.step (a := .read 2 ⟨fun _ => true, 1⟩) trivial rfl
  have h2 := h1.step (a := .acquire 2) trivial rfl
  have h3 := h2.step (a := .run 2) trivial rfl
  have h4 := h3.step (a := .run 2) trivial rfl
  have h5 := h4.step (a := .write 1 ⟨fun _ => some 7, 2⟩) trivial rfl
  have h6 := h5.step (a := .acquire 1) trivial rfl
  have h7 := h6.step (a := .run 1) trivial rfl
  have h8 := h7.step (a := .run 1) trivial rfl
  have h9 := h8.step (a := .kill 1) trivial rfl
  have h10 := h9.step (a := .run 1) trivial rfl
  refine ⟨_, _, h10, rfl, ⟨2, rfl⟩, ?_⟩
  change (0 : Nat) ≠ 1
  decide

end Xv6
