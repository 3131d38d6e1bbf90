import Xv6.LogCrash

/-! `begin_op`, `log_write` and `end_op` by any number of processes. Each critical
section under `log.lock` is one step; `commit()` runs without the lock, one
instruction a step. An observer numbers the system calls of each process and
records what they log, cut into transactions where a commit finishes. -/

namespace Xv6

open DiskProg

instance (sb : Superblock) (b : Nat) : Decidable (InLog sb b) :=
  inferInstanceAs (Decidable (_ ∧ _))

def beginOp (l : Log) : Option Log :=
  if l.committing then none
  else if (l.lh.length : Int) + (l.outstanding + 1) * maxOpBlocks > logSize then none
  else some { l with outstanding := l.outstanding + 1 }

def logAbsorb : List Nat → Nat → List Nat
  | [], b => [b]
  | x :: xs, b => if x = b then b :: xs else x :: logAbsorb xs b

section

variable {l : List Nat} {b x : Nat}

lemma mem_logAbsorb : x ∈ logAbsorb l b ↔ x ∈ l ∨ x = b := by
  induction l with
  | nil => simp [logAbsorb]
  | cons y ys ih =>
    by_cases hy : y = b
    · subst hy
      simp only [logAbsorb, if_true, List.mem_cons]
      tauto
    · simp only [logAbsorb, if_neg hy, List.mem_cons, ih]
      tauto

lemma nodup_logAbsorb (h : l.Nodup) (b : Nat) : (logAbsorb l b).Nodup := by
  induction l with
  | nil => simp [logAbsorb]
  | cons y ys ih =>
    obtain ⟨hy, hys⟩ := List.nodup_cons.mp h
    by_cases hb : y = b
    · subst hb
      simpa [logAbsorb] using h
    · simp only [logAbsorb, if_neg hb]
      refine List.nodup_cons.mpr ⟨?_, ih hys⟩
      rw [mem_logAbsorb]
      tauto

lemma length_logAbsorb (h : b ∉ l) : (logAbsorb l b).length = l.length + 1 := by
  induction l with
  | nil => rfl
  | cons x xs ih =>
    obtain ⟨hx, hxs⟩ := not_or.mp (mt List.mem_cons.mpr h)
    simp [logAbsorb, Ne.symm hx, ih hxs]

lemma logAbsorb_of_mem (h : b ∈ l) : logAbsorb l b = l := by
  induction l with
  | nil => cases h
  | cons x xs ih =>
    by_cases hx : x = b
    · simp [logAbsorb, hx]
    · have hxs : b ∈ xs := (List.mem_cons.mp h).resolve_left fun he => hx he.symm
      simp [logAbsorb, hx, ih hxs]

lemma length_logAbsorb_le (l : List Nat) (b : Nat) : (logAbsorb l b).length ≤ l.length + 1 := by
  by_cases hb : b ∈ l
  · rw [logAbsorb_of_mem hb]
    exact Nat.le_succ _
  · rw [length_logAbsorb hb]

lemma length_le_logAbsorb (l : List Nat) (b : Nat) : l.length ≤ (logAbsorb l b).length := by
  by_cases hb : b ∈ l
  · rw [logAbsorb_of_mem hb]
  · rw [length_logAbsorb hb]
    exact Nat.le_succ _

end

def logWrite (l : Log) (b : Nat) : Except String Log :=
  if l.lh.length ≥ logSize ∨ l.lh.length ≥ l.size - 1 then .error "too big a transaction"
  else if l.outstanding < 1 then .error "log_write outside of trans"
  else .ok { l with lh := logAbsorb l.lh b }

def endOp (l : Log) : Except String (Log × Bool) :=
  let l := { l with outstanding := l.outstanding - 1 }
  if l.committing then .error "log.committing"
  else if l.outstanding = 0 then .ok ({ l with committing := true }, true)
  else .ok (l, false)

inductive LogPc where
  | out
  | entered
  | asleep
  | active
  | commit (rest : LogProg Unit)

structure LogSys where
  mem : LogMem
  disk : Disk
  pc : Nat → LogPc

def LogSys.boot (sb : Superblock) (d : Disk) : LogSys :=
  ⟨(Xv6.boot sb d).1, (Xv6.boot sb d).2, fun _ => .out⟩

def LogSys.setPc (s : LogSys) (p : Nat) (c : LogPc) : LogSys :=
  { s with pc := Function.update s.pc p c }

def LogSys.setLog (s : LogSys) (l : Log) : LogSys := { s with mem := { s.mem with log := l } }

def LogSys.wakeup (s : LogSys) : LogSys :=
  { s with pc := fun p => match s.pc p with | .asleep => .entered | c => c }

abbrev HomeBlock (sb : Superblock) := { b : Nat // ¬ InLog sb b ∧ b < 2 ^ 32 }

/-- The steps of the processes. -/
inductive LogAct (sb : Superblock) where
  | enter (p : Nat)
  | begin (p : Nat)
  | write (p : Nat) (b : HomeBlock sb) (v : Block)
  | endOp (p : Nat)
  | commit (p : Nat)
  | finish (p : Nat)

def LogSys.step {sb : Superblock} (s : LogSys) : LogAct sb → Option (Except String LogSys)
  | .enter p =>
    match s.pc p with
    | .out => some (.ok (s.setPc p .entered))
    | _ => none
  | .begin p =>
    match s.pc p with
    | .entered =>
      match beginOp s.mem.log with
      | some l => some (.ok ((s.setLog l).setPc p .active))
      | none => some (.ok (s.setPc p .asleep))
    | _ => none
  | .write p b v =>
    match s.pc p with
    | .active =>
      match logWrite s.mem.log b with
      | .ok l => some (.ok { s with mem := { s.mem.setCache b v with log := l } })
      | .error e => some (.error e)
    | _ => none
  | .endOp p =>
    match s.pc p with
    | .active =>
      match Xv6.endOp s.mem.log with
      | .ok (l, true) => some (.ok ((s.setLog l).setPc p (.commit Xv6.commit)))
      | .ok (l, false) => some (.ok ((s.setLog l).wakeup.setPc p .out))
      | .error e => some (.error e)
    | _ => none
  | .commit p =>
    match s.pc p with
    | .commit q =>
      match q.step s.mem s.disk with
      | some (q', m', d') => some (.ok ⟨m', d', Function.update s.pc p (.commit q')⟩)
      | none => none
    | _ => none
  | .finish p =>
    match s.pc p with
    | .commit (.ret _) =>
      some (.ok ((s.setLog { s.mem.log with committing := false }).wakeup.setPc p .out))
    | _ => none

section

variable {sb : Superblock} {s s' : LogSys} {p : Nat}

lemma step_enter (h : s.step (.enter p : LogAct sb) = some (.ok s')) :
    s.pc p = .out ∧ s' = s.setPc p .entered := by
  cases hp : s.pc p <;> simp [LogSys.step, hp] at h
  exact ⟨rfl, h.symm⟩

lemma step_begin (h : s.step (.begin p : LogAct sb) = some (.ok s')) : s.pc p = .entered ∧
      ((∃ l, beginOp s.mem.log = some l ∧ s' = (s.setLog l).setPc p .active) ∨
        (beginOp s.mem.log = none ∧ s' = s.setPc p .asleep)) := by
  cases hp : s.pc p <;> simp only [LogSys.step, hp, reduceCtorEq] at h
  refine ⟨rfl, ?_⟩
  cases hb : beginOp s.mem.log with
  | none =>
    simp only [hb, Option.some.injEq, Except.ok.injEq] at h
    exact .inr ⟨rfl, h.symm⟩
  | some l =>
    simp only [hb, Option.some.injEq, Except.ok.injEq] at h
    exact .inl ⟨l, rfl, h.symm⟩

lemma step_write {b : HomeBlock sb} {v : Block} (h : s.step (.write p b v) = some (.ok s')) :
    s.pc p = .active ∧ ∃ l, logWrite s.mem.log b = .ok l ∧
      s' = { s with mem := { s.mem.setCache b v with log := l } } := by
  cases hp : s.pc p <;> simp only [LogSys.step, hp, reduceCtorEq] at h
  refine ⟨rfl, ?_⟩
  cases hw : logWrite s.mem.log b with
  | error e => simp [hw] at h
  | ok l =>
    simp only [hw, Option.some.injEq, Except.ok.injEq] at h
    exact ⟨l, rfl, h.symm⟩

lemma step_endOp (h : s.step (.endOp p : LogAct sb) = some (.ok s')) :
    s.pc p = .active ∧ ∃ l, (endOp s.mem.log = .ok (l, true) ∧
        s' = (s.setLog l).setPc p (.commit commit)) ∨
      (endOp s.mem.log = .ok (l, false) ∧ s' = (s.setLog l).wakeup.setPc p .out) := by
  cases hp : s.pc p <;> simp only [LogSys.step, hp, reduceCtorEq] at h
  refine ⟨rfl, ?_⟩
  rcases he : endOp s.mem.log with e | ⟨l, c⟩
  · simp [he] at h
  · cases c <;> simp only [he, Option.some.injEq, Except.ok.injEq] at h
    · exact ⟨l, .inr ⟨rfl, h.symm⟩⟩
    · exact ⟨l, .inl ⟨rfl, h.symm⟩⟩

lemma step_commit (h : s.step (.commit p : LogAct sb) = some (.ok s')) :
    ∃ q q' m' d', s.pc p = .commit q ∧ q.step s.mem s.disk = some (q', m', d') ∧
      s' = ⟨m', d', Function.update s.pc p (.commit q')⟩ := by
  cases hp : s.pc p <;> simp only [LogSys.step, hp, reduceCtorEq] at h
  rename_i q
  rcases hq : q.step s.mem s.disk with - | ⟨q', m', d'⟩
  · simp [hq] at h
  · simp only [hq, Option.some.injEq, Except.ok.injEq] at h
    exact ⟨q, q', m', d', rfl, hq, h.symm⟩

lemma step_finish (h : s.step (.finish p : LogAct sb) = some (.ok s')) :
    (∃ u, s.pc p = .commit (.ret u)) ∧
      s' = (s.setLog { s.mem.log with committing := false }).wakeup.setPc p .out := by
  cases hp : s.pc p <;> simp only [LogSys.step, hp, reduceCtorEq] at h
  rename_i q
  cases q <;> simp only [Option.some.injEq, Except.ok.injEq, reduceCtorEq] at h
  exact ⟨⟨_, rfl⟩, h.symm⟩

end

/-- One `log_write` as the observer records it; `call` is the process and the
number of its system call. -/
structure Logged where
  call : Nat × Nat
  block : Nat
  data : Block

structure LogTrace where
  calls : Nat → Nat
  pending : List Logged
  committed : List (List Logged)

def LogTrace.init : LogTrace := ⟨fun _ => 0, [], []⟩

def LogTrace.observe {sb : Superblock} (o : LogTrace) (s' : LogSys) : LogAct sb → LogTrace
  | .begin p =>
    match s'.pc p with
    | .active => { o with calls := Function.update o.calls p (o.calls p + 1) }
    | _ => o
  | .write p b v => { o with pending := o.pending ++ [⟨(p, o.calls p), b, v⟩] }
  | .finish _ => { o with pending := [], committed := o.committed ++ [o.pending] }
  | _ => o

/-- Runs whose every step satisfies `ok`. -/
inductive LogRun {sb : Superblock} (ok : LogTrace → LogAct sb → Prop) (s₀ : LogSys) :
    LogSys → LogTrace → Prop
  | init : LogRun ok s₀ s₀ LogTrace.init
  | step {s s' : LogSys} {o : LogTrace} (a : LogAct sb) : LogRun ok s₀ s o → ok o a →
      s.step a = some (.ok s') → LogRun ok s₀ s' (o.observe s' a)

def latest (l : List Logged) (b : Nat) : Option Block :=
  l.foldl (fun v w => if w.block = b then some w.data else v) none

def applyLogged (d : Disk) (l : List Logged) : Disk := fun b => (latest l b).getD (d b)

end Xv6
