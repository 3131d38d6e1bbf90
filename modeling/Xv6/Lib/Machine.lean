import Mathlib

/-! Labelled transition systems. `ok` restricts the steps of a run; an observer keeps the
list of what the steps put out. -/

structure Machine (σ α ε : Type) where
  init : σ → Prop
  step : σ → α → Option (σ × List ε)

namespace Machine

variable {σ α ε : Type}

/-- The states, with their histories, of the runs whose steps are all `ok`. -/
inductive Reach (M : Machine σ α ε) (ok : σ → α → Prop) : σ → List ε → Prop
  | init {s : σ} (h : M.init s) : Reach M ok s []
  | step {s s' : σ} {hist out : List ε} {a : α} (h : Reach M ok s hist) (hok : ok s a)
      (hs : M.step s a = some (s', out)) : Reach M ok s' (hist ++ out)

variable {M : Machine σ α ε} {ok ok' : σ → α → Prop} {I : σ → List ε → Prop} {s : σ} {hist : List ε}

lemma Reach.invariant (h : M.Reach ok s hist) (h0 : ∀ s, M.init s → I s [])
    (hstep : ∀ {s s' hist out a}, M.Reach ok s hist → I s hist → ok s a →
      M.step s a = some (s', out) → I s' (hist ++ out)) : I s hist := by
  induction h with
  | init h => exact h0 _ h
  | step h hok hs ih => exact hstep h ih hok hs

lemma Reach.mono (h : M.Reach ok s hist) (hok : ∀ s a, ok s a → ok' s a) : M.Reach ok' s hist := by
  induction h with
  | init h => exact .init h
  | step h hk hs ih => exact .step ih (hok _ _ hk) hs

def run (M : Machine σ α ε) (s : σ) : List α → Option (σ × List ε)
  | [] => some (s, [])
  | a :: as =>
    match M.step s a with
    | none => none
    | some (s', out) => (M.run s' as).map fun r => (r.1, out ++ r.2)

lemma Reach.run {s' : σ} {out : List ε} (h : M.Reach ok s hist) (as : List α) (hok : ∀ s a, ok s a)
    (hr : M.run s as = some (s', out)) : M.Reach ok s' (hist ++ out) := by
  induction as generalizing s hist out with
  | nil =>
    cases hr
    simpa using h
  | cons a as ih =>
    rw [Machine.run] at hr
    split at hr
    · cases hr
    · next s1 out1 hs =>
      obtain ⟨⟨s2, out2⟩, hr', he⟩ := Option.map_eq_some_iff.mp hr
      cases he
      rw [← List.append_assoc]
      exact ih (h.step (hok s a) hs) hr'

/-- The machine without the steps that fail a test. -/
def guard (M : Machine σ α ε) (test : σ → α → Bool) : Machine σ α ε where
  init := M.init
  step := fun s a => if test s a then M.step s a else none

lemma Reach.of_guard {test : σ → α → Bool} (h : (M.guard test).Reach (fun _ _ => True) s hist)
    (hok : ∀ {s a}, test s a = true → ok s a) : M.Reach ok s hist := by
  induction h with
  | init h => exact .init h
  | step h _ hs ih =>
    simp only [guard] at hs
    split at hs
    next ht => exact .step ih (hok ht) hs
    next => cases hs

lemma split_last {hist evs pre post : List ε} {e : ε} (h : hist ++ evs = pre ++ e :: post) :
    e ∈ evs ∨ ∃ post', hist = pre ++ e :: post' ∧ post = post' ++ evs := by
  rcases List.append_eq_append_iff.mp h with ⟨l, -, he⟩ | ⟨l, hh, he⟩
  · rw [he]
    exact .inl (List.mem_append_right _ List.mem_cons_self)
  · cases l with
    | nil =>
      rw [List.nil_append] at he
      rw [← he]
      exact .inl List.mem_cons_self
    | cons x l =>
      rw [List.cons_append] at he
      cases he
      exact .inr ⟨l, hh, rfl⟩

lemma split_concat {hist pre post : List ε} {e e' : ε} (h : hist ++ [e] = pre ++ e' :: post) :
    hist = pre ∧ e = e' ∨ ∃ post', hist = pre ++ e' :: post' ∧ post = post' ++ [e] := by
  rcases List.eq_nil_or_concat post with rfl | ⟨post', x, rfl⟩
  · exact .inl (List.append_singleton_inj.mp h)
  · rw [List.concat_eq_append, ← List.cons_append, ← List.append_assoc] at h
    obtain ⟨h1, h2⟩ := List.append_singleton_inj.mp h
    exact .inr ⟨post', h1, by rw [List.concat_eq_append, h2]⟩

end Machine
