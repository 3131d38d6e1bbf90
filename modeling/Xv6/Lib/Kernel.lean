import Mathlib

/-! Kernel code over a state `σ`. `Kern` is code that runs without interruption and
may panic; `Thread` is code cut into such pieces, each with a label and with the
condition under which it may run. `Sat` is the weakest precondition: every
return meets `Q`, and every panic that is reached is one of `E`. -/

/-- Code that changes a state and may panic. -/
def Kern (σ α : Type) := σ → Except String (α × σ)

namespace Kern

variable {σ α β : Type}

instance : Monad (Kern σ) where
  pure a := fun s => .ok (a, s)
  bind m f := fun s =>
    match m s with
    | .ok (a, s') => f a s'
    | .error e => .error e

def getState : Kern σ σ := fun s => .ok (s, s)

def modifyState (f : σ → σ) : Kern σ Unit := fun s => .ok ((), f s)

protected def panic (msg : String) : Kern σ α := fun _ => .error msg

def forEach (body : α → Kern σ Unit) : List α → Kern σ Unit
  | [] => pure ()
  | x :: xs => do
    body x
    forEach body xs

/-- Code for a part of the state. -/
def zoom {τ : Type} (get : τ → σ) (put : σ → τ → τ) (m : Kern σ α) : Kern τ α := fun t =>
  match m (get t) with
  | .ok (a, s) => .ok (a, put s t)
  | .error e => .error e

structure Sat (m : Kern σ α) (s : σ) (E : String → Prop) (Q : α → σ → Prop) : Prop where
  of_ok : ∀ {a s'}, m s = .ok (a, s') → Q a s'
  of_error : ∀ {e}, m s = .error e → E e

variable {m : Kern σ α} {f : α → Kern σ β} {s : σ} {E E' : String → Prop} {Q Q' : α → σ → Prop}

lemma sat_of_eq {a : α} {s' : σ} (hm : m s = .ok (a, s')) : Sat m s E Q ↔ Q a s' := by
  constructor
  · intro h
    exact h.of_ok hm
  · intro hQ
    refine ⟨fun h => ?_, fun h => ?_⟩
    · rw [hm] at h
      cases h
      exact hQ
    · rw [hm] at h
      cases h

lemma sat_of_error {e : String} (hm : m s = .error e) : Sat m s E Q ↔ E e := by
  constructor
  · intro h
    exact h.of_error hm
  · intro hE
    refine ⟨fun h => ?_, fun h => ?_⟩
    · rw [hm] at h
      cases h
    · rw [hm] at h
      cases h
      exact hE

@[simp] lemma sat_pure {a : α} : Sat (pure a : Kern σ α) s E Q ↔ Q a s := sat_of_eq rfl

@[simp] lemma sat_getState {Q : σ → σ → Prop} : Sat (getState : Kern σ σ) s E Q ↔ Q s s :=
  sat_of_eq rfl

@[simp] lemma sat_modifyState {g : σ → σ} {Q : Unit → σ → Prop} :
    Sat (modifyState g) s E Q ↔ Q () (g s) :=
  sat_of_eq rfl

@[simp] lemma sat_panic {msg : String} : Sat (Kern.panic msg : Kern σ α) s E Q ↔ E msg :=
  sat_of_error rfl

lemma sat_bind {R : β → σ → Prop} : Sat (m >>= f) s E R ↔ Sat m s E fun a s' => Sat (f a) s' E R := by
  have hb : (m >>= f) s = match m s with | .ok (a, s') => f a s' | .error e => .error e := rfl
  cases hm : m s with
  | ok r =>
    rw [hm] at hb
    rw [sat_of_eq hm]
    constructor
    · exact fun h => ⟨fun ho => h.of_ok (hb.trans ho), fun he => h.of_error (hb.trans he)⟩
    · exact fun h => ⟨fun ho => h.of_ok (hb.symm.trans ho), fun he => h.of_error (hb.symm.trans he)⟩
  | error e =>
    rw [hm] at hb
    rw [sat_of_error hm, sat_of_error hb]

lemma Sat.mono (h : Sat m s E Q) (hE : ∀ e, E e → E' e)
    (hQ : ∀ a s', Q a s' → Q' a s') : Sat m s E' Q' :=
  ⟨fun hm => hQ _ _ (h.of_ok hm), fun hm => hE _ (h.of_error hm)⟩

lemma Sat.imp (h : Sat m s E Q) (hQ : ∀ a s', Q a s' → Q' a s') : Sat m s E Q' :=
  h.mono (fun _ he => he) hQ

lemma Sat.and (h : Sat m s E Q) (h' : Sat m s E Q') : Sat m s E fun a s' => Q a s' ∧ Q' a s' :=
  ⟨fun hm => ⟨h.of_ok hm, h'.of_ok hm⟩, h.of_error⟩

lemma Sat.bind {R : β → σ → Prop} (h : Sat m s E Q) (hf : ∀ a s', Q a s' → Sat (f a) s' E R) : Sat
    (m >>= f) s E R :=
  sat_bind.mpr (h.imp hf)

lemma Sat.returns (h : Sat m s (fun _ => False) Q) : ∃ a s', m s = .ok (a, s') ∧ Q a s' := by
  cases hm : m s with
  | ok r => exact ⟨r.1, r.2, rfl, h.of_ok hm⟩
  | error e => exact absurd (h.of_error hm) id

lemma sat_forEach {body : α → Kern σ Unit} {I : List α → σ → Prop} {xs : List α} (h : I xs s)
    (hstep : ∀ x xs s, I (x :: xs) s → Sat (body x) s E fun _ s' => I xs s') :
    Sat (forEach body xs) s E fun _ s' => I [] s' := by
  induction xs generalizing s with
  | nil => exact sat_pure.mpr h
  | cons x xs ih => exact (hstep x xs s h).bind fun _ s' hs' => ih hs'

lemma sat_zoom {τ : Type} {get : τ → σ} {put : σ → τ → τ} {t : τ} {R : α → τ → Prop} :
    Sat (zoom get put m) t E R ↔ Sat m (get t) E fun a s' => R a (put s' t) := by
  cases hm : m (get t) with
  | ok r =>
    have hz : zoom get put m t = .ok (r.1, put r.2 t) := by simp [zoom, hm]
    rw [sat_of_eq hm, sat_of_eq hz]
  | error e =>
    have hz : zoom get put m t = .error e := by simp [zoom, hm]
    rw [sat_of_error hm, sat_of_error hz]

end Kern

/-- Code of one process: pieces that run without interruption. `en` says in which
states the piece may run. -/
inductive Thread (L σ α : Type) : Type 1
  | ret (a : α) : Thread L σ α
  | act {β : Type} (l : L) (en : σ → Bool) (k : Kern σ β) (next : β → Thread L σ α) : Thread L σ α

namespace Thread

variable {L σ α β : Type}

def bind (t : Thread L σ α) (f : α → Thread L σ β) : Thread L σ β :=
  match t with
  | ret a => f a
  | act l en k next => act l en k fun b => (next b).bind f

instance : Monad (Thread L σ) where
  pure := ret
  bind := Thread.bind

def step (l : L) (k : Kern σ α) : Thread L σ α := act l (fun _ => true) k ret

/-- A step that waits until its condition holds. -/
def await (l : L) (en : σ → Bool) (k : Kern σ α) : Thread L σ α := act l en k ret

def run : Thread L σ α → σ → Option (Except String (α × σ))
  | ret a, s => some (.ok (a, s))
  | act _ en k next, s =>
    if en s then
      match k s with
      | .ok (b, s') => run (next b) s'
      | .error e => some (.error e)
    else none

def Sat : Thread L σ α → σ → (String → Prop) → (α → σ → Prop) → Prop
  | ret a, s, _, Q => Q a s
  | act _ en k next, s, E, Q => en s = true → k.Sat s E fun b s' => (next b).Sat s' E Q

variable {t : Thread L σ α} {f : α → Thread L σ β} {s : σ} {E : String → Prop} {Q Q' : α → σ → Prop}

@[simp] lemma sat_pure (a : α) : Sat (pure a : Thread L σ α) s E Q ↔ Q a s := Iff.rfl

lemma Sat.imp (h : t.Sat s E Q) (hQ : ∀ a s', Q a s' → Q' a s') : t.Sat s E Q' := by
  induction t generalizing s with
  | ret a => exact hQ a s h
  | act l en k next ih => exact fun hen => (h hen).imp fun b s' hb => ih b hb

lemma Sat.bind {R : β → σ → Prop} (h : t.Sat s E Q) (hf : ∀ a s', Q a s' → (f a).Sat s' E R) :
    Sat (t >>= f) s E R := by
  induction t generalizing s with
  | ret a => exact hf a s h
  | act l en k next ih => exact fun hen => (h hen).imp fun b s' hb => ih b hb

variable {l : L}

lemma sat_step {k : Kern σ α} (h : k.Sat s E Q) : Sat (step l k) s E Q := fun _ => h

lemma Sat.of_run {a : α} {s' : σ} (h : t.Sat s E Q) (hr : t.run s = some (.ok (a, s'))) : Q a s' := by
  induction t generalizing s with
  | ret b =>
    simp only [run, Option.some.injEq, Except.ok.injEq, Prod.mk.injEq] at hr
    obtain ⟨rfl, rfl⟩ := hr
    exact h
  | act l en k next ih =>
    by_cases hen : en s = true
    · simp only [run, hen, if_true] at hr
      cases hk : k s with
      | ok r =>
        rw [hk] at hr
        exact ih r.1 ((h hen).of_ok hk) hr
      | error e => simp [hk] at hr
    · simp [run, hen] at hr

lemma Sat.of_panic {e : String} (h : t.Sat s E Q) (hr : t.run s = some (.error e)) : E e := by
  induction t generalizing s with
  | ret b => simp [run] at hr
  | act l en k next ih =>
    by_cases hen : en s = true
    · simp only [run, hen, if_true] at hr
      cases hk : k s with
      | ok r =>
        rw [hk] at hr
        exact ih r.1 ((h hen).of_ok hk) hr
      | error e' =>
        simp only [hk, Option.some.injEq, Except.error.injEq] at hr
        subst hr
        exact (h hen).of_error hk
    · simp [run, hen] at hr

/-- As `Sat`, and no step has to wait. -/
def Ends : Thread L σ α → σ → (String → Prop) → (α → σ → Prop) → Prop
  | ret a, s, _, Q => Q a s
  | act _ en k next, s, E, Q => en s = true ∧ k.Sat s E fun b s' => (next b).Ends s' E Q

lemma ends_pure {a : α} (h : Q a s) : Ends (pure a : Thread L σ α) s E Q := h

lemma Ends.imp (h : t.Ends s E Q) (hQ : ∀ a s', Q a s' → Q' a s') : t.Ends s E Q' := by
  induction t generalizing s with
  | ret a => exact hQ a s h
  | act l en k next ih => exact ⟨h.1, h.2.imp fun b s' hb => ih b hb⟩

lemma Ends.bind {R : β → σ → Prop} (h : t.Ends s E Q) (hf : ∀ a s', Q a s' → (f a).Ends s' E R) :
    Ends (t >>= f) s E R := by
  induction t generalizing s with
  | ret a => exact hf a s h
  | act l en k next ih => exact ⟨h.1, h.2.imp fun b s' hb => ih b hb⟩

lemma ends_await {en : σ → Bool} {k : Kern σ α} (hen : en s = true) (h : k.Sat s E Q) :
    Ends (await l en k) s E Q := ⟨hen, h⟩

lemma ends_step {k : Kern σ α} (h : k.Sat s E Q) : Ends (step l k) s E Q := ends_await rfl h

def Returns (t : Thread L σ α) (s : σ) (Q : α → σ → Prop) : Prop :=
  ∃ a s', t.run s = some (.ok (a, s')) ∧ Q a s'

lemma run_bind_of_run {a : α} {s' : σ} (h : t.run s = some (.ok (a, s'))) :
    (t >>= f).run s = (f a).run s' := by
  induction t generalizing s with
  | ret b =>
    simp only [run, Option.some.injEq, Except.ok.injEq, Prod.mk.injEq] at h
    obtain ⟨rfl, rfl⟩ := h
    rfl
  | act l en k next ih =>
    have hb : (act l en k next >>= f) = act l en k fun b => next b >>= f := rfl
    rw [hb]
    by_cases hen : en s = true
    · simp only [run, hen, if_true] at h ⊢
      cases hk : k s with
      | ok r =>
        rw [hk] at h
        exact ih r.1 h
      | error e => simp [hk] at h
    · simp [run, hen] at h

def test (t : Thread L σ α) (s : σ) (Q : α → σ → Bool) : Bool :=
  match t.run s with
  | some (.ok (a, s')) => Q a s'
  | _ => false

lemma returns_of_test {Q : α → σ → Bool} (h : t.test s Q = true) :
    t.Returns s fun a s' => Q a s' = true := by
  unfold test at h
  split at h
  next a s' hr => exact ⟨a, s', hr, h⟩
  next => cases h

def panics (t : Thread L σ α) (s : σ) (e : String) : Bool :=
  match t.run s with
  | some (.error e') => decide (e' = e)
  | _ => false

lemma run_of_panics {e : String} (h : t.panics s e = true) : t.run s = some (.error e) := by
  unfold panics at h
  split at h
  next e' hr => rw [hr, of_decide_eq_true h]
  next => cases h

/-- As `Sat`, and `I` holds between the steps. -/
def Upholds (I : σ → Prop) : Thread L σ α → σ → (String → Prop) → (α → σ → Prop) → Prop
  | ret a, s, _, Q => I s ∧ Q a s
  | act _ en k next, s, E, Q => I s ∧ (en s = true → k.Sat s E fun b s' => (next b).Upholds I s' E Q)

def Visits : Thread L σ α → σ → σ → Prop
  | ret _, s, x => x = s
  | act _ en k next, s, x => x = s ∨ (en s = true ∧ ∃ b s', k s = .ok (b, s') ∧ (next b).Visits s' x)

variable {I : σ → Prop}

lemma upholds_pure {a : α} (hI : I s) (hQ : Q a s) : Upholds I (pure a : Thread L σ α) s E Q := ⟨hI, hQ⟩

lemma Upholds.imp (h : t.Upholds I s E Q) (hQ : ∀ a s', Q a s' → Q' a s') : t.Upholds I s E Q' := by
  induction t generalizing s with
  | ret a => exact ⟨h.1, hQ a s h.2⟩
  | act l en k next ih => exact ⟨h.1, fun hen => (h.2 hen).imp fun b s' hb => ih b hb⟩

lemma Upholds.bind {R : β → σ → Prop} (h : t.Upholds I s E Q)
    (hf : ∀ a s', Q a s' → (f a).Upholds I s' E R) : Upholds I (t >>= f) s E R := by
  induction t generalizing s with
  | ret a => exact hf a s h.2
  | act l en k next ih => exact ⟨h.1, fun hen => (h.2 hen).imp fun b s' hb => ih b hb⟩

/-- What a thread does is what its run alone does. -/
lemma Upholds.and_run (h : t.Upholds I s E Q) :
    t.Upholds I s E fun a s' => Q a s' ∧ t.run s = some (.ok (a, s')) := by
  induction t generalizing s with
  | ret a => exact ⟨h.1, h.2, rfl⟩
  | act l en k next ih =>
    refine ⟨h.1, fun hen => ⟨fun {b s'} hk => (ih b ((h.2 hen).of_ok hk)).imp ?_,
      (h.2 hen).of_error⟩⟩
    rintro a s' ⟨hQ, hr⟩
    refine ⟨hQ, ?_⟩
    simp only [run, hen, if_true, hk]
    exact hr

lemma upholds_await {en : σ → Bool} {k : Kern σ α} (hI : I s) (h : en s = true → k.Sat s E Q)
    (hQ : ∀ a s', Q a s' → I s') : Upholds I (await l en k) s E Q :=
  ⟨hI, fun hen => (h hen).imp fun a s' ha => ⟨hQ a s' ha, ha⟩⟩

lemma upholds_step {k : Kern σ α} (hI : I s) (h : k.Sat s E Q) (hQ : ∀ a s', Q a s' → I s') :
    Upholds I (step l k) s E Q :=
  upholds_await hI (fun _ => h) hQ

lemma Upholds.sat (h : t.Upholds I s E Q) : t.Sat s E Q := by
  induction t generalizing s with
  | ret a => exact h.2
  | act l en k next ih => exact fun hen => (h.2 hen).imp fun b s' hb => ih b hb

lemma Upholds.visits {x : σ} (h : t.Upholds I s E Q) (hx : t.Visits s x) : I x := by
  induction t generalizing s with
  | ret a =>
    rw [show x = s from hx]
    exact h.1
  | act l en k next ih =>
    rcases hx with rfl | ⟨hen, b, s', hk, hx⟩
    · exact h.1
    · exact ih b ((h.2 hen).of_ok hk) hx

lemma visits_of_run {a : α} {s' : σ} (h : t.run s = some (.ok (a, s'))) : t.Visits s s' := by
  induction t generalizing s with
  | ret b =>
    simp only [run, Option.some.injEq, Except.ok.injEq, Prod.mk.injEq] at h
    exact h.2.symm
  | act l en k next ih =>
    by_cases hen : en s = true
    · simp only [run, hen, if_true] at h
      cases hk : k s with
      | ok r =>
        rw [hk] at h
        exact .inr ⟨hen, r.1, r.2, hk, ih r.1 h⟩
      | error e => simp [hk] at h
    · simp [run, hen] at h

def zoom {τ : Type} (get : τ → σ) (put : σ → τ → τ) : Thread L σ α → Thread L τ α
  | ret a => ret a
  | act l en k next => act l (fun t => en (get t)) (k.zoom get put) fun b => (next b).zoom get put

lemma Upholds.zoom {τ : Type} {get : τ → σ} {put : σ → τ → τ} {J : τ → Prop} {x : τ}
    {R : α → τ → Prop} (hgp : ∀ s x, get (put s x) = s) (hpp : ∀ s s' x, put s (put s' x) = put s x)
    (hpg : ∀ x, put (get x) x = x)
    (h : t.Upholds (fun s => J (put s x)) (get x) E fun a s =>
      R a (put s x)) : (t.zoom get put).Upholds J x E R := by
  induction t generalizing x with
  | ret a =>
    obtain ⟨hI, hQ⟩ := h
    rw [hpg] at hI hQ
    exact ⟨hI, hQ⟩
  | act l en k next ih =>
    obtain ⟨hI, hk⟩ := h
    rw [hpg] at hI
    refine ⟨hI, fun hen => Kern.sat_zoom.mpr ((hk hen).imp fun b s' hb => ih b ?_)⟩
    rw [hgp]
    simpa only [hpp] using hb

end Thread
