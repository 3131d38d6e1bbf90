import Mathlib

/-! Programs over a volatile memory and a disk whose single-block writes are
atomic and reach the disk in order. A power failure keeps a prefix of the
writes and loses the memory. -/

/-- A program over memory `M` and a disk with addresses `A` and blocks `V`.
`mem f k` replaces the memory `m` by `f m` and goes on with `k m`. -/
inductive DiskProg (M A V α : Type) where
  | ret (a : α)
  | mem (f : M → M) (k : M → DiskProg M A V α)
  | read (a : A) (k : V → DiskProg M A V α)
  | write (a : A) (v : V) (k : DiskProg M A V α)

namespace DiskProg

variable {M A V α β : Type}

def bind : DiskProg M A V α → (α → DiskProg M A V β) → DiskProg M A V β
  | ret a, g => g a
  | mem f k, g => mem f fun m => (k m).bind g
  | read a k, g => read a fun v => (k v).bind g
  | write a v k, g => write a v (k.bind g)

instance : Monad (DiskProg M A V) where
  pure := ret
  bind := bind

def getMem : DiskProg M A V M := mem id ret

def modifyMem (f : M → M) : DiskProg M A V Unit := mem f fun _ => ret ()

def readDisk (a : A) : DiskProg M A V V := read a ret

def writeDisk (a : A) (v : V) : DiskProg M A V Unit := write a v (ret ())

/-- The disk after some writes, in order. -/
def applyWrites [DecidableEq A] (d : A → V) : List (A × V) → A → V
  | [] => d
  | w :: ws => applyWrites (Function.update d w.1 w.2) ws

section

variable [DecidableEq A]

lemma applyWrites_append (d : A → V) (ws us : List (A × V)) :
    applyWrites d (ws ++ us) = applyWrites (applyWrites d ws) us := by
  induction ws generalizing d with
  | nil => rfl
  | cons w ws ih => exact ih _

variable {ws : List (A × V)}

lemma applyWrites_of_not_mem {d : A → V} {a : A}
    (h : ∀ w ∈ ws, w.1 ≠ a) : applyWrites d ws a = d a := by
  induction ws generalizing d with
  | nil => rfl
  | cons w ws ih =>
    have hw : w.1 ≠ a := h w (by simp)
    rw [applyWrites, ih (fun u hu => h u (by simp [hu])), Function.update_of_ne hw.symm]

lemma applyWrites_of_mem {d : A → V} {a : A} {v : V}
    (hmem : ∃ w ∈ ws, w.1 = a) (hval : ∀ w ∈ ws, w.1 = a → w.2 = v) : applyWrites d ws a = v := by
  induction ws generalizing d with
  | nil => simp at hmem
  | cons w ws ih =>
    by_cases ht : ∃ u ∈ ws, u.1 = a
    · exact ih ht fun u hu => hval u (by simp [hu])
    · obtain ⟨u, hu, hua⟩ := hmem
      have hw : w.1 = a := by
        rcases List.mem_cons.mp hu with rfl | hu
        · exact hua
        · exact absurd ⟨u, hu, hua⟩ ht
      have hrest : ∀ u ∈ ws, u.1 ≠ a := fun u hu hua => ht ⟨u, hu, hua⟩
      rw [applyWrites, applyWrites_of_not_mem hrest, hw, Function.update_self]
      exact hval w (by simp) hw

variable (p : DiskProg M A V α) (m : M) (d : A → V)

def run : DiskProg M A V α → M → (A → V) → α × M × (A → V)
  | ret a, m, d => (a, m, d)
  | mem f k, m, d => run (k m) (f m) d
  | read a k, m, d => run (k (d a)) m d
  | write a v k, m, d => run k m (Function.update d a v)

/-- The writes of a run. -/
def trace : DiskProg M A V α → M → (A → V) → List (A × V)
  | ret _, _, _ => []
  | mem f k, m, d => trace (k m) (f m) d
  | read a k, m, d => trace (k (d a)) m d
  | write a v k, m, d => (a, v) :: trace k m (Function.update d a v)

/-- The disk when power fails after `n` writes. -/
def cut : Nat → DiskProg M A V α → M → (A → V) → A → V
  | _, ret _, _, d => d
  | n, mem f k, m, d => cut n (k m) (f m) d
  | n, read a k, m, d => cut n (k (d a)) m d
  | 0, write _ _ _, _, d => d
  | n + 1, write a v k, m, d => cut n k m (Function.update d a v)

lemma cut_eq (n : Nat) : cut n p m d = applyWrites d ((trace p m d).take n) := by
  induction p generalizing n m d with
  | ret a => simp [cut, trace, applyWrites]
  | mem f k ih => exact ih m (f m) d n
  | read a k ih => exact ih (d a) m d n
  | write a v k ih =>
    cases n with
    | zero => rfl
    | succ n => exact ih m (Function.update d a v) n

lemma run_disk : (run p m d).2.2 = applyWrites d (trace p m d) := by
  induction p generalizing m d with
  | ret a => rfl
  | mem f k ih => exact ih m (f m) d
  | read a k ih => exact ih (d a) m d
  | write a v k ih => exact ih m (Function.update d a v)

end

section

variable [DecidableEq A] (m : M) (d : A → V)

lemma run_bind (p : DiskProg M A V α) (g : α → DiskProg M A V β) :
    run (p >>= g) m d = run (g (run p m d).1) (run p m d).2.1 (run p m d).2.2 := by
  induction p generalizing m d with
  | ret a => rfl
  | mem f k ih => exact ih m (f m) d
  | read a k ih => exact ih (d a) m d
  | write a v k ih => exact ih m (Function.update d a v)

lemma trace_bind (p : DiskProg M A V α) (g : α → DiskProg M A V β) : trace (p >>= g) m d =
      trace p m d ++ trace (g (run p m d).1) (run p m d).2.1 (run p m d).2.2 := by
  induction p generalizing m d with
  | ret a => rfl
  | mem f k ih => exact ih m (f m) d
  | read a k ih => exact ih (d a) m d
  | write a v k ih => exact congrArg (_ :: ·) (ih m (Function.update d a v))

@[simp] lemma run_pure (a : α) : run (pure a : DiskProg M A V α) m d = (a, m, d) := rfl

@[simp] lemma run_getMem : run (getMem : DiskProg M A V M) m d = (m, m, d) := rfl

@[simp] lemma run_modifyMem (f : M → M) :
    run (modifyMem f : DiskProg M A V Unit) m d = ((), f m, d) := rfl

@[simp] lemma run_readDisk (a : A) : run (readDisk a : DiskProg M A V V) m d = (d a, m, d) := rfl

@[simp] lemma run_writeDisk (a : A) (v : V) :
    run (writeDisk a v : DiskProg M A V Unit) m d = ((), m, Function.update d a v) := rfl

@[simp] lemma trace_pure (a : α) : trace (pure a : DiskProg M A V α) m d = [] := rfl

@[simp] lemma trace_getMem : trace (getMem : DiskProg M A V M) m d = [] := rfl

@[simp] lemma trace_modifyMem (f : M → M) : trace (modifyMem f : DiskProg M A V Unit) m d = [] := rfl

@[simp] lemma trace_readDisk (a : A) : trace (readDisk a : DiskProg M A V V) m d = [] := rfl

@[simp] lemma trace_writeDisk (a : A) (v : V) :
    trace (writeDisk a v : DiskProg M A V Unit) m d = [(a, v)] := rfl

end

section

variable [DecidableEq A]

/-- Started in `m` and `d`, the program makes the writes `ws`, returns `a` and
leaves the memory `m'`. -/
structure Does (p : DiskProg M A V α) (m : M) (d : A → V) (ws : List (A × V)) (a : α) (m' : M) :
    Prop where
  trace : trace p m d = ws
  value : (run p m d).1 = a
  mem : (run p m d).2.1 = m'

lemma Does.disk {p : DiskProg M A V α} {m m' : M} {d : A → V} {ws : List (A × V)} {a : α}
    (h : Does p m d ws a m') : (run p m d).2.2 = applyWrites d ws := by
  rw [run_disk, h.trace]

lemma Does.bind {p : DiskProg M A V α} {g : α → DiskProg M A V β} {m m' m'' : M} {d : A → V}
    {ws us : List (A × V)} {a : α} {b : β} (h : Does p m d ws a m')
    (hg : Does (g a) m' (applyWrites d ws) us b m'') : Does (p >>= g) m d (ws ++ us) b m'' := by
  constructor
  · rw [trace_bind, h.value, h.mem, h.disk, h.trace, hg.trace]
  · rw [run_bind, h.value, h.mem, h.disk, hg.value]
  · rw [run_bind, h.value, h.mem, h.disk, hg.mem]

lemma does_pure (a : α) (m : M) (d : A → V) : Does (pure a) m d [] a m := ⟨rfl, rfl, rfl⟩

lemma does_getMem (m : M) (d : A → V) : Does getMem m d [] m m := ⟨rfl, rfl, rfl⟩

lemma does_modifyMem (f : M → M) (m : M) (d : A → V) : Does (modifyMem f) m d [] () (f m) :=
  ⟨rfl, rfl, rfl⟩

lemma does_writeDisk (a : A) (v : V) (m : M) (d : A → V) : Does (writeDisk a v) m d [(a, v)] () m :=
  ⟨rfl, rfl, rfl⟩

end

/-- `for (i = i0; i < bound; i++) body(i)` where the bound is looked up in memory
at every test. The fuel is a bound on the number of iterations. -/
def forBelow (bound : M → Nat) (body : Nat → DiskProg M A V Unit) :
    Nat → Nat → DiskProg M A V Unit
  | 0, _ => pure ()
  | fuel + 1, i => do
    let m ← getMem
    if i < bound m then
      body i
      forBelow bound body fuel (i + 1)
    else
      pure ()

variable {body : Nat → DiskProg M A V Unit} {X : Type} {g : M → X}

lemma forBelow_does [DecidableEq A] {bound : M → Nat}
    {I : M → (A → V) → Prop} {w : Nat → A × V} {n : Nat} (hbound : ∀ m d, I m d → bound m = n)
    (hbody : ∀ i m d, i < n → I m d → ∃ m', Does (body i) m d [w i] () m' ∧ I m' (applyWrites d [w i]))
    (fuel i : Nat) (hi : i ≤ n) (hf : n ≤ i + fuel) (m : M) (d : A → V) (h : I m d) :
    ∃ m', Does (forBelow bound body fuel i) m d ((List.range' i (n - i)).map w) () m' ∧
      I m' (applyWrites d ((List.range' i (n - i)).map w)) := by
  induction fuel generalizing i m d with
  | zero =>
    have he : n - i = 0 := by omega
    rw [he]
    exact ⟨m, does_pure () m d, h⟩
  | succ fuel ih =>
    have hb := hbound m d h
    by_cases hlt : i < n
    · obtain ⟨m', hdo, hinv⟩ := hbody i m d hlt h
      obtain ⟨m'', hrest, hinv'⟩ := ih (i + 1) hlt (by omega) m' _ hinv
      have hn : n - i = (n - (i + 1)) + 1 := by omega
      refine ⟨m'', ?_, ?_⟩
      · rw [hn, List.range'_succ, List.map_cons]
        refine (does_getMem m d).bind ?_
        rw [hb, if_pos hlt]
        exact hdo.bind hrest
      · rw [hn, List.range'_succ, List.map_cons]
        exact hinv'
    · have he : n - i = 0 := by omega
      refine ⟨m, ?_, ?_⟩
      · rw [he]
        refine (does_getMem m d).bind ?_
        rw [hb, if_neg hlt]
        exact does_pure () m _
      · rw [he]
        exact h

/-- The next instruction, for programs whose steps are interleaved with those of others. -/
def step [DecidableEq A] :
    DiskProg M A V α → M → (A → V) → Option (DiskProg M A V α × M × (A → V))
  | ret _, _, _ => none
  | mem f k, m, d => some (k m, f m, d)
  | read a k, m, d => some (k (d a), m, d)
  | write a v k, m, d => some (k, m, Function.update d a v)

lemma run_of_step [DecidableEq A] {p p' : DiskProg M A V α} {m m' : M} {d d' : A → V}
    (h : step p m d = some (p', m', d')) : run p' m' d' = run p m d := by
  cases p with
  | ret a => simp [step] at h
  | mem f k =>
    simp only [step, Option.some.injEq, Prod.mk.injEq] at h
    obtain ⟨rfl, rfl, rfl⟩ := h
    rfl
  | read a k =>
    simp only [step, Option.some.injEq, Prod.mk.injEq] at h
    obtain ⟨rfl, rfl, rfl⟩ := h
    rfl
  | write a v k =>
    simp only [step, Option.some.injEq, Prod.mk.injEq] at h
    obtain ⟨rfl, rfl, rfl⟩ := h
    rfl

/-- The program never changes `g` of its memory. -/
def Keeps {X : Type} (g : M → X) : DiskProg M A V α → Prop
  | ret _ => True
  | mem f k => (∀ m, g (f m) = g m) ∧ ∀ m, Keeps g (k m)
  | read _ k => ∀ v, Keeps g (k v)
  | write _ _ k => Keeps g k

lemma Keeps.bind {p : DiskProg M A V α} {f : α → DiskProg M A V β}
    (hp : Keeps g p) (hf : ∀ a, Keeps g (f a)) : Keeps g (p >>= f) := by
  induction p with
  | ret a => exact hf a
  | mem u k ih => exact ⟨hp.1, fun m => ih m (hp.2 m)⟩
  | read a k ih => exact fun v => ih v (hp v)
  | write a v k ih => exact ih hp

lemma keeps_getMem : Keeps g (getMem : DiskProg M A V M) :=
  ⟨fun _ => rfl, fun _ => trivial⟩

lemma keeps_modifyMem {f : M → M} (h : ∀ m, g (f m) = g m) :
    Keeps g (modifyMem f : DiskProg M A V Unit) := ⟨h, fun _ => trivial⟩

lemma Keeps.forBelow (bound : M → Nat)
    (hb : ∀ i, Keeps g (body i)) (fuel i : Nat) :
    Keeps g (forBelow bound body fuel i) := by
  induction fuel generalizing i with
  | zero => trivial
  | succ fuel ih =>
    refine keeps_getMem.bind fun m => ?_
    by_cases hi : i < bound m
    · rw [if_pos hi]
      exact (hb i).bind fun _ => ih (i + 1)
    · rw [if_neg hi]
      trivial

lemma Keeps.run [DecidableEq A] {p : DiskProg M A V α} (hp : Keeps g p)
    (m : M) (d : A → V) : g (run p m d).2.1 = g m := by
  induction p generalizing m d with
  | ret a => rfl
  | mem f k ih => exact (ih m (hp.2 m) (f m) d).trans (hp.1 m)
  | read a k ih => exact ih (d a) (hp (d a)) m d
  | write a v k ih => exact ih hp m (Function.update d a v)

lemma Keeps.step [DecidableEq A] {p p' : DiskProg M A V α} {m m' : M}
    {d d' : A → V} (hp : Keeps g p) (h : step p m d = some (p', m', d')) : Keeps g p' ∧ g m' = g m := by
  cases p with
  | ret a => simp [DiskProg.step] at h
  | mem f k =>
    simp only [DiskProg.step, Option.some.injEq, Prod.mk.injEq] at h
    obtain ⟨rfl, rfl, rfl⟩ := h
    exact ⟨hp.2 m, hp.1 m⟩
  | read a k =>
    simp only [DiskProg.step, Option.some.injEq, Prod.mk.injEq] at h
    obtain ⟨rfl, rfl, rfl⟩ := h
    exact ⟨hp _, rfl⟩
  | write a v k =>
    simp only [DiskProg.step, Option.some.injEq, Prod.mk.injEq] at h
    obtain ⟨rfl, rfl, rfl⟩ := h
    exact ⟨hp, rfl⟩

end DiskProg
