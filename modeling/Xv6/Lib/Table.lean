import Mathlib

/-! What the entries of a table hold. `gather n G` lists the contents `G k` of the
entries below `n`; changing one entry exchanges its contents. A search through a table
may go row by row. -/

variable {α : Type}

/-- The lists of `0` to `n - 1`, one after the other. -/
def gather (n : Nat) (G : Nat → List α) : List α := (List.range n).flatMap G

lemma gather_succ (n : Nat) (G : Nat → List α) : gather (n + 1) G = gather n G ++ G n := by
  simp [gather, List.range_succ]

variable {n k : Nat}

lemma mem_gather {G : Nat → List α} {a : α} : a ∈ gather n G ↔ ∃ k < n, a ∈ G k := by
  simp [gather]

lemma gather_congr {G H : Nat → List α} (h : ∀ k < n, H k = G k) : gather n H = gather n G := by
  unfold gather
  exact List.flatMap_congr fun k hk => h k (List.mem_range.mp hk)

lemma gather_exchange {G H : Nat → List α} (hk : k < n) (h : ∀ j < n, j ≠ k → H j = G j) :
    (G k ++ gather n H).Perm (H k ++ gather n G) := by
  induction n with
  | zero => omega
  | succ n ih =>
    rw [gather_succ, gather_succ]
    by_cases hkn : k = n
    · subst hkn
      rw [gather_congr fun j hj => h j (by omega) (by omega)]
      refine (List.perm_append_comm_assoc _ _ _).trans ?_
      refine (List.Perm.append_left _ List.perm_append_comm).trans ?_
      exact (List.perm_append_comm_assoc _ _ _)
    · rw [h n (by omega) (Ne.symm hkn), ← List.append_assoc, ← List.append_assoc]
      exact (ih (by omega) fun j hj => h j (by omega)).append_right _

lemma gather_rows (m n : Nat) :
    gather n (fun k => (List.range m).map (k * m + ·)) = List.range (n * m) := by
  induction n with
  | zero => simp [gather]
  | succ n ih => rw [gather_succ, ih, Nat.succ_mul, List.range_add]

lemma find?_range_of_le {p q : Nat → Bool} {m : Nat} (hnm : n ≤ m)
    (hq : ∀ i, q i = (decide (i < n) && p i)) : (List.range m).find? q =
    (List.range n).find? p := by
  obtain ⟨d, rfl⟩ := Nat.exists_eq_add_of_le hnm
  have hrest : ((List.range d).map (n + ·)).find? q = none := by
    rw [List.find?_eq_none]
    intro x hx
    obtain ⟨i, -, rfl⟩ := List.mem_map.mp hx
    simp [hq]
  rw [List.range_add, List.find?_append, hrest, Option.or_none]
  refine Option.ext fun b => ?_
  simp only [List.find?_range_eq_some, hq, List.mem_range, Bool.and_eq_true, decide_eq_true_eq]
  constructor
  · rintro ⟨⟨hb, hp⟩, -, hmin⟩
    refine ⟨hp, hb, fun j hj => ?_⟩
    have hj' := hmin j hj
    simpa [show j < n by omega] using hj'
  · rintro ⟨hp, hb, hmin⟩
    refine ⟨⟨hb, hp⟩, hb, fun j hj => ?_⟩
    simp [hmin j hj]

lemma findSome?_congr {f g : Nat → Option α} {l : List Nat} (h : ∀ k ∈ l, f k = g k) :
    l.findSome? f = l.findSome? g := by
  induction l with
  | nil => rfl
  | cons k l ih =>
    rw [List.findSome?_cons, List.findSome?_cons, h k List.mem_cons_self,
      ih fun j hj => h j (List.mem_cons_of_mem k hj)]

lemma find?_rows {p : Nat → Bool} {m : Nat} (hm : 0 < m) :
    ((List.range (n / m + 1)).findSome? fun k => ((List.range m).find? fun i =>
      decide (k * m + i < n) && p (k * m + i)).map (k * m + ·)) = (List.range n).find? p := by
  have hle : n ≤ (n / m + 1) * m := by
    rw [Nat.mul_comm]
    exact Nat.le_of_lt (Nat.lt_mul_div_succ n hm)
  rw [← find?_range_of_le hle fun i => rfl, ← gather_rows, gather, List.find?_flatMap]
  simp only [List.find?_map, Function.comp_def]

variable [DecidableEq α]

lemma count_gather_exchange {G H : Nat → List α} (hk : k < n) (h : ∀ j < n, j ≠ k → H j = G j) (a : α) :
    (G k).count a + (gather n H).count a = (H k).count a + (gather n G).count a := by
  have hc := (gather_exchange hk h).count_eq a
  rwa [List.count_append, List.count_append] at hc

lemma count_gather_add {F G H : Nat → List α} {a : α}
    (h : ∀ k < n, (H k).count a = (F k).count a + (G k).count a) :
    (gather n H).count a = (gather n F).count a + (gather n G).count a := by
  induction n with
  | zero => rfl
  | succ n ih =>
    simp only [gather_succ, List.count_append]
    rw [ih fun k hk => h k (by omega), h n (by omega)]
    omega
