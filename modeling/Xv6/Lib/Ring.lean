import Mathlib

/-! Ring buffers with free-running counters. The counters are taken modulo `M`, the slots
modulo `N`; `N` divides `M` and is smaller, so that the counters tell an empty ring from
a full one however often they wrap. -/

structure RingRep {α : Type} (N M : Nat) (data : Nat → α) (head tail : Nat)
    (ins rem : List α) : Prop where
  head_eq : head = rem.length % M
  tail_eq : tail = ins.length % M
  count_le : ins.length ≤ rem.length + N
  taken : rem <+: ins
  slot : ∀ j, rem.length ≤ j → ∀ x, ins[j]? = some x → data (j % N) = x

namespace RingRep

variable {α : Type} {N M : Nat} {data : Nat → α} {head tail : Nat} {ins rem : List α}

lemma nil (N M : Nat) (data : Nat → α) : RingRep N M data 0 0 [] [] where
  head_eq := (Nat.zero_mod M).symm
  tail_eq := (Nat.zero_mod M).symm
  count_le := Nat.zero_le _
  taken := List.prefix_refl []
  slot := nofun

lemma eq_of_mod_eq {a b : Nat} (hab : a ≤ b) (hlt : b - a < M) (h : a % M = b % M) : a = b := by
  have hdvd : M ∣ b - a := (Nat.modEq_iff_dvd' hab).mp h
  have hzero := Nat.eq_zero_of_dvd_of_lt hdvd hlt
  omega

variable (h : RingRep N M data head tail ins rem)
include h

lemma empty_iff (hM : N < M) : head = tail ↔ rem = ins := by
  have hle := h.taken.length_le
  rw [h.head_eq, h.tail_eq]
  constructor
  · intro he
    exact h.taken.eq_of_length (eq_of_mod_eq hle (by have := h.count_le; omega) he)
  · rintro rfl
    rfl

lemma full_iff (hM : N < M) :
    tail = (head + N) % M ↔ ins.length = rem.length + N := by
  have hc := h.count_le
  rw [h.head_eq, h.tail_eq, Nat.mod_add_mod]
  constructor
  · intro he
    exact eq_of_mod_eq hc (by have := h.taken.length_le; omega) he
  · intro he
    rw [he]

lemma diff_eq (hM : N < M) :
    (tail + M - head) % M = ins.length - rem.length := by
  have hle := h.taken.length_le
  have hc := h.count_le
  have hpos : 0 < M := by omega
  obtain ⟨d, hd⟩ := Nat.exists_eq_add_of_le hle
  have hlt := Nat.mod_lt rem.length hpos
  have hsplit : (rem.length % M + d) % M + M - rem.length % M =
      (rem.length % M + d) % M + (M - rem.length % M) := by omega
  rw [h.head_eq, h.tail_eq, hd, ← Nat.mod_add_mod, hsplit, Nat.mod_add_mod]
  have hsum : rem.length % M + d + (M - rem.length % M) = d + M := by omega
  rw [hsum, Nat.add_mod_right, Nat.mod_eq_of_lt (by omega)]
  omega

lemma write (hN : N ∣ M) (hroom : ins.length < rem.length + N) (x : α) :
    RingRep N M (Function.update data (tail % N) x) head tail ins rem where
  head_eq := h.head_eq
  tail_eq := h.tail_eq
  count_le := h.count_le
  taken := h.taken
  slot := by
    intro j hj y hy
    obtain ⟨hlt, -⟩ := List.getElem?_eq_some_iff.mp hy
    have hne : j % N ≠ ins.length % N := by
      intro he
      have := eq_of_mod_eq (Nat.le_of_lt hlt) (by omega) he
      omega
    rw [h.tail_eq, Nat.mod_mod_of_dvd _ hN, Function.update_of_ne hne]
    exact h.slot j hj y hy

lemma advance (hN : N ∣ M) (hroom : ins.length < rem.length + N) {x : α}
    (hx : data (tail % N) = x) : RingRep N M data head ((tail + 1) % M) (ins ++ [x]) rem where
  head_eq := h.head_eq
  tail_eq := by rw [h.tail_eq, Nat.mod_add_mod, List.length_append, List.length_singleton]
  count_le := by
    rw [List.length_append, List.length_singleton]
    omega
  taken := h.taken.trans (List.prefix_append ins [x])
  slot := by
    intro j hj y hy
    have hlen : j < ins.length + 1 := by
      obtain ⟨hlt, -⟩ := List.getElem?_eq_some_iff.mp hy
      simpa using hlt
    by_cases hjn : j = ins.length
    · subst hjn
      rw [h.tail_eq, Nat.mod_mod_of_dvd _ hN] at hx
      rw [hx]
      simpa using hy
    · refine h.slot j hj y ?_
      rwa [List.getElem?_append_left (by omega)] at hy

lemma push (hN : N ∣ M) (hroom : ins.length < rem.length + N) (x : α) :
    RingRep N M (Function.update data (tail % N) x) head ((tail + 1) % M) (ins ++ [x]) rem :=
  (h.write hN hroom x).advance hN hroom (Function.update_self ..)

lemma pop (hN : N ∣ M) (hne : rem ≠ ins) :
    ins[rem.length]? = some (data (head % N)) ∧
      RingRep N M data ((head + 1) % M) tail ins (rem ++ [data (head % N)]) := by
  have hle := h.taken.length_le
  have hlt : rem.length < ins.length := by
    rcases Nat.lt_or_ge rem.length ins.length with hlt | hge
    · exact hlt
    · exact absurd (h.taken.eq_of_length (by omega)) hne
  have hget : ins[rem.length]? = some ins[rem.length] := List.getElem?_eq_getElem hlt
  have hdata : data (head % N) = ins[rem.length] := by
    rw [h.head_eq, Nat.mod_mod_of_dvd _ hN]
    exact h.slot _ (Nat.le_refl _) _ hget
  rw [hdata]
  refine ⟨hget, ?_, h.tail_eq, ?_, ?_, ?_⟩
  · rw [h.head_eq, Nat.mod_add_mod, List.length_append, List.length_singleton]
  · rw [List.length_append, List.length_singleton]
    have := h.count_le
    omega
  · have htake : rem ++ [ins[rem.length]] = ins.take (rem.length + 1) := by
      rw [List.take_succ_eq_append_getElem hlt, ← List.prefix_iff_eq_take.mp h.taken]
    rw [htake]
    exact List.take_prefix _ _
  · intro j hj x hx
    refine h.slot j ?_ x hx
    rw [List.length_append] at hj
    omega

omit h

lemma retract {x : α} (h : RingRep N M data head tail (ins ++ [x]) rem) (hN : N ∣ M) (hM : 0 < M)
    (hrem : rem <+: ins) :
    data ((tail + M - 1) % M % N) = x ∧ RingRep N M data head ((tail + M - 1) % M) ins rem := by
  have htail : (tail + M - 1) % M = ins.length % M := by
    rw [h.tail_eq, List.length_append, List.length_singleton, Nat.add_sub_assoc hM, Nat.mod_add_mod]
    have hsum : ins.length + 1 + (M - 1) = ins.length + M := by omega
    rw [hsum, Nat.add_mod_right]
  have hlast : (ins ++ [x])[ins.length]? = some x := by simp
  refine ⟨?_, h.head_eq, htail, ?_, hrem, fun j hj y hy => h.slot j hj y ?_⟩
  · rw [htail, Nat.mod_mod_of_dvd _ hN]
    exact h.slot _ hrem.length_le x hlast
  · have hc := h.count_le
    rw [List.length_append, List.length_singleton] at hc
    omega
  · obtain ⟨hlt, -⟩ := List.getElem?_eq_some_iff.mp hy
    rwa [List.getElem?_append_left hlt]

lemma drop_push (h : RingRep N M data head tail ins rem) (x : α) :
    (ins ++ [x]).drop rem.length = ins.drop rem.length ++ [x] :=
  List.drop_append_of_le_length h.taken.length_le

lemma drop_pop {x : α} (hx : ins[rem.length]? = some x) :
    ins.drop rem.length = x :: ins.drop (rem ++ [x]).length := by
  obtain ⟨hlt, rfl⟩ := List.getElem?_eq_some_iff.mp hx
  rw [List.length_append, List.length_singleton]
  exact List.drop_eq_getElem_cons hlt

end RingRep
