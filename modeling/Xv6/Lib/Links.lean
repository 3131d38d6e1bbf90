import Mathlib

/-! Singly linked lists in a memory of pointers. `Links next a xs z` says that the pointers lead
from `a` over the nodes `xs` to `z`. -/

/-- From `a` the links lead through `xs` to `z`. -/
def Links {α : Type} (next : α → α) : α → List α → α → Prop
  | a, [], z => next a = z
  | a, x :: xs, z => next a = x ∧ Links next x xs z

section

variable {α : Type} {f g : α → α} {a b p x y z w : α} {xs ys : List α}

lemma Links.congr_head (h : Links f a xs z) (ha : g b = f a)
    (hxs : ∀ x ∈ xs, g x = f x) : Links g b xs z := by
  induction xs generalizing a b with
  | nil => exact ha.trans h
  | cons x xs ih =>
    refine ⟨ha.trans h.1, ih h.2 (hxs x (List.mem_cons_self ..)) fun y hy =>
      hxs y (List.mem_cons_of_mem _ hy)⟩

lemma Links.congr (h : Links f a xs z) (hxs : ∀ x ∈ a :: xs, g x = f x) : Links g a xs z :=
  h.congr_head (hxs a (List.mem_cons_self ..)) fun x hx => hxs x (List.mem_cons_of_mem _ hx)

lemma links_append : Links f a (xs ++ y :: ys) z ↔ Links f a xs y ∧ Links f y ys z := by
  induction xs generalizing a with
  | nil => exact Iff.rfl
  | cons x xs ih =>
    have h := ih (a := x)
    constructor
    · rintro ⟨hx, hrest⟩
      exact ⟨⟨hx, (h.mp hrest).1⟩, (h.mp hrest).2⟩
    · rintro ⟨⟨hx, hxs⟩, hys⟩
      exact ⟨hx, h.mpr ⟨hxs, hys⟩⟩

lemma links_append_last : Links f a (xs ++ ys) z ↔ (∃ w, Links f a xs w) ∧
    Links f (xs.getLastD a) ys z := by
  induction xs generalizing a with
  | nil => exact ⟨fun h => ⟨⟨f a, rfl⟩, h⟩, fun h => h.2⟩
  | cons x xs ih =>
    have h := ih (a := x)
    rw [List.getLastD_cons]
    constructor
    · rintro ⟨hx, hrest⟩
      obtain ⟨⟨w, hw⟩, hys⟩ := h.mp hrest
      exact ⟨⟨w, hx, hw⟩, hys⟩
    · rintro ⟨⟨w, hx, hw⟩, hys⟩
      exact ⟨hx, h.mpr ⟨⟨w, hw⟩, hys⟩⟩

lemma Links.rotate (h : Links f a xs a) (hp : p ∈ a :: xs) :
    ∃ ys, Links f p ys p ∧ (p :: ys).Perm (a :: xs) := by
  rcases List.mem_cons.mp hp with rfl | hp
  · exact ⟨xs, h, List.Perm.refl _⟩
  · obtain ⟨l, r, rfl⟩ := List.append_of_mem hp
    obtain ⟨hl, hr⟩ := links_append.mp h
    refine ⟨r ++ a :: l, links_append.mpr ⟨hr, hl⟩, ?_⟩
    have hcomm : (p :: r ++ a :: l).Perm (a :: l ++ p :: r) := List.perm_append_comm
    exact hcomm

lemma Links.next_mem {R : α → α → Prop} (h : Links f a xs z) (hR : (a :: xs).Pairwise R)
    (hx : x ∈ a :: xs) : x = xs.getLastD a ∧ f x = z ∨ f x ∈ xs ∧ R x (f x) := by
  induction xs generalizing a with
  | nil =>
    obtain rfl := List.mem_singleton.mp hx
    exact .inl ⟨rfl, h⟩
  | cons y xs ih =>
    obtain ⟨hay, hrest⟩ := List.pairwise_cons.mp hR
    rcases List.mem_cons.mp hx with rfl | hx
    · have hfy : f x = y := h.1
      rw [hfy]
      exact .inr ⟨List.mem_cons_self .., hay y (List.mem_cons_self ..)⟩
    · rw [List.getLastD_cons]
      exact (ih h.2 hrest hx).imp id fun hin => ⟨List.mem_cons_of_mem _ hin.1, hin.2⟩

lemma Links.next_inj (h : Links f a xs z) (hnd : (xs ++ [z]).Nodup) (hx : x ∈ a :: xs)
    (hy : y ∈ a :: xs) (hxy : f x = f y) : x = y := by
  induction xs generalizing a with
  | nil => exact (List.mem_singleton.mp hx).trans (List.mem_singleton.mp hy).symm
  | cons c xs ih =>
    obtain ⟨hc, hnd'⟩ := List.nodup_cons.mp hnd
    -- the pointers behind the first one are in `xs ++ [z]`
    have hin : ∀ u ∈ c :: xs, f u ∈ xs ++ [z] := by
      intro u hu
      rcases h.2.next_mem (R := fun _ _ => True)
        (List.pairwise_of_forall fun _ _ => trivial) hu with ⟨-, hz⟩ | ⟨hm, -⟩
      · rw [hz]
        exact List.mem_append_right _ (List.mem_singleton_self z)
      · exact List.mem_append_left _ hm
    have hca : f a = c := h.1
    rcases List.mem_cons.mp hx with hxa | hx' <;> rcases List.mem_cons.mp hy with hya | hy'
    · rw [hxa, hya]
    · have hm := hin y hy'
      rw [← hxy, hxa, hca] at hm
      exact absurd hm hc
    · have hm := hin x hx'
      rw [hxy, hya, hca] at hm
      exact absurd hm hc
    · exact ih h.2 hnd' hx' hy'

lemma Links.reach (h : Links f a xs z) (hx : x ∈ a :: xs) : ∃ k, f^[k] a = x := by
  induction xs generalizing a with
  | nil => exact ⟨0, (List.mem_singleton.mp hx).symm⟩
  | cons y xs ih =>
    rcases List.mem_cons.mp hx with rfl | hx
    · exact ⟨0, rfl⟩
    · obtain ⟨k, hk⟩ := ih h.2 hx
      have hay : f a = y := h.1
      refine ⟨k + 1, ?_⟩
      rw [Function.iterate_succ_apply, hay, hk]

lemma Links.setLast [DecidableEq α] (h : Links f a xs w) (hnd : (a :: xs).Nodup) :
    Links (Function.update f (xs.getLastD a) z) a xs z := by
  induction xs generalizing a with
  | nil => exact Function.update_self ..
  | cons x xs ih =>
    obtain ⟨ha, hnd'⟩ := List.nodup_cons.mp hnd
    rw [List.getLastD_cons]
    refine ⟨?_, ih h.2 hnd'⟩
    rw [Function.update_of_ne]
    · exact h.1
    · rintro rfl
      exact ha List.getLastD_mem_cons

end
