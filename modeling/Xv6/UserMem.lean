import Xv6.PageTable

/-! What a page table gives to user code: the pages that are valid and have `PTE_U`, and
the bytes behind an address. `walkaddr` finds exactly these pages. -/

namespace Xv6

open Kern

lemma kern_bind_run {σ α β : Type} {m : Kern σ α} {f : α → Kern σ β} {s s' : σ} {a : α}
    (h : m s = .ok (a, s')) : (m >>= f) s = f a s' := by
  simp only [bind, h]

lemma kern_sat_run {σ α : Type} {m : Kern σ α} {s : σ} {E : String → Prop} {Q : α → σ → Prop}
    (h : m.Sat s E Q) : m.Sat s E fun a s' => m s = .ok (a, s') ∧ Q a s' :=
  ⟨fun hm => ⟨hm, h.of_ok hm⟩, h.of_error⟩

structure Walkable (m : Mem) (root : Nat) {n : Nat} (t : Radix Nat n) : Prop where
  root : t.root = some root
  rep : Radix.Rep sv39 m.pte t
  aligned : ∀ q ∈ t.pages sv39, q % pgSize = 0

/-- The test of `walkaddr`: valid and for users. -/
def userPage (t : Radix Nat 2) (v : Nat) : Bool :=
  decide (v < 2 ^ 26) && has (t.val sv39 v) pteV && has (t.val sv39 v) pteU

/-- The page that a virtual page is mapped to. -/
def physPage (t : Radix Nat 2) (v : Nat) : Nat := pte2Pa (t.val sv39 v)

/-- The address is in a page that `walkaddr` finds. -/
def UserAt (t : Radix Nat 2) (a : Nat) : Prop := userPage t (a / pgSize) = true

instance (t : Radix Nat 2) (a : Nat) : Decidable (UserAt t a) := instDecidableEqBool _ _

/-- The byte at an address of user memory. -/
def Mem.user (m : Mem) (t : Radix Nat 2) (a : Nat) : UInt8 :=
  (m.page (physPage t (a / pgSize))).get (a % pgSize)

structure UserTable (m : Mem) (root : Nat) (t : Radix Nat 2) : Prop extends Walkable m root t where
  pos : ∀ v, userPage t v = true → physPage t v ≠ 0
  apart : ∀ v, userPage t v = true → physPage t v ∉ t.pages sv39
  inj : ∀ v w, userPage t v = true → userPage t w = true → physPage t v = physPage t w → v = w

section

variable {m m' : Mem} {root va : Nat} {E : String → Prop}

lemma Walkable.congr {n : Nat} {t : Radix Nat n} (h : Walkable m root t)
    (hk : Keeps (t.pages sv39) m m') : Walkable m' root t :=
  ⟨h.root, h.rep.congr fun _ hq => hk.pte hq, h.aligned⟩

lemma walkFrom_eq {n : Nat} {t : Radix Nat n} (h : Walkable m root t) : walkFrom false va n root m =
    .ok ((t.tableOf sv39 (va / 4096)).map fun table => (table, Radix.digit sv39 0 (va / 4096)), m) := by
  induction n generalizing root with
  | zero =>
    cases t with
    | empty => cases h.root
    | leaf page slot =>
      have hp : page = root := by simpa [Radix.root] using h.root
      subst hp
      unfold walkFrom
      rw [px_eq_digit]
      rfl
  | succ n ih =>
    cases t with
    | empty => cases h.root
    | node page kid =>
      have hp : page = root := by simpa [Radix.root] using h.root
      subst hp
      have hd := sv39_digit_lt (n + 1) (va / 4096)
      obtain ⟨hword, hrep⟩ := h.rep _ hd
      rw [Radix.word] at hword
      have hread : ∀ i, readPte page i m = .ok (m.pte page i, m) := fun _ => rfl
      unfold walkFrom
      rw [px_eq_digit]
      simp only [bind, hread, hword, Radix.tableOf]
      cases hk : (kid (Radix.digit sv39 (n + 1) (va / 4096))).root with
      | some p =>
        have hmem : p ∈ (Radix.node page kid).pages sv39 :=
          Radix.mem_pages_kid hd (Radix.root_mem_pages hk)
        have hlink : pte2Pa (pa2Pte p ||| pteV) = p := pte2Pa_leaf (h.aligned p hmem) (by decide)
        simp only [sv39, has_link, if_true, hlink]
        exact ih ⟨hk, hrep, fun q hq => h.aligned q (Radix.mem_pages_kid hd hq)⟩
      | none =>
        rw [root_eq_none hk]
        rfl

/-- `walkaddr` reads the tree and changes nothing. -/
lemma walkaddr_eq {t : Radix Nat 2} (h : Walkable m root t) :
    walkaddr root va m = .ok (if userPage t (va / pgSize) then physPage t (va / pgSize) else 0, m) := by
  have hdiv : va / pgSize = va / 4096 := rfl
  unfold walkaddr
  by_cases hva : maxVa ≤ va
  · have hlt : ¬ va / 4096 < 2 ^ 26 := by
      rw [maxVa_eq] at hva
      unfold pgSize at hva
      omega
    have hz : userPage t (va / 4096) = false := by
      rw [userPage, decide_eq_false hlt]
      rfl
    rw [if_pos hva, hdiv, hz]
    rfl
  · have hlt : va / 4096 < 2 ^ 26 := by
      rw [maxVa_eq] at hva
      unfold pgSize at hva
      omega
    have hread : ∀ table i, readPte table i m = .ok (m.pte table i, m) := fun _ _ => rfl
    rw [if_neg hva, walk, if_neg hva, hdiv]
    simp only [bind, walkFrom_eq h]
    cases htab : t.tableOf sv39 (va / 4096) with
    | none =>
      have hz : userPage t (va / 4096) = false := by
        rw [userPage, Radix.val_of_no_table htab]
        simp [has, sv39]
      rw [hz]
      rfl
    | some table =>
      have hpte : m.pte table (Radix.digit sv39 0 (va / 4096)) = t.val sv39 (va / 4096) :=
        h.rep.word_eq sv39_pos htab
      simp only [Option.map_some, hread, hpte, userPage, hlt, decide_true, Bool.true_and, physPage]
      cases has (t.val sv39 (va / 4096)) pteV <;> cases has (t.val sv39 (va / 4096)) pteU <;> rfl

lemma UserAt.lt {t : Radix Nat 2} {a : Nat} (h : UserAt t a) : a < maxVa := by
  unfold UserAt userPage at h
  simp only [Bool.and_eq_true, decide_eq_true_eq] at h
  rw [maxVa_eq]
  unfold pgSize at *
  omega

end

end Xv6
