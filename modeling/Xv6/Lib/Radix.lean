import Mathlib

/-! Radix trees in pages of words. A table of level 0 holds the words of the keys, a
table of a higher level holds links to tables one level down. -/

lemma List.flatMap_perm_of_mem {α β : Type} [DecidableEq α] (f : α → List β) {l : List α} {d : α}
    (hl : l.Nodup) (hd : d ∈ l) :
    (l.flatMap f).Perm (f d ++ l.flatMap fun i => if i = d then [] else f i) := by
  induction l with
  | nil => cases hd
  | cons a l ih =>
    obtain ⟨ha, hl'⟩ := List.nodup_cons.mp hl
    by_cases had : a = d
    · subst had
      have hrest : (l.flatMap fun i => if i = a then [] else f i) = l.flatMap f := by
        refine List.flatMap_congr fun i hi => if_neg ?_
        rintro rfl
        exact ha hi
      simp [hrest]
    · have hd' : d ∈ l := (List.mem_cons.mp hd).resolve_left (Ne.symm had)
      simp only [List.flatMap_cons, if_neg had]
      refine ((ih hl' hd').append_left (f a)).trans ?_
      rw [← List.append_assoc, ← List.append_assoc]
      exact List.perm_append_comm.append_right _

inductive Radix (W : Type) : Nat → Type
  | empty {n : Nat} : Radix W n
  | leaf (page : Nat) (slot : Nat → W) : Radix W 0
  | node {n : Nat} (page : Nat) (kid : Nat → Radix W n) : Radix W (n + 1)

namespace Radix

structure Format (W : Type) where
  width : Nat
  zero : W
  link : Nat → W

variable {W : Type} (F : Format W)

def digit (n key : Nat) : Nat := key / F.width ^ n % F.width

def root : {n : Nat} → Radix W n → Option Nat
  | _, empty => none
  | _, leaf page _ => some page
  | _, node page _ => some page

def word {n : Nat} (t : Radix W n) : W :=
  match t.root with
  | none => F.zero
  | some page => F.link page

/-- The pages of the tables of a tree. -/
def pages : {n : Nat} → Radix W n → List Nat
  | _, empty => []
  | _, leaf page _ => [page]
  | _, node page kid => page :: (List.range F.width).flatMap fun i => pages (kid i)

/-- The table of level 0 that has the word of `key`. -/
def tableOf : {n : Nat} → Radix W n → Nat → Option Nat
  | _, empty, _ => none
  | _, leaf page _, _ => some page
  | _, @node _ n _ kid, key => tableOf (kid (digit F (n + 1) key)) key

/-- How many tables there are to add for `key`. -/
def missing : {n : Nat} → Radix W n → Nat → Nat
  | n, empty, _ => n + 1
  | _, leaf _ _, _ => 0
  | _, @node _ n _ kid, key => missing (kid (digit F (n + 1) key)) key

def val : {n : Nat} → Radix W n → Nat → W
  | _, empty, _ => F.zero
  | _, leaf _ slot, key => slot (digit F 0 key)
  | _, @node _ n _ kid, key => val (kid (digit F (n + 1) key)) key

def set : {n : Nat} → Radix W n → Nat → W → Radix W n
  | _, empty, _, _ => empty
  | _, leaf page slot, key, v => leaf page (Function.update slot (digit F 0 key) v)
  | _, @node _ n page kid, key, v =>
    node page (Function.update kid (digit F (n + 1) key) (set (kid (digit F (n + 1) key)) key v))

def Rep (mem : Nat → Nat → W) : {n : Nat} → Radix W n → Prop
  | _, empty => True
  | _, leaf page slot => ∀ i < F.width, mem page i = slot i
  | _, node page kid => ∀ i < F.width, mem page i = word F (kid i) ∧ Rep mem (kid i)

def Clear : {n : Nat} → Radix W n → Prop
  | _, empty => True
  | _, leaf _ slot => ∀ i < F.width, slot i = F.zero
  | _, node _ kid => ∀ i < F.width, Clear (kid i)

def fresh (page : Nat) : (n : Nat) → Radix W n
  | 0 => leaf page fun _ => F.zero
  | _ + 1 => node page fun _ => empty

section

variable {F} {n : Nat} {t : Radix W n} {mem mem' : Nat → Nat → W} {page key : Nat}

lemma digit_lt (hw : 0 < F.width) (n key : Nat) : digit F n key < F.width := Nat.mod_lt _ hw

@[simp] lemma root_fresh (page n : Nat) : (fresh F page n).root = some page := by
  cases n <;> rfl

@[simp] lemma pages_fresh (page n : Nat) : (fresh F page n).pages F = [page] := by
  cases n with
  | zero => rfl
  | succ n => simp [fresh, pages]

@[simp] lemma val_fresh (page n key : Nat) : (fresh F page n).val F key = F.zero := by
  cases n <;> rfl

lemma rep_fresh (h : ∀ i < F.width, mem page i = F.zero) : Rep F mem (fresh F page n) := by
  cases n with
  | zero => exact h
  | succ n => exact fun i hi => ⟨h i hi, trivial⟩

lemma root_mem_pages (h : t.root = some page) : page ∈ t.pages F := by
  cases t with
  | empty => cases h
  | leaf p slot => simpa [root, pages, eq_comm] using h
  | node p kid =>
    have hp : p = page := by simpa [root] using h
    simp [pages, hp]

variable {kid : Nat → Radix W n} {i a b d m : Nat}

lemma mem_pages_kid (hi : i < F.width) {q : Nat}
    (hq : q ∈ (kid i).pages F) : q ∈ (node page kid).pages F :=
  List.mem_cons_of_mem _ (List.mem_flatMap.mpr ⟨i, List.mem_range.mpr hi, hq⟩)

lemma Rep.congr (h : Rep F mem t) (hm : ∀ q ∈ t.pages F, mem' q = mem q) : Rep F mem' t := by
  induction t with
  | empty => trivial
  | leaf p slot =>
    intro i hi
    rw [hm p (by simp [pages])]
    exact h i hi
  | node p kid ih =>
    intro i hi
    rw [hm p (by simp [pages])]
    exact ⟨(h i hi).1, ih i (h i hi).2 fun q hq => hm q (mem_pages_kid hi hq)⟩

lemma tableOf_mem_pages (hw : 0 < F.width) (h : t.tableOf F key = some page) : page ∈ t.pages F := by
  induction t with
  | empty => cases h
  | leaf p slot => simpa [tableOf, pages, eq_comm] using h
  | node p kid ih => exact mem_pages_kid (digit_lt hw _ _) (ih _ h)

lemma tableOf_congr (h : a / F.width = b / F.width) : t.tableOf F a = t.tableOf F b := by
  induction t with
  | empty => rfl
  | leaf p slot => rfl
  | @node m p kid ih =>
    have hd : digit F (m + 1) a = digit F (m + 1) b := by
      rw [digit, digit, Nat.pow_succ', ← Nat.div_div_eq_div_mul, ← Nat.div_div_eq_div_mul, h]
    simp only [tableOf, hd]
    exact ih _

lemma missing_le_succ (c : Radix W n) (key : Nat) : c.missing F key ≤ n + 1 := by
  induction c with
  | empty => exact Nat.le_refl _
  | leaf p slot => exact Nat.zero_le _
  | node p kid ih => exact Nat.le_trans (ih _) (Nat.le_succ _)

lemma missing_le (h : t.root = some page) (key : Nat) : t.missing F key ≤ n := by
  cases t with
  | empty => cases h
  | leaf p slot => exact Nat.le_refl _
  | @node m p kid => exact missing_le_succ (kid (digit F (m + 1) key)) key

lemma missing_eq_zero (h : t.tableOf F key = some page) : t.missing F key = 0 := by
  induction t with
  | empty => cases h
  | leaf p slot => rfl
  | node p kid ih => exact ih _ h

@[simp] lemma missing_fresh (page n key : Nat) : (fresh F page n).missing F key = n := by
  cases n <;> rfl

lemma val_of_no_table (h : t.tableOf F key = none) : t.val F key = F.zero := by
  induction t with
  | empty => rfl
  | leaf p slot => cases h
  | node p kid ih => exact ih _ h

lemma pages_perm (kid : Nat → Radix W n) (hd : d < F.width) :
    ((node page kid).pages F).Perm ((kid d).pages F ++
      page :: (List.range F.width).flatMap fun i => if i = d then [] else (kid i).pages F) := by
  refine List.Perm.trans ?_ List.perm_middle.symm
  exact (List.flatMap_perm_of_mem _ List.nodup_range (List.mem_range.mpr hd)).cons page

lemma others_update (kid : Nat → Radix W n) (d : Nat) (c : Radix W n) :
    ((List.range F.width).flatMap fun i => if i = d then [] else (Function.update kid d c i).pages F) =
      (List.range F.width).flatMap fun i => if i = d then [] else (kid i).pages F := by
  refine List.flatMap_congr fun i _ => ?_
  by_cases hi : i = d
  · rw [if_pos hi, if_pos hi]
  · rw [if_neg hi, if_neg hi, Function.update_of_ne hi]

lemma Rep.update {c : Radix W n} (h : Rep F mem (node page kid))
    (hp : ∀ i < F.width, i ≠ d → mem' page i = mem page i) (hd : d < F.width → mem' page d = word F c)
    (hc : Rep F mem' c) (ho : ∀ i < F.width, i ≠ d → ∀ q ∈ (kid i).pages F, mem' q = mem q) :
    Rep F mem' (node page (Function.update kid d c)) := by
  intro i hi
  by_cases hid : i = d
  · subst hid
    rw [Function.update_self]
    exact ⟨hd hi, hc⟩
  · rw [Function.update_of_ne hid, hp i hi hid]
    exact ⟨(h i hi).1, (h i hi).2.congr (ho i hi hid)⟩

@[simp] lemma root_set (v : W) : (t.set F key v).root = t.root := by
  cases t <;> rfl

lemma pages_set (v : W) : (t.set F key v).pages F = t.pages F := by
  induction t with
  | empty => rfl
  | leaf p slot => rfl
  | @node m p kid ih =>
    simp only [set, pages, List.cons.injEq, true_and]
    refine List.flatMap_congr fun i _ => ?_
    by_cases hi : i = digit F (m + 1) key
    · rw [hi, Function.update_self, ih]
    · rw [Function.update_of_ne hi]

lemma tableOf_set (v : W) (k : Nat) : (t.set F key v).tableOf F k = t.tableOf F k := by
  induction t with
  | empty => rfl
  | leaf p slot => rfl
  | @node m p kid ih =>
    simp only [set, tableOf]
    by_cases hk : digit F (m + 1) k = digit F (m + 1) key
    · rw [hk, Function.update_self, ih]
    · rw [Function.update_of_ne hk]

variable (hw : 0 < F.width)
include hw

lemma mod_pow_succ_eq_iff : a % F.width ^ (m + 1) = b % F.width ^ (m + 1) ↔
      digit F m a = digit F m b ∧ a % F.width ^ m = b % F.width ^ m := by
  have hpos : 0 < F.width ^ m := Nat.pow_pos hw
  rw [Nat.mod_pow_succ, Nat.mod_pow_succ]
  constructor
  · intro h
    have hlo := congrArg (· % F.width ^ m) h
    have hhi := congrArg (· / F.width ^ m) h
    simp only [Nat.add_mul_mod_self_left, Nat.mod_mod] at hlo
    simp only [Nat.add_mul_div_left _ _ hpos, Nat.div_eq_of_lt (Nat.mod_lt _ hpos), Nat.zero_add] at hhi
    exact ⟨hhi, hlo⟩
  · rintro ⟨hhi, hlo⟩
    unfold digit at hhi
    rw [hhi, hlo]

lemma val_set (h : t.tableOf F key = some page) (v : W) (k : Nat) : (t.set F key v).val F k =
      if k % F.width ^ (n + 1) = key % F.width ^ (n + 1) then v else t.val F k := by
  induction t with
  | empty => cases h
  | leaf p slot =>
    have hk : k % F.width ^ (0 + 1) = key % F.width ^ (0 + 1) ↔ digit F 0 k = digit F 0 key := by
      simp [digit]
    simp only [set, val, hk, Function.update_apply]
  | @node m p kid ih =>
    simp only [set, val]
    by_cases hd : digit F (m + 1) k = digit F (m + 1) key
    · rw [hd, Function.update_self, ih _ h]
      simp only [mod_pow_succ_eq_iff (m := m + 1) hw, hd, true_and]
    · rw [Function.update_of_ne hd, if_neg]
      exact fun hk => hd ((mod_pow_succ_eq_iff hw).mp hk).1

lemma digit_add_mul {k : Nat} (hi : i < F.width) (hk : k < F.width ^ m) :
    digit F m (i * F.width ^ m + k) = i := by
  have hpos : 0 < F.width ^ m := Nat.pow_pos hw
  rw [digit, Nat.add_comm, Nat.add_mul_div_right _ _ hpos, Nat.div_eq_of_lt hk, Nat.zero_add,
    Nat.mod_eq_of_lt hi]

lemma val_congr (h : a % F.width ^ (n + 1) = b % F.width ^ (n + 1)) :
    t.val F a = t.val F b := by
  induction t with
  | empty => rfl
  | leaf p slot =>
    obtain ⟨hd, -⟩ := (mod_pow_succ_eq_iff hw).mp h
    simp only [val, hd]
  | @node m p kid ih =>
    obtain ⟨hd, hlow⟩ := (mod_pow_succ_eq_iff hw).mp h
    simp only [val, hd]
    exact ih _ hlow

lemma clear_of_val (h : ∀ k < F.width ^ (n + 1), t.val F k = F.zero) : t.Clear F := by
  induction t with
  | empty => trivial
  | leaf p slot =>
    intro i hi
    have hv := h i (by simpa using hi)
    have hd : digit F 0 i = i := by simp [digit, Nat.mod_eq_of_lt hi]
    rwa [val, hd] at hv
  | @node m p kid ih =>
    intro i hi
    refine ih i fun k hk => ?_
    have hlt : i * F.width ^ (m + 1) + k < F.width ^ (m + 1 + 1) := by
      calc i * F.width ^ (m + 1) + k < (i + 1) * F.width ^ (m + 1) := by rw [Nat.succ_mul]; omega
        _ ≤ F.width * F.width ^ (m + 1) := Nat.mul_le_mul_right _ hi
        _ = F.width ^ (m + 1 + 1) := by rw [Nat.pow_succ F.width (m + 1), Nat.mul_comm]
    have hv := h _ hlt
    rw [val, digit_add_mul hw hi hk] at hv
    rw [← hv]
    refine val_congr hw ?_
    rw [Nat.mul_add_mod_self_right]

lemma Rep.word_eq (h : Rep F mem t) (ht : t.tableOf F key = some page) :
    mem page (digit F 0 key) = t.val F key := by
  induction t with
  | empty => cases ht
  | leaf p slot =>
    have hp : p = page := by simpa [tableOf] using ht
    subst hp
    exact h _ (digit_lt hw 0 key)
  | @node m p kid ih => exact ih _ (h _ (digit_lt hw (m + 1) key)).2 ht

lemma tableOf_inj (hn : (t.pages F).Nodup) (ha : t.tableOf F a = some page)
    (hb : t.tableOf F b = some page) (hd : digit F 0 a = digit F 0 b) :
    a % F.width ^ (n + 1) = b % F.width ^ (n + 1) := by
  induction t with
  | empty => cases ha
  | leaf p slot => simpa [digit] using hd
  | @node m p kid ih =>
    have hda := digit_lt (F := F) hw (m + 1) a
    have hdb := digit_lt (F := F) hw (m + 1) b
    have hn' := (pages_perm kid hda).nodup_iff.mp hn
    rw [List.nodup_append] at hn'
    by_cases he : digit F (m + 1) b = digit F (m + 1) a
    · simp only [tableOf, he] at hb
      exact (mod_pow_succ_eq_iff hw).mpr ⟨he.symm, ih _ hn'.1 ha hb⟩
    · refine absurd rfl (hn'.2.2 page (tableOf_mem_pages hw ha) page (List.mem_cons_of_mem _ ?_))
      refine List.mem_flatMap.mpr ⟨digit F (m + 1) b, List.mem_range.mpr hdb, ?_⟩
      rw [if_neg he]
      exact tableOf_mem_pages hw hb

lemma Rep.set (h : Rep F mem t) (hn : (t.pages F).Nodup)
    (ht : t.tableOf F key = some page) (v : W) :
    Rep F (Function.update mem page (Function.update (mem page) (digit F 0 key) v))
    (t.set F key v) := by
  induction t with
  | empty => trivial
  | leaf p slot =>
    have hp : p = page := by simpa [tableOf] using ht
    subst hp
    intro i hi
    rw [Function.update_self, Function.update_apply, Function.update_apply, h i hi]
  | @node m p kid ih =>
    have hd := digit_lt hw (m + 1) key
    have hn' := (pages_perm kid hd).nodup_iff.mp hn
    rw [List.nodup_append] at hn'
    obtain ⟨hnk, -, hdis⟩ := hn'
    have hpk : page ∈ (kid (digit F (m + 1) key)).pages F := tableOf_mem_pages hw ht
    -- The written page is below the entry of the key, so the other tables keep their words.
    have hother : ∀ q ∈ p :: (List.range F.width).flatMap fun i =>
        if i = digit F (m + 1) key then [] else (kid i).pages F, q ≠ page :=
      fun q hq hqp => hdis page hpk q hq hqp.symm
    have hp : p ≠ page := hother p (List.mem_cons_self ..)
    refine h.update ?_ ?_ (ih _ (h _ hd).2 hnk ht) ?_
    · intro i _ _
      rw [Function.update_of_ne hp]
    · intro _
      rw [Function.update_of_ne hp, (h _ hd).1, word, word, root_set]
    · intro i hi hid q hq
      refine Function.update_of_ne (hother q ?_) _ _
      exact List.mem_cons_of_mem _
        (List.mem_flatMap.mpr ⟨i, List.mem_range.mpr hi, by rwa [if_neg hid]⟩)

omit hw

end

end Radix
