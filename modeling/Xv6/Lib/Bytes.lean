import Mathlib

/-! Fixed-size byte arrays with little-endian integer fields. `field b off k` is
the unsigned number in the `k` bytes from `off` on and `setField` stores one;
disjoint fields do not see each other. Reading past the end gives 0. -/

def Bytes (n : Nat) := Fin n → UInt8

namespace Bytes

def leBytes : Nat → Nat → List UInt8
  | 0, _ => []
  | k + 1, v => UInt8.ofNat (v % 256) :: leBytes k (v / 256)

/-- The number that bytes hold, the least first. -/
def leNat : List UInt8 → Nat
  | [] => 0
  | b :: bs => b.toNat + 256 * leNat bs

@[simp] lemma leBytes_length (k v : Nat) : (leBytes k v).length = k := by
  induction k generalizing v with
  | zero => rfl
  | succ k ih => simp [leBytes, ih]

lemma leNat_leBytes (k v : Nat) : leNat (leBytes k v) = v % 256 ^ k := by
  induction k generalizing v with
  | zero => simp [leBytes, leNat, Nat.mod_one]
  | succ k ih =>
    have hb : (UInt8.ofNat (v % 256)).toNat = v % 256 := by simp
    rw [leBytes, leNat, ih, hb, Nat.pow_succ, Nat.mul_comm (256 ^ k) 256, Nat.mod_mul]

lemma leNat_lt (l : List UInt8) : leNat l < 256 ^ l.length := by
  induction l with
  | nil => simp [leNat]
  | cons b l ih =>
    have hb := b.toNat_lt
    rw [leNat, List.length_cons, Nat.pow_succ]
    omega

lemma leNat_replicate_zero (k : Nat) : leNat (List.replicate k 0) = 0 := by
  induction k with
  | zero => rfl
  | succ k ih => simp [List.replicate_succ, leNat, ih]

variable {n : Nat}

def get (b : Bytes n) (i : Nat) : UInt8 := if h : i < n then b ⟨i, h⟩ else 0

def slice (b : Bytes n) (off len : Nat) : List UInt8 := (List.range len).map fun i => b.get (off + i)

/-- The bytes of `bs` from `off` on are replaced. -/
def patch (b : Bytes n) (off : Nat) (l : List UInt8) : Bytes n :=
  fun i => if off ≤ i.val ∧ i.val < off + l.length then l.getD (i.val - off) 0 else b i

def fill (n : Nat) (v : UInt8) : Bytes n := fun _ => v

variable {b c : Bytes n} {i off len off' k : Nat} {l : List UInt8}

@[ext] lemma ext_get (h : ∀ i < n, b.get i = c.get i) : b = c := by
  funext i
  have hi := h i.val i.isLt
  simpa [get, i.isLt] using hi

@[simp] lemma slice_length (b : Bytes n) (off len : Nat) : (b.slice off len).length = len := by
  simp [slice]

lemma get_of_le (h : n ≤ i) : b.get i = 0 := by
  simp [get, Nat.not_lt.mpr h]

@[simp] lemma get_fill (v : UInt8) (h : i < n) : (fill n v).get i = v := by
  simp [get, fill, h]

lemma get_patch (b : Bytes n) (off : Nat) (l : List UInt8) (hi : i < n) : (b.patch off l).get i =
      if off ≤ i ∧ i < off + l.length then l.getD (i - off) 0 else b.get i := by
  simp [get, patch, hi]

lemma get_patch_of_not_mem (b : Bytes n)
    (h : i < off ∨ off + l.length ≤ i) : (b.patch off l).get i = b.get i := by
  by_cases hi : i < n
  · rw [get_patch b off l hi, if_neg (by omega)]
  · rw [get_of_le (by omega), get_of_le (by omega)]

lemma get_patch_of_mem (b : Bytes n)
    (hn : off + l.length ≤ n) (hi : i < l.length) : (b.patch off l).get (off + i) = l.getD i 0 := by
  rw [get_patch b off l (by omega), if_pos (by omega), Nat.add_sub_cancel_left]

lemma slice_congr
    (h : ∀ i, off ≤ i → i < off + len → b.get i = c.get i) : b.slice off len = c.slice off len := by
  apply List.map_congr_left
  intro i hi
  have hlt := List.mem_range.mp hi
  exact h (off + i) (by omega) (by omega)

lemma slice_patch_self (b : Bytes n) (hn : off + l.length ≤ n) :
    (b.patch off l).slice off l.length = l := by
  apply List.ext_getElem (by simp)
  intro i hi hl
  have hg := get_patch_of_mem b hn hl
  simp only [slice, List.getElem_map, List.getElem_range, hg]
  simp [List.getD_eq_getElem?_getD, hl]

lemma slice_patch_of_disjoint (b : Bytes n)
    (h : off' + len ≤ off ∨ off + l.length ≤ off') :
    (b.patch off l).slice off' len = b.slice off' len :=
  slice_congr fun i _ _ => get_patch_of_not_mem b (by omega)

/-- The number in `n` bytes from `off` on. -/
def field (b : Bytes n) (off k : Nat) : Nat := leNat (b.slice off k)

def setField (b : Bytes n) (off k v : Nat) : Bytes n := b.patch off (leBytes k v)

lemma field_lt (b : Bytes n) (off k : Nat) : b.field off k < 256 ^ k := by
  simpa [field] using leNat_lt (b.slice off k)

lemma field_setField_self (b : Bytes n) (v : Nat) (hn : off + k ≤ n) :
    (b.setField off k v).field off k = v % 256 ^ k := by
  have hs : (b.patch off (leBytes k v)).slice off (leBytes k v).length = leBytes k v :=
    slice_patch_self b (by simpa using hn)
  rw [leBytes_length] at hs
  rw [field, setField, hs, leNat_leBytes]

lemma field_setField_of_disjoint (b : Bytes n) {k' : Nat} (v : Nat)
    (h : off' + k' ≤ off ∨ off + k ≤ off') : (b.setField off k v).field off' k' = b.field off' k' := by
  rw [field, field, setField, slice_patch_of_disjoint b (by simpa using h)]

lemma get_setField_of_not_mem (b : Bytes n) (v : Nat)
    (h : i < off ∨ off + k ≤ i) : (b.setField off k v).get i = b.get i :=
  get_patch_of_not_mem b (by simpa using h)

lemma field_fill_zero (h : off + k ≤ n) : (fill n 0).field off k = 0 := by
  have hs : (fill n 0).slice off k = List.replicate k 0 := by
    apply List.ext_getElem (by simp)
    intro i hi hr
    have hk : i < k := by simpa using hi
    simp only [slice, List.getElem_map, List.getElem_range, List.getElem_replicate]
    exact get_fill 0 (by omega)
  rw [field, hs, leNat_replicate_zero]

end Bytes
