import Mathlib

/-! The two versions of `memmove`, in the kernel and in the user library, on a memory of bytes
with 64-bit addresses. -/

namespace Xv6

open Function (update update_of_ne update_self)

abbrev ByteMem := BitVec 64 → UInt8

def copyUp : Nat → ByteMem → BitVec 64 → BitVec 64 → ByteMem
  | 0, m, _, _ => m
  | k + 1, m, d, s => copyUp k (update m d (m s)) (d + 1) (s + 1)

def copyDown : Nat → ByteMem → BitVec 64 → BitVec 64 → ByteMem
  | 0, m, _, _ => m
  | k + 1, m, d, s => copyDown k (update m (d - 1) (m (s - 1))) (d - 1) (s - 1)

def memmove (m : ByteMem) (dst src : BitVec 64) (n : BitVec 32) : BitVec 64 × ByteMem :=
  if n = 0 then (dst, m)
  else if src < dst ∧ src + n.setWidth 64 > dst then
    (dst, copyDown n.toNat m (dst + n.setWidth 64) (src + n.setWidth 64))
  else (dst, copyUp n.toNat m dst src)

def memmoveUser (m : ByteMem) (vdst vsrc : BitVec 64) (n : BitVec 32) : BitVec 64 × ByteMem :=
  if vsrc > vdst then (vdst, copyUp n.toInt.toNat m vdst vsrc)
  else (vdst, copyDown n.toInt.toNat m (vdst + n.signExtend 64) (vsrc + n.signExtend 64))

def moved (m : ByteMem) (dst src : BitVec 64) (k : Nat) : ByteMem := fun a =>
  if dst.toNat ≤ a.toNat ∧ a.toNat < dst.toNat + k then m (src + (a - dst)) else m a

section

variable {m : ByteMem} {d s : BitVec 64} {k : Nat}

lemma moved_zero : moved m d s 0 = m := by
  funext a
  exact if_neg (by omega)

/-- One byte, and then the others from the next address on. The byte that is stored first is not
read again: the source is behind the destination, or it ends before it. -/
lemma moved_succ (hd : d.toNat + (k + 1) ≤ 2 ^ 64) (hs : s.toNat + (k + 1) ≤ 2 ^ 64)
    (h : d.toNat ≤ s.toNat ∨ s.toNat + (k + 1) ≤ d.toNat) :
    moved (update m d (m s)) (d + 1) (s + 1) k = moved m d s (k + 1) := by
  funext a
  unfold moved
  rcases Nat.eq_zero_or_pos k with rfl | hk
  · rw [if_neg (by omega)]
    by_cases ha : a = d
    · rw [ha, update_self, if_pos (by omega), BitVec.sub_self, BitVec.add_zero]
    · rw [update_of_ne ha, if_neg (by bv_omega)]
  · have hd1 : (d + 1).toNat = d.toNat + 1 := by bv_omega
    rw [hd1]
    by_cases ha : a = d
    · rw [ha, if_neg (by omega), if_pos (by omega), update_self, BitVec.sub_self, BitVec.add_zero]
    · rw [update_of_ne ha]
      by_cases hin : d.toNat + 1 ≤ a.toNat ∧ a.toNat < d.toNat + 1 + k
      · have hsrc : s + 1 + (a - (d + 1)) = s + (a - d) := by bv_omega
        rw [if_pos hin, if_pos (by omega), hsrc, update_of_ne (by bv_omega)]
      · rw [if_neg hin, if_neg (by bv_omega)]

lemma copyUp_eq (hd : d.toNat + k ≤ 2 ^ 64) (hs : s.toNat + k ≤ 2 ^ 64)
    (h : d.toNat ≤ s.toNat ∨ s.toNat + k ≤ d.toNat) : copyUp k m d s = moved m d s k := by
  induction k generalizing m d s with
  | zero => exact moved_zero.symm
  | succ k ih =>
    rw [copyUp, ← moved_succ hd hs h]
    rcases Nat.eq_zero_or_pos k with rfl | hk
    · exact moved_zero.symm
    · exact ih (by bv_omega) (by bv_omega) (by bv_omega)

/-- The last byte first: it is not read again if the destination does not start before the source. -/
lemma moved_last (hd : d.toNat + (k + 1) ≤ 2 ^ 64) (hs : s.toNat + (k + 1) ≤ 2 ^ 64)
    (h : s.toNat ≤ d.toNat ∨ d.toNat + (k + 1) ≤ s.toNat) :
    moved (update m (d + .ofNat 64 k) (m (s + .ofNat 64 k))) d s k = moved m d s (k + 1) := by
  have hdk : (d + BitVec.ofNat 64 k).toNat = d.toNat + k := by bv_omega
  funext a
  unfold moved
  by_cases ha : a = d + BitVec.ofNat 64 k
  · have hsub : d + BitVec.ofNat 64 k - d = .ofNat 64 k := by bv_omega
    rw [ha, hdk, if_neg (by omega), if_pos (by omega), update_self, hsub]
  · by_cases hin : d.toNat ≤ a.toNat ∧ a.toNat < d.toNat + k
    · rw [if_pos hin, if_pos (by omega), update_of_ne (by bv_omega)]
    · rw [if_neg hin, if_neg (by bv_omega), update_of_ne ha]

lemma copyDown_eq (hd : d.toNat + k ≤ 2 ^ 64) (hs : s.toNat + k ≤ 2 ^ 64)
    (h : s.toNat ≤ d.toNat ∨ d.toNat + k ≤ s.toNat) :
    copyDown k m (d + .ofNat 64 k) (s + .ofNat 64 k) = moved m d s k := by
  induction k generalizing m with
  | zero => exact moved_zero.symm
  | succ k ih =>
    have h1 : ∀ a : BitVec 64, a + .ofNat 64 (k + 1) - 1 = a + .ofNat 64 k := fun a => by bv_omega
    rw [copyDown, h1, h1, ih (by omega) (by omega) (by omega), moved_last hd hs h]

end

section

variable {m : ByteMem} {dst src : BitVec 64} {n : BitVec 32}

lemma memmove_eq (hd : dst.toNat + n.toNat ≤ 2 ^ 64) (hs : src.toNat + n.toNat ≤ 2 ^ 64) :
    memmove m dst src n = (dst, moved m dst src n.toNat) := by
  have hn : n.setWidth 64 = .ofNat 64 n.toNat := by bv_omega
  unfold memmove
  by_cases h0 : n = 0
  · rw [if_pos h0, h0]
    exact congrArg _ moved_zero.symm
  · rw [if_neg h0, hn]
    by_cases h : src < dst ∧ src + .ofNat 64 n.toNat > dst
    · rw [if_pos h, copyDown_eq hd hs (by bv_omega)]
    · rw [if_neg h, copyUp_eq hd hs (by bv_omega)]

lemma memmoveUser_eq (h0 : 0 ≤ n.toInt) (hd : dst.toNat + n.toNat ≤ 2 ^ 64)
    (hs : src.toNat + n.toNat ≤ 2 ^ 64) :
    memmoveUser m dst src n = (dst, moved m dst src n.toNat) := by
  have hmsb : n.msb = false :=
    BitVec.msb_eq_false_iff_two_mul_lt.mpr
      (by rw [BitVec.toInt_eq_toNat_cond] at h0; split at h0 <;> omega)
  have hn : n.signExtend 64 = .ofNat 64 n.toNat := by
    rw [BitVec.signExtend_eq_setWidth_of_msb_false hmsb]
    bv_omega
  have hk : n.toInt.toNat = n.toNat := by
    rw [BitVec.toInt_eq_toNat_of_msb hmsb]
    rfl
  unfold memmoveUser
  rw [hk, hn]
  by_cases h : src > dst
  · rw [if_pos h, copyUp_eq hd hs (by bv_omega)]
  · rw [if_neg h, copyDown_eq hd hs (by bv_omega)]

/-- Both versions of `memmove`, on ranges that do not wrap around and may overlap. The destination
has the bytes that the source had, no other byte is changed, and the versions agree. -/
theorem memmove_any_overlap (hd : dst.toNat + n.toNat ≤ 2 ^ 64) (hs : src.toNat + n.toNat ≤ 2 ^ 64) :
    (∀ i < n.toNat, (memmove m dst src n).2 (dst + .ofNat 64 i) = m (src + .ofNat 64 i)) ∧
    (∀ a : BitVec 64, a.toNat < dst.toNat ∨ dst.toNat + n.toNat ≤ a.toNat →
      (memmove m dst src n).2 a = m a) ∧
    (memmove m dst src n).1 = dst ∧ (0 ≤ n.toInt → memmoveUser m dst src n = memmove m dst src n) := by
  rw [memmove_eq hd hs]
  refine ⟨fun i hi => ?_, fun a ha => if_neg (by omega), rfl, fun h0 => memmoveUser_eq h0 hd hs⟩
  have hin : (dst + BitVec.ofNat 64 i).toNat = dst.toNat + i := by bv_omega
  have hsub : dst + BitVec.ofNat 64 i - dst = .ofNat 64 i := by bv_omega
  show (if _ then _ else _) = _
  rw [hin, if_pos (by omega), hsub]

theorem memmove_any_overlap_top :
    memmoveUser (fun a => .ofNat a.toNat) (.ofNat 64 (2 ^ 64 - 4)) (.ofNat 64 (2 ^ 64 - 5)) 4 =
      memmove (fun a => .ofNat a.toNat) (.ofNat 64 (2 ^ 64 - 4)) (.ofNat 64 (2 ^ 64 - 5)) 4 :=
  (memmove_any_overlap (by decide) (by decide)).2.2.2 (by decide)

end

end Xv6
