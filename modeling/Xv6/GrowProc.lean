import Xv6.CopyUser

/-! `growproc` and `sys_sbrk`: the size of a process and its memory before and after. -/

namespace Xv6

open Kern

/-- `sz + n` as the code computes it, in 64 bits. -/
def addInt (sz : Nat) (n : Int) : Nat := (((sz : Int) + n) % 2 ^ 64).toNat

def growproc (K : KernelImage) (pagetable sz : Nat) (n : Int) : Kern Mem (Int × Nat) :=
  if 0 < n then do
    let r ← uvmalloc K pagetable sz (addInt sz n) pteW
    if r = 0 then pure (-1, sz) else pure (0, r)
  else if n < 0 then do
    let r ← uvmdealloc K pagetable sz (addInt sz n)
    pure (0, r)
  else pure (0, sz)

def sysSbrk (K : KernelImage) (pagetable sz : Nat) (n : Int) : Kern Mem (Int × Nat) := do
  let r ← growproc K pagetable sz n
  if r.1 < 0 then pure (-1, r.2) else pure (sz, r.2)

def Reported (K : KernelImage) (L : List Nat) (m : Mem) (root tf g sz : Nat) (t : Radix Nat 2)
    (n : Int) (r : Int × Nat) (m' : Mem) : Prop :=
  ∃ t', Space K L m' root tf (npages r.2) g t' ∧ Keeps L m m' ∧
    (r.1 = 0 ∧ (r.2 : Int) = sz + n ∧ SameBelow (npages (min sz r.2)) t m t' m' ∧
        (∀ v, npages sz ≤ v → v < npages r.2 → m'.page (physPage t' v) = Bytes.fill 4096 0) ∨
      r.1 = -1 ∧ r.2 = sz ∧ SameBelow (npages sz) t m t' m')

section

variable {K : KernelImage} {L : List Nat} {m : Mem} {root tf g sz : Nat} {t : Radix Nat 2} {n : Int}

lemma npages_mono {a b : Nat} (h : a ≤ b) : npages a ≤ npages b := Nat.div_le_div_right (by omega)

lemma addInt_of_nonneg (h0 : 0 ≤ (sz : Int) + n) (hlt : (sz : Int) + n < 2 ^ 64) :
    (addInt sz n : Int) = sz + n := by
  unfold addInt
  omega

lemma Space.sz_lt (h : Space K L m root tf (npages sz) g t) : sz ≤ 2 ^ 27 := by
  have hsz := sz_lt_of_npages h.n_le
  unfold pgSize at hsz
  omega

lemma growproc_below_zero (hsz : sz ≤ 2 ^ 27) (hlo : -2 ^ 31 ≤ n) (h : (sz : Int) + n < 0) :
    growproc K root sz n m = .ok ((0, sz), m) := by
  have hwrap : sz ≤ addInt sz n := by
    unfold addInt
    omega
  unfold growproc
  rw [if_neg (by omega), if_pos (by omega), uvmdealloc, if_pos hwrap]
  rfl

lemma growproc_sat (h : Space K L m root tf (npages sz) g t) (hhi : n < 2 ^ 31)
    (h0 : 0 ≤ (sz : Int) + n) :
    (growproc K root sz n).Sat m (fun _ => False) (Reported K L m root tf g sz t n) := by
  have hsz := h.sz_lt
  have hnew := addInt_of_nonneg h0 (by omega)
  unfold growproc
  by_cases hpos : 0 < n
  · rw [if_pos hpos]
    refine (uvmalloc_sat h (by decide)).bind ?_
    rintro r m' ⟨sz', t', hg⟩
    have hs := hg.space
    by_cases hr : r = 0
    · rw [hg.failed hr] at hs
      rw [if_pos hr]
      exact sat_pure.mpr ⟨t', hs, hg.keeps, .inr ⟨rfl, rfl, hg.same⟩⟩
    · obtain ⟨rfl, hmax⟩ := hg.grown hr
      have hle : sz ≤ sz' := by omega
      rw [if_neg hr]
      refine sat_pure.mpr ⟨t', hs, hg.keeps, .inl ⟨rfl, ?_, ?_, fun v hlo hhi => (hg.zero v hlo hhi).2⟩⟩
      · show (sz' : Int) = sz + n
        omega
      · exact hg.same.mono (npages_mono (by omega))
  by_cases hneg : n < 0
  · rw [if_neg hpos, if_pos hneg]
    refine (uvmdealloc_sat h).bind ?_
    rintro r m' ⟨hr, t', hs, hk, hsame⟩
    have hle : r ≤ sz := by omega
    refine sat_pure.mpr ⟨t', hs, hk, .inl ⟨rfl, ?_, ?_, fun v hlo hhi => ?_⟩⟩
    · show (r : Int) = sz + n
      omega
    · exact hsame.mono (npages_mono (by omega))
    · have hmono := npages_mono hle
      simp only at hhi
      omega
  · have hz : n = 0 := by omega
    rw [if_neg hpos, if_neg hneg]
    refine sat_pure.mpr
      ⟨t, h, Keeps.refl _ _, .inl ⟨rfl, by simp [hz], SameBelow.refl _ _ _, fun v hlo hhi => ?_⟩⟩
    simp only at hhi
    omega

/-- `growproc(n)` does what it reports if and only if the new size is not below 0. -/
theorem growproc_reports_iff (h : Space K L m root tf (npages sz) g t) (hlo : -2 ^ 31 ≤ n)
    (hhi : n < 2 ^ 31) : (growproc K root sz n).Sat m (fun _ => False)
    (Reported K L m root tf g sz t n) ↔ 0 ≤ (sz : Int) + n := by
  refine ⟨fun hsat => ?_, growproc_sat h hhi⟩
  by_contra hneg
  rw [sat_of_eq (growproc_below_zero h.sz_lt hlo (by omega))] at hsat
  obtain ⟨t', -, -, hres⟩ := hsat
  rcases hres with ⟨-, hsz, -⟩ | ⟨hr, -⟩
  · simp only at hsz
    omega
  · simp at hr

theorem growproc_reports_first : ∃ m root t, Space smallKernel [] m root 0x87fff000 (npages 4096) 1 t ∧
    (growproc smallKernel root 4096 (-4096)).Sat m (fun _ => False)
      (Reported smallKernel [] m root 0x87fff000 1 4096 t (-4096)) := by
  obtain ⟨m, root, t, hs⟩ := exists_space
  have hs' : Space smallKernel [] m root 0x87fff000 (npages 4096) 1 t := hs
  exact ⟨m, root, t, hs', (growproc_reports_iff hs' (by decide) (by decide)).mpr (by decide)⟩

/-- `sbrk(-8192)` of the first process: success, and the size is what it was. -/
theorem growproc_wraps : ∃ m root t, Space smallKernel [] m root 0x87fff000 (npages 4096) 1 t ∧
    growproc smallKernel root 4096 (-8192) m = .ok ((0, 4096), m) ∧ (4096 : Int) ≠ 4096 + -8192 := by
  obtain ⟨m, root, t, hs⟩ := exists_space
  have hs' : Space smallKernel [] m root 0x87fff000 (npages 4096) 1 t := hs
  exact ⟨m, root, t, hs', growproc_below_zero (by decide) (by decide) (by decide), by decide⟩

end

end Xv6
