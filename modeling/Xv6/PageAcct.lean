import Xv6.Lib.Radix
import Xv6.VmModel

/-! `kinit` frees the pages of `pool`. From then on each of them is in the free list or in the list
of pages that somebody owns. -/

namespace Xv6

open Kern List

lemma has_pteV (w : Nat) : has w pteV = decide (w % 2 = 1) := by
  unfold has pteV
  rw [Nat.and_one_is_mod]
  rcases Nat.mod_two_eq_zero_or_one w with h | h <;> simp [h]

lemma pteFlags_eq (w : Nat) : pteFlags w = w % 1024 := Nat.and_two_pow_sub_one_eq_mod w 10

lemma pte2Pa_eq (w : Nat) : pte2Pa w = w / 1024 * 4096 := by
  simp [pte2Pa, Nat.shiftRight_eq_div_pow, Nat.shiftLeft_eq]

lemma pa2Pte_or {pa f : Nat} (hf : f < 1024) : pa2Pte pa ||| f = pa / 4096 * 1024 + f := by
  have h := Nat.shiftLeft_add_eq_or_of_lt (i := 10) (b := f) hf (pa >>> 12)
  rw [pa2Pte, ← h, Nat.shiftLeft_eq, Nat.shiftRight_eq_div_pow]

lemma px_eq (level va : Nat) : px level va = va / 4096 / 512 ^ level % 512 := by
  have h : (2 : Nat) ^ (12 + 9 * level) = 4096 * 512 ^ level := by
    rw [Nat.pow_add, Nat.pow_mul]
  rw [px, Nat.shiftRight_eq_div_pow, h, ← Nat.div_div_eq_div_mul]
  exact Nat.and_two_pow_sub_one_eq_mod _ 9

def sv39 : Radix.Format Nat where
  width := 512
  zero := 0
  link := fun pa => pa2Pte pa ||| pteV

lemma physTop_eq : physTop = 2281701376 := rfl

lemma kernBase_eq : kernBase = 2147483648 := rfl

lemma u64_of_lt {n : Nat} (h : n < 2 ^ 64) : u64 n = n := Nat.mod_eq_of_lt h

def npages (sz : Nat) : Nat := (sz + (pgSize - 1)) / pgSize

lemma pgRoundUp_eq {sz : Nat} (h : sz < 2 ^ 63) : pgRoundUp sz = npages sz * pgSize := by
  have hlt : sz + pgSize - 1 < 2 ^ 64 := by
    unfold pgSize
    omega
  rw [pgRoundUp, u64_of_lt hlt]
  rfl

lemma pagesFrom_nodup (lo hi : Nat) : (pagesFrom lo hi).Nodup := by
  refine List.Nodup.map ?_ nodup_range
  intro i j h
  simp only [pgSize] at h
  omega

/-- The pages that `kinit` frees. -/
def pool (K : KernelImage) : List Nat := pagesFrom (pgRoundUp K.kend) (pgRoundDown physTop)

lemma pool_nodup (K : KernelImage) : (pool K).Nodup := pagesFrom_nodup _ _

section

variable {K : KernelImage} {q : Nat}

lemma pool_low (K : KernelImage) :
    pgRoundUp K.kend = npages K.kend * pgSize ∧ kernBase ≤ K.kend ∧ K.kend ≤ physTop := by
  have hend := K.end_le
  have hlt : K.kend < 2 ^ 63 := by
    rw [physTop_eq] at hend
    omega
  exact ⟨pgRoundUp_eq hlt, K.base_le, hend⟩

lemma mem_pool (h : q ∈ pool K) : q % pgSize = 0 ∧ K.kend ≤ q ∧ q < physTop := by
  obtain ⟨i, hi, rfl⟩ := mem_map.mp h
  have hlt := mem_range.mp hi
  obtain ⟨he, -, -⟩ := pool_low K
  rw [he] at hlt ⊢
  rw [physTop_eq] at *
  unfold npages pgRoundDown pgSize at *
  omega

lemma pool_length_le (K : KernelImage) : (pool K).length ≤ 32768 := by
  obtain ⟨he, hb, ht⟩ := pool_low K
  unfold pool pagesFrom
  rw [length_map, length_range, he]
  rw [kernBase_eq] at hb
  rw [physTop_eq] at ht ⊢
  unfold npages pgRoundDown pgSize
  omega

lemma pte2Pa_leaf (hq : q % pgSize = 0) {f : Nat} (hf : f < 1024) : pte2Pa (pa2Pte q ||| f) = q := by
  unfold pgSize at hq
  rw [pa2Pte_or hf, pte2Pa_eq]
  omega

lemma pool_pte_lt (h : q < physTop) {f : Nat} (hf : f < 1024) : pa2Pte q ||| f < 2 ^ 64 := by
  rw [pa2Pte_or hf]
  rw [physTop_eq] at h
  omega

end

def Acct (K : KernelImage) (m : Mem) (L : List Nat) : Prop := (m.freelist ++ L).Perm (pool K)

def Keeps (L : List Nat) (m m' : Mem) : Prop := ∀ q ∈ L, m'.page q = m.page q

/-- The next `k` calls of `kalloc` succeed. -/
def Grants (m : Mem) (k : Nat) : Prop := k ≤ m.freelist.length ∧ ∀ i < k, m.deny (m.calls + i) = false

lemma Grants.le {m : Mem} {k k' : Nat} (h : Grants m k) (hk : k' ≤ k) : Grants m k' :=
  ⟨hk.trans h.1, fun i hi => h.2 i (hi.trans_le hk)⟩

section

variable {K : KernelImage} {m m' m'' : Mem} {L L' : List Nat} {q : Nat} {E : String → Prop}

lemma Acct.perm (h : Acct K m L) (hp : L.Perm L') : Acct K m L' := (hp.symm.append_left _).trans h

lemma Acct.nodup (h : Acct K m L) : L.Nodup :=
  ((h.nodup_iff.mpr (pool_nodup K)).sublist (sublist_append_right _ _))

lemma Acct.mem_pool (h : Acct K m L) (hq : q ∈ L) : q ∈ pool K :=
  h.subset (mem_append_right _ hq)

lemma Acct.length_le (h : Acct K m L) : L.length ≤ 32768 := by
  have hl := h.length_eq
  have hp := pool_length_le K
  rw [length_append] at hl
  omega

lemma Acct.setPage (h : Acct K m L) (q : Nat) (b : Bytes 4096) : Acct K (m.setPage q b) L := h

lemma Keeps.refl (L : List Nat) (m : Mem) : Keeps L m m := fun _ _ => rfl

lemma Keeps.trans (h : Keeps L m m') (h' : Keeps L m' m'') : Keeps L m m'' :=
  fun q hq => (h' q hq).trans (h q hq)

lemma Keeps.mono (h : Keeps L' m m') (hs : L ⊆ L') : Keeps L m m' := fun q hq => h q (hs hq)

lemma keeps_setPage (hq : q ∉ L) (b : Bytes 4096) : Keeps L m (m.setPage q b) := by
  intro p hp
  refine Mem.page_setPage_of_ne m b ?_
  rintro rfl
  exact hq hp

lemma Acct.not_mem (h : Acct K m (q :: L)) : q ∉ L := (nodup_cons.mp h.nodup).1

/-- A page that has lost its owner is free. -/
lemma Acct.freed (h : Acct K m (L' ++ L)) (h' : Acct K m' L) (hq : q ∈ L') : q ∈ m'.freelist := by
  have hpool := h.mem_pool (mem_append_left _ hq)
  refine (mem_append.mp (h'.mem_iff.mpr hpool)).resolve_right fun hL => ?_
  exact (nodup_append.mp h.nodup).2.2 q hq q hL rfl

/-- A page leaves the free list, or there is none. -/
lemma kalloc_sat (h : Acct K m L) : kalloc.Sat m E fun r m' => Acct K m' (r.toList ++ L) ∧
    Keeps L m m' ∧ ∀ k, Grants m (k + 1) → r ≠ none ∧ Grants m' k := by
  cases hd : m.deny m.calls with
  | true =>
    have hk : kalloc m = .ok (none, { m with calls := m.calls + 1 }) := by simp [kalloc, hd]
    refine (sat_of_eq hk).mpr ⟨h, Keeps.refl L m, fun k hg => ?_⟩
    have := hg.2 0 (by omega)
    rw [Nat.add_zero, hd] at this
    cases this
  | false =>
    cases hf : m.freelist with
    | nil =>
      have hk : kalloc m = .ok (none, { m with calls := m.calls + 1 }) := by simp [kalloc, hd, hf]
      refine (sat_of_eq hk).mpr ⟨h, Keeps.refl L m, fun k hg => ?_⟩
      have := hg.1
      rw [hf] at this
      simp at this
    | cons r rest =>
      have hk : kalloc m = .ok (some r,
          { m with calls := m.calls + 1, freelist := rest }.setPage r (Bytes.fill 4096 5)) := by
        simp [kalloc, hd, hf]
      have hr : Acct K { m with calls := m.calls + 1, freelist := rest } (r :: L) := by
        unfold Acct at h ⊢
        rw [hf] at h
        exact perm_middle.trans h
      refine (sat_of_eq hk).mpr ⟨hr, keeps_setPage hr.not_mem _, fun k hg => ⟨by simp, ?_, ?_⟩⟩
      · have := hg.1
        rw [hf, length_cons] at this
        change k ≤ rest.length
        omega
      · intro i hi
        have := hg.2 (i + 1) (by omega)
        change m.deny (m.calls + 1 + i) = false
        rwa [Nat.add_assoc, Nat.add_comm 1 i]

lemma kfree_sat (h : Acct K m (q :: L)) : (kfree K q).Sat m E fun _ m' => Acct K m' L ∧
    Keeps L m m' := by
  obtain ⟨hal, hlo, hhi⟩ := Xv6.mem_pool (h.mem_pool (mem_cons_self ..))
  unfold kfree
  rw [if_neg (by omega)]
  refine sat_modifyState.mpr ⟨?_, keeps_setPage h.not_mem _⟩
  unfold Acct at h ⊢
  exact perm_middle.symm.trans h

end

end Xv6
