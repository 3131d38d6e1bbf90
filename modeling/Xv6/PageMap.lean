import Xv6.CopyUser

/-! A page table is a map from virtual pages to physical pages and flags: what `walk`,
`mappages`, `uvmunmap` and `walkaddr` do to it, at any table. -/

namespace Xv6

open Kern List

def translate (t : Radix Nat 2) (v : Nat) : Option (Nat × Nat) :=
  if has (t.val sv39 v) pteV then some (pte2Pa (t.val sv39 v), pteFlags (t.val sv39 v)) else none

def isPage (w : Nat) : Bool := has w pteV && decide (pteFlags w ≠ pteV)

section

variable {K : KernelImage} {L : List Nat} {m m' : Mem} {root va vb : Nat} {t t' : Radix Nat 2}

lemma vpn_lt (hva : va < maxVa) : va / pgSize < 2 ^ 26 := by
  rw [maxVa_eq] at hva
  unfold pgSize at *
  omega

lemma px_inj (hva : va < maxVa) (hvb : vb < maxVa) (h : ∀ level ≤ 2, px level va = px level vb) :
    va / pgSize = vb / pgSize := by
  have ha := vpn_lt hva
  have hb := vpn_lt hvb
  have h0 := h 0 (by omega)
  have h1 := h 1 (by omega)
  have h2 := h 2 (by omega)
  rw [px_eq, px_eq] at h0 h1 h2
  unfold pgSize at *
  omega

lemma Tree.slot_inj (h : Tree K L m root t) {a b table : Nat} (ha : a < 2 ^ 27) (hb : b < 2 ^ 27)
    (hta : t.tableOf sv39 a = some table) (htb : t.tableOf sv39 b = some table)
    (hd : Radix.digit sv39 0 a = Radix.digit sv39 0 b) : a = b := by
  have hmod : ∀ a, a < 2 ^ 27 → a % sv39.width ^ (2 + 1) = a := fun a ha => Nat.mod_eq_of_lt ha
  have hinj := Radix.tableOf_inj sv39_pos (nodup_append.mp h.acct.nodup).1 hta htb hd
  rwa [hmod a ha, hmod b hb] at hinj

lemma Tree.walkable (h : Tree K L m root t) : Walkable m root t :=
  ⟨h.root, h.rep, fun _ hq => (mem_pool (h.acct.mem_pool (mem_append_left _ hq))).1⟩

lemma translate_congr {k : Nat} (h : t'.val sv39 k = t.val sv39 k) :
    translate t' k = translate t k := by
  rw [translate, translate, h]

end

section

variable {K : KernelImage} {L : List Nat} {m : Mem} {root v pa perm more : Nat} {t : Radix Nat 2}
  {E : String → Prop}

def rangePte (pa perm i : Nat) : Nat := pa2Pte (u64 (pa + i * pgSize)) ||| perm ||| pteV

structure MappedRange (K : KernelImage) (L : List Nat) (m : Mem) (v pa perm root : Nat)
    (t : Radix Nat 2) (n : Nat)
    (m' : Mem) (t' : Radix Nat 2) : Prop extends Tree K L m' root t' where
  keeps : Keeps L m m'
  val : ∀ k, k < 2 ^ 27 → t'.val sv39 k = if v ≤ k ∧ k < v + n then rangePte pa perm (k - v)
    else t.val sv39 k

lemma rangePte_eq {i : Nat} (hperm : perm < 1024) :
    rangePte pa perm i = u64 (pa + i * pgSize) / 4096 * 1024 + (perm ||| pteV) := by
  rw [rangePte, Nat.or_assoc, pa2Pte_or (Nat.or_lt_two_pow (n := 10) hperm (by decide))]

lemma rangePte_lt (pa i : Nat) (hperm : perm < 1024) : rangePte pa perm i < 2 ^ 64 := by
  have hf : perm ||| pteV < 1024 := Nat.or_lt_two_pow (n := 10) hperm (by decide)
  have hpa : u64 (pa + i * pgSize) < 2 ^ 64 := Nat.mod_lt _ (by decide)
  rw [rangePte_eq hperm]
  omega

lemma rangePte_step (pa perm i : Nat) :
    rangePte (u64 (pa + pgSize)) perm i = rangePte pa perm (i + 1) := by
  have hpa : u64 (u64 (pa + pgSize) + i * pgSize) = u64 (pa + (i + 1) * pgSize) := by
    unfold u64 pgSize
    omega
  rw [rangePte, rangePte, hpa]

lemma or_pteV_odd (f : Nat) : (f ||| pteV) % 2 = 1 := Nat.or_mod_two_eq_one.mpr (.inr rfl)

lemma translate_rangePte {k i : Nat} (hperm : perm < 1024) (h : t.val sv39 k = rangePte pa perm i) :
    translate t k = some (pgRoundDown (u64 (pa + i * pgSize)), perm ||| pteV) := by
  have hf : perm ||| pteV < 1024 := Nat.or_lt_two_pow (n := 10) hperm (by decide)
  have hodd := or_pteV_odd perm
  have hV : has (rangePte pa perm i) pteV = true := by
    rw [has_pteV, rangePte_eq hperm, decide_eq_true_eq]
    omega
  have hpa : pte2Pa (rangePte pa perm i) = pgRoundDown (u64 (pa + i * pgSize)) := by
    rw [pte2Pa_eq, rangePte_eq hperm, pgRoundDown]
    unfold pgSize
    omega
  have hflags : pteFlags (rangePte pa perm i) = perm ||| pteV := by
    rw [pteFlags_eq, rangePte_eq hperm]
    omega
  rw [translate, h, if_pos hV, hpa, hflags]

lemma mapRound_sat {rest : Kern Mem Int} {Q : Int → Mem → Prop} (h : Tree K L m root t)
    (hperm : perm < 1024) (hpa : pa < 2 ^ 64) (hfar : 2 ^ 26 ≤ v → ∀ s, E s)
    (htaken : has (t.val sv39 v) pteV = true → ∀ s, E s)
    (hfail : ∀ m1 (t1 : Radix Nat 2), Tree K L m1 root t1 → Keeps L m m1 →
      (∀ k, t1.val sv39 k = t.val sv39 k) → Q (-1) m1)
    (hrest : ∀ m1 t1, MappedRange K L m v pa perm root t 1 m1 t1 → v < 2 ^ 26 → rest.Sat m1 E Q) :
    (walk root (v * pgSize) true >>= fun r =>
      match r with
      | none => pure (-1)
      | some (table, i) => readPte table i >>= fun pte =>
        if has pte pteV then Kern.panic "mappages: remap"
        else writePte table i (pa2Pte pa ||| perm ||| pteV) >>= fun _ => rest).Sat m E Q := by
  by_cases hv : 2 ^ 26 ≤ v
  · have hmax : maxVa ≤ v * pgSize := by
      rw [maxVa_eq]
      exact Nat.mul_le_mul_right _ hv
    rw [walk, if_pos hmax, sat_bind, sat_panic]
    exact hfar hv _
  have hv' : v < 2 ^ 26 := by omega
  refine (walk_sat h (vpn_lt_maxVa hv')).bind ?_
  rintro r m1 ⟨t1, hw⟩
  rw [vpn_div] at hw
  cases r with
  | none => exact sat_pure.mpr (hfail m1 t1 hw.toTree hw.keeps hw.val)
  | some p =>
    obtain ⟨htab, hi⟩ := hw.place p rfl
    obtain ⟨table, i⟩ := p
    subst hi
    rw [sat_bind, sat_readPte, hw.toTree.pte_eq htab, hw.val]
    cases hV : has (t.val sv39 v) pteV with
    | true => exact sat_panic.mpr (htaken hV _)
    | false =>
      have hpte : rangePte pa perm 0 = pa2Pte pa ||| perm ||| pteV := by
        rw [rangePte, Nat.zero_mul, Nat.add_zero, u64_of_lt hpa]
      obtain ⟨htree, hkeep⟩ := hw.toTree.set htab (rangePte_lt pa 0 hperm)
      simp only [Bool.false_eq_true, if_false, sat_bind, sat_writePte]
      rw [← hpte]
      refine hrest _ _ ⟨htree, hw.keeps.trans hkeep, fun k hk => ?_⟩ hv'
      rw [val_set_vpn htab (by omega) hk, hw.val]
      by_cases hkv : k = v
      · rw [if_pos hkv, if_pos (by omega), hkv, Nat.sub_self]
      · rw [if_neg hkv, if_neg (by omega)]

lemma MappedRange.cons {n : Nat} {m1 m2 : Mem} {t1 t2 : Radix Nat 2}
    (h₁ : MappedRange K L m v pa perm root t 1 m1 t1)
    (h₂ : MappedRange K L m1 (v + 1) (u64 (pa + pgSize)) perm root t1 n m2 t2) :
    MappedRange K L m v pa perm root t (n + 1) m2 t2 := by
  refine ⟨h₂.toTree, h₁.keeps.trans h₂.keeps, fun k hk => ?_⟩
  rw [h₂.val k hk, h₁.val k hk]
  by_cases hin : v + 1 ≤ k ∧ k < v + 1 + n
  · have hi : k - (v + 1) + 1 = k - v := by omega
    rw [if_pos hin, if_pos (by omega), rangePte_step, hi]
  · by_cases hkv : v ≤ k ∧ k < v + 1
    · rw [if_neg hin, if_pos hkv, if_pos (by omega)]
    · rw [if_neg hin, if_neg hkv, if_neg (by omega)]

lemma mappedRange_zero {m' : Mem} {t' : Radix Nat 2} (h : Tree K L m' root t') (hk : Keeps L m m')
    (hval : ∀ k, t'.val sv39 k = t.val sv39 k) : MappedRange K L m v pa perm root t 0 m' t' := by
  refine ⟨h, hk, fun k _ => ?_⟩
  rw [if_neg (by omega), hval]

/-- The loop of `mappages` by induction on the rounds that are left. -/
lemma mapLoop_sat (h : Tree K L m root t) (hpa : pa < 2 ^ 64) (hperm : perm < 1024)
    (hfar : ∀ s, 2 ^ 26 ≤ v + more → E s)
    (htaken : ∀ s k, v ≤ k → k ≤ v + more → has (t.val sv39 k) pteV = true → E s) :
    (mapLoop root perm more (v * pgSize) pa).Sat m E fun e m' => ∃ n t',
    MappedRange K L m v pa perm root t n m' t' ∧
      (e = 0 ∧ n = more + 1 ∧ v + more < 2 ^ 26 ∨ e = -1 ∧ n ≤ more) := by
  induction more generalizing v pa m t with
  | zero =>
    unfold mapLoop
    refine mapRound_sat h hperm hpa (fun hv s => hfar s (by omega))
      (fun hV s => htaken s v (by omega) (by omega) hV) ?_ ?_
    · exact fun m1 t1 h₁ hk hval => ⟨0, t1, mappedRange_zero h₁ hk hval, .inr ⟨rfl, le_rfl⟩⟩
    · exact fun m1 t1 h₁ hv => sat_pure.mpr ⟨1, t1, h₁, .inl ⟨rfl, rfl, hv⟩⟩
  | succ more ih =>
    unfold mapLoop
    refine mapRound_sat h hperm hpa (fun hv s => hfar s (by omega))
      (fun hV s => htaken s v (by omega) (by omega) hV) ?_ ?_
    · exact fun m1 t1 h₁ hk hval => ⟨0, t1, mappedRange_zero h₁ hk hval, .inr ⟨rfl, by omega⟩⟩
    · intro m1 t1 h₁ hv
      have hnext : u64 (v * pgSize + pgSize) = (v + 1) * pgSize := by
        rw [u64_of_lt (by unfold pgSize; omega), Nat.succ_mul]
      rw [hnext]
      refine (ih h₁.toTree (Nat.mod_lt _ (by decide)) (fun s hf => hfar s (by omega)) ?_).imp ?_
      · intro s k hlo hhi hV
        by_cases hk : 2 ^ 26 ≤ v + (more + 1)
        · exact hfar s hk
        rw [h₁.val k (by omega), if_neg (by omega)] at hV
        exact htaken s k (by omega) (by omega) hV
      · rintro e m2 ⟨n, t2, h₂, hres⟩
        exact ⟨n + 1, t2, h₁.cons h₂, by omega⟩

def lastVpn (va size : Nat) : Nat := u64 (va + size - 1) / pgSize

lemma mappages_range {va size : Nat} (h : Tree K L m root t) (hva : va < 2 ^ 64) (hpa : pa < 2 ^ 64)
    (hperm : perm < 1024) : (mappages root va size pa perm).Sat m
      (fun _ => size = 0 ∨ lastVpn va size < va / pgSize ∨ 2 ^ 26 ≤ lastVpn va size ∨
        ∃ k, va / pgSize ≤ k ∧ k ≤ lastVpn va size ∧ has (t.val sv39 k) pteV = true)
      fun e m' => ∃ n t', MappedRange K L m (va / pgSize) pa perm root t n m' t' ∧
        (e = 0 ∧ va / pgSize + n = lastVpn va size + 1 ∧ lastVpn va size < 2 ^ 26 ∨
          e = -1 ∧ (va / pgSize ≤ lastVpn va size → va / pgSize + n ≤ lastVpn va size)) := by
  unfold mappages
  by_cases hsize : size = 0
  · rw [if_pos hsize, sat_panic]
    exact .inl hsize
  have hlast : pgRoundDown (u64 (va + size - 1)) = lastVpn va size * pgSize := rfl
  have hw : lastVpn va size < 2 ^ 52 := by
    have hlt : u64 (va + size - 1) < 2 ^ 64 := Nat.mod_lt _ (by decide)
    unfold lastVpn pgSize
    omega
  rw [if_neg hsize]
  simp only [hlast]
  rw [show pgRoundDown va = va / pgSize * pgSize from rfl]
  have hv : va / pgSize < 2 ^ 52 := by
    unfold pgSize
    omega
  generalize va / pgSize = v at *
  generalize lastVpn va size = w at *
  have hmore : v + u64 (w * pgSize + 2 ^ 64 - v * pgSize) / pgSize = if v ≤ w then
    w else 2 ^ 52 + w := by
    split_ifs with hle
    · have hm : u64 (w * pgSize + 2 ^ 64 - v * pgSize) = (w - v) * pgSize := by
        unfold u64 pgSize
        omega
      rw [hm, Nat.mul_div_cancel _ (by decide)]
      omega
    · have hm : u64 (w * pgSize + 2 ^ 64 - v * pgSize) = (2 ^ 52 + w - v) * pgSize := by
        unfold u64 pgSize
        omega
      rw [hm, Nat.mul_div_cancel _ (by decide)]
      omega
  generalize u64 (w * pgSize + 2 ^ 64 - v * pgSize) / pgSize = more at *
  refine (mapLoop_sat h hpa hperm ?_ ?_).imp ?_
  · intro s hf
    split_ifs at hmore <;> omega
  · intro s k hlo hhi hV
    by_cases hle : v ≤ w
    · rw [if_pos hle] at hmore
      exact .inr (.inr (.inr ⟨k, hlo, by omega, hV⟩))
    · exact .inr (.inl (by omega))
  · rintro e m' ⟨n, t', h', hres⟩
    refine ⟨n, t', h', ?_⟩
    split_ifs at hmore <;> omega

end

section

variable {K : KernelImage} {L : List Nat} {m : Mem} {root v : Nat} {t : Radix Nat 2} {doFree : Bool}
  {E : String → Prop}

/-- The pages that `uvmunmap` gives back. -/
def freed (doFree : Bool) (t : Radix Nat 2) (v n : Nat) : List Nat :=
  if doFree then ((List.range' v n).filter fun k => decide (k < 2 ^ 26) &&
    has (t.val sv39 k) pteV).map (physPage t) else []

variable {n va npages : Nat}

lemma freed_cons (hv : v < 2 ^ 26) (hV : has (t.val sv39 v) pteV = true) :
    freed doFree t v (n + 1) = (if doFree then [pte2Pa (t.val sv39 v)] else []) ++ freed doFree t
    (v + 1) n := by
  cases doFree with
  | false => rfl
  | true =>
    have hkeep : (decide (v < 2 ^ 26) && has (t.val sv39 v) pteV) = true := by
      rw [decide_eq_true hv, hV, Bool.and_self]
    rw [freed, List.range'_succ, if_pos rfl, filter_cons, if_pos hkeep]
    rfl

lemma freed_congr {t' : Radix Nat 2} (h : ∀ k, v ≤ k → k < 2 ^ 26 → t'.val sv39 k = t.val sv39 k) :
    freed doFree t' v n = freed doFree t v n := by
  have hval : ∀ k ∈ List.range' v n, k < 2 ^ 26 → t'.val sv39 k = t.val sv39 k :=
    fun k hk hlt => h k (mem_range'_1.mp hk).1 hlt
  have hfil : (List.range' v n).filter (fun k => decide (k < 2 ^ 26) && has (t'.val sv39 k) pteV) =
      (List.range' v n).filter fun k => decide (k < 2 ^ 26) && has (t.val sv39 k) pteV := by
    refine filter_congr fun k hk => ?_
    by_cases hlt : k < 2 ^ 26
    · rw [hval k hk hlt]
    · rw [decide_eq_false hlt]
      rfl
  cases doFree with
  | false => rfl
  | true =>
    simp only [freed, if_true]
    rw [hfil]
    refine map_congr_left fun k hk => ?_
    obtain ⟨hmem, hp⟩ := mem_filter.mp hk
    rw [Bool.and_eq_true, decide_eq_true_eq] at hp
    rw [physPage, physPage, hval k hmem hp.1]

lemma unmapPage_bad {Q : Unit → Mem → Prop} (h : Tree K L m root t)
    (hbad : 2 ^ 26 ≤ v ∨ isPage (t.val sv39 v) = false)
    (hE : ∀ s, E s) : (unmapPage K root doFree (v * pgSize)).Sat m E Q := by
  unfold unmapPage
  by_cases hv : 2 ^ 26 ≤ v
  · have hmax : maxVa ≤ v * pgSize := by
      rw [maxVa_eq]
      exact Nat.mul_le_mul_right _ hv
    rw [walk, if_pos hmax, sat_bind, sat_panic]
    exact hE _
  have hpage := hbad.resolve_left hv
  refine (walk_sat h (vpn_lt_maxVa (by omega))).bind ?_
  rintro r m1 ⟨t1, hw⟩
  obtain ⟨rfl, rfl, -⟩ := hw.still rfl
  rw [vpn_div] at hw
  cases r with
  | none => exact sat_panic.mpr (hE _)
  | some p =>
    obtain ⟨htab, hi⟩ := hw.place p rfl
    obtain ⟨table, i⟩ := p
    subst hi
    rw [sat_bind, sat_readPte, h.pte_eq htab]
    unfold isPage at hpage
    cases hV : has (t1.val sv39 v) pteV with
    | false => exact sat_panic.mpr (hE _)
    | true =>
      have hf : pteFlags (t1.val sv39 v) = pteV := by simpa [hV] using hpage
      simp only [Bool.true_eq_false, if_false, hf, if_true]
      exact sat_panic.mpr (hE _)

lemma isPage_iff {w : Nat} : isPage w = true ↔ has w pteV = true ∧ pteFlags w ≠ pteV := by
  rw [isPage, Bool.and_eq_true, decide_eq_true_eq]

/-- The loop of `uvmunmap` by induction on the pages that are left. -/
lemma unmapRange_sat (h : Tree K (freed doFree t v n ++ L) m root t)
    (hE : ∀ s k, v ≤ k → k < v + n → 2 ^ 26 ≤ k ∨ isPage (t.val sv39 k) = false → E s) :
    (forEach (unmapPage K root doFree) ((List.range' v n).map fun k => k * pgSize)).Sat m E fun _ m' =>
      ∃ t' : Radix Nat 2, Tree K L m' root t' ∧ Keeps L m m' ∧ (n = 0 ∨ v + n ≤ 2 ^ 26) ∧
        ∀ k, k < 2 ^ 27 → t'.val sv39 k = if v ≤ k ∧ k < v + n then 0 else t.val sv39 k := by
  induction n generalizing v m t with
  | zero =>
    have hL : freed doFree t v 0 ++ L = L := by cases doFree <;> rfl
    rw [hL] at h
    refine sat_pure.mpr ⟨t, h, Keeps.refl _ _, .inl rfl, fun k _ => ?_⟩
    rw [if_neg (by omega)]
  | succ n ih =>
    rw [List.range'_succ, map_cons]
    by_cases hbad : 2 ^ 26 ≤ v ∨ isPage (t.val sv39 v) = false
    · have hstop : (unmapPage K root doFree (v * pgSize)).Sat m E fun _ _ => False :=
        unmapPage_bad h hbad fun s => hE s v (by omega) (by omega) hbad
      exact hstop.bind fun _ _ hf => hf.elim
    obtain ⟨hv, hpage⟩ := not_or.mp hbad
    obtain ⟨hV, hf⟩ := isPage_iff.mp (Bool.eq_true_of_not_eq_false hpage)
    rw [freed_cons (by omega) hV, append_assoc] at h
    refine (unmapPage_sat h (by omega) hV hf).bind ?_
    rintro _ m1 ⟨t1, h₁, hk1, hval⟩
    have hsame : ∀ k, v + 1 ≤ k → k < 2 ^ 26 → t1.val sv39 k = t.val sv39 k := by
      intro k hlo hhi
      rw [hval k (by omega), if_neg (by omega)]
    rw [← freed_congr hsame] at h₁
    refine (ih h₁ ?_).imp ?_
    · intro s k hlo hhi hb
      refine hE s k (by omega) (by omega) ?_
      by_cases hk : k < 2 ^ 26
      · rwa [hsame k hlo hk] at hb
      · exact .inl (by omega)
    · rintro _ m2 ⟨t2, h₂, hk2, hn, hval2⟩
      refine ⟨t2, h₂, (hk1.mono (subset_append_right _ _)).trans hk2, .inr (by omega), fun k hk => ?_⟩
      rw [hval2 k hk, hval k hk]
      split_ifs <;> first | rfl | omega

def unmapCount (va npages : Nat) : Nat := (u64 (va + npages * pgSize) - va) / pgSize

lemma unmapCount_eq (h : va + npages * pgSize < 2 ^ 64) : unmapCount va npages = npages := by
  rw [unmapCount, u64_of_lt h, Nat.add_sub_cancel_left, Nat.mul_div_cancel _ (by decide)]

lemma uvmunmap_range
    (h : Tree K (freed doFree t (va / pgSize) (unmapCount va npages) ++ L) m root t) :
    (uvmunmap K root va npages doFree).Sat m
      (fun _ => va % pgSize ≠ 0 ∨ ∃ k, va / pgSize ≤ k ∧ k < va / pgSize + unmapCount va npages ∧
        (2 ^ 26 ≤ k ∨ isPage (t.val sv39 k) = false))
      fun _ m' => ∃ t' : Radix Nat 2, Tree K L m' root t' ∧ Keeps L m m' ∧ ∀ k, k < 2 ^ 27 →
        t'.val sv39 k = if va / pgSize ≤ k ∧ k < va / pgSize + unmapCount va npages then
        0 else t.val sv39 k := by
  unfold uvmunmap
  by_cases halign : va % pgSize ≠ 0
  · rw [if_pos halign, sat_panic]
    exact .inl halign
  have hpages : pagesFrom va (u64 (va + npages * pgSize)) =
      (List.range' (va / pgSize) (unmapCount va npages)).map fun k => k * pgSize := by
    have hv : va / pgSize * pgSize = va := by
      unfold pgSize at *
      omega
    rw [← pagesFrom_vpn, hv, pagesFrom, pagesFrom]
    congr 2
    unfold unmapCount u64 pgSize at *
    omega
  rw [if_neg halign, hpages]
  refine (unmapRange_sat h fun s k hlo hhi hb => .inr ⟨k, hlo, hhi, hb⟩).imp ?_
  rintro _ m' ⟨t', h', hk, -, hval⟩
  exact ⟨t', h', hk, hval⟩

end

section

variable {K : KernelImage} {L : List Nat} {m : Mem} {root va : Nat} {t : Radix Nat 2}

lemma walk_eq (h : Walkable m root t) (hva : va < maxVa) : walk root va false m =
    .ok ((t.tableOf sv39 (va / pgSize)).map fun table =>
      (table, Radix.digit sv39 0 (va / pgSize)), m) := by
  rw [walk, if_neg (by omega), walkFrom_eq h]
  rfl

lemma translate_of_zero {k : Nat} (h : t.val sv39 k = 0) : translate t k = none := by
  rw [translate, h, if_neg (by decide)]

/-- A page table with its tables distinct is a map from virtual pages to physical pages and
flags. Different pages have different slots; `walk` keeps the map, with and without memory;
`mappages` sets its range and nothing else; `uvmunmap` clears its range and nothing else;
`walkaddr` finds the user pages. The kernel panics only where the range is not free, not
mapped, or not below `MAXVA`. -/
theorem page_table_is_map (h : Tree K L m root t) :
    (∀ va vb, va < maxVa → vb < maxVa → va / pgSize ≠ vb / pgSize →
      (∃ level ≤ 2, px level va ≠ px level vb) ∧ ∀ sa sb, walk root va false m = .ok (some sa, m) →
        walk root vb false m = .ok (some sb, m) → sa ≠ sb) ∧
    (∀ va alloc, va < maxVa → (walk root va alloc).Sat m (fun _ => False) fun r m' =>
      ∃ t' : Radix Nat 2,
      Tree K L m' root t' ∧ Keeps L m m' ∧ (∀ k, translate t' k = translate t k) ∧
      ∀ s, r = some s → walk root va false m' = .ok (some s, m') ∧
      m'.pte s.1 s.2 = t.val sv39 (va / pgSize)) ∧
    (∀ va size pa perm, va < 2 ^ 64 → pa < 2 ^ 64 → perm < 1024 → (mappages root va size pa perm).Sat m
      (fun _ => size = 0 ∨ lastVpn va size < va / pgSize ∨ 2 ^ 26 ≤ lastVpn va size ∨
        ∃ k, va / pgSize ≤ k ∧ k ≤ lastVpn va size ∧ has (t.val sv39 k) pteV = true)
      fun e m' => ∃ t' : Radix Nat 2, Tree K L m' root t' ∧ Keeps L m m' ∧ (e = 0 ∨ e = -1) ∧
        (e = 0 → ∀ k, k < 2 ^ 27 → translate t' k = if va / pgSize ≤ k ∧ k ≤ lastVpn va size then
          some (pgRoundDown (u64 (pa + (k - va / pgSize) * pgSize)), perm ||| pteV)
            else translate t k)) ∧
    (∀ va npages doFree L', L = freed doFree t (va / pgSize) (unmapCount va npages) ++ L' →
      (va + npages * pgSize < 2 ^ 64 → unmapCount va npages = npages) ∧
      (uvmunmap K root va npages doFree).Sat m
        (fun _ => va % pgSize ≠ 0 ∨ ∃ k, va / pgSize ≤ k ∧ k < va / pgSize + unmapCount va npages ∧
          (2 ^ 26 ≤ k ∨ isPage (t.val sv39 k) = false))
        fun _ m' => ∃ t' : Radix Nat 2, Tree K L' m' root t' ∧ Keeps L' m m' ∧ ∀ k, k < 2 ^ 27 →
        translate t' k = if va / pgSize ≤ k ∧ k < va / pgSize + unmapCount va npages then
        none else translate t k) ∧
    ∀ va, walkaddr root va m = .ok (if userPage t (va / pgSize) then physPage t (va / pgSize)
      else 0, m) := by
  refine ⟨fun va vb hva hvb hne => ⟨?_, fun sa sb ha hb he => ?_⟩, fun va alloc hva => ?_,
    fun va size pa perm hva hpa hperm => ?_, fun va npages doFree L' hL => ⟨unmapCount_eq, ?_⟩,
    fun va => walkaddr_eq h.walkable⟩
  · by_contra hall
    push Not at hall
    exact hne (px_inj hva hvb hall)
  · have ha' := vpn_lt hva
    have hb' := vpn_lt hvb
    rw [walk_eq h.walkable hva] at ha
    rw [walk_eq h.walkable hvb] at hb
    simp only [Except.ok.injEq, Prod.mk.injEq, Option.map_eq_some_iff, and_true] at ha hb
    obtain ⟨p, hta, rfl⟩ := ha
    obtain ⟨q, htb, rfl⟩ := hb
    obtain ⟨rfl, hd⟩ := Prod.mk.inj he
    exact hne (h.slot_inj (by omega) (by omega) hta htb hd)
  · refine (walk_sat h hva).imp ?_
    rintro r m' ⟨t', hw⟩
    refine ⟨t', hw.toTree, hw.keeps, fun k => translate_congr (hw.val k), ?_⟩
    rintro ⟨table, i⟩ rfl
    obtain ⟨htab, hi⟩ := hw.place _ rfl
    simp only at htab hi
    subst hi
    refine ⟨?_, ?_⟩
    · rw [walk_eq hw.toTree.walkable hva]
      exact congrArg (fun o => Except.ok (Option.map _ o, m')) htab
    · rw [hw.toTree.pte_eq htab, hw.val]
      rfl
  · refine (mappages_range h hva hpa hperm).imp ?_
    rintro e m' ⟨n, t', h', hres⟩
    refine ⟨t', h'.toTree, h'.keeps, by omega, fun he k hk => ?_⟩
    have hn : va / pgSize + n = lastVpn va size + 1 := by omega
    have hval := h'.val k hk
    by_cases hin : va / pgSize ≤ k ∧ k ≤ lastVpn va size
    · rw [if_pos (by omega)] at hval
      rw [if_pos hin, translate_rangePte hperm hval]
    · rw [if_neg (by omega)] at hval
      rw [if_neg hin, translate_congr hval]
  · subst hL
    refine (uvmunmap_range h).imp ?_
    rintro _ m' ⟨t', h', hk, hval⟩
    refine ⟨t', h', hk, fun k hlt => ?_⟩
    have hv := hval k hlt
    split_ifs at hv ⊢
    · exact translate_of_zero hv
    · exact translate_congr hv

theorem page_table_is_map_first : ∃ (L : List Nat) (m : Mem) (root : Nat) (t : Radix Nat 2),
    Tree smallKernel L m root t ∧ physPage t 0 ≠ 0 ∧ walkaddr root 0 m = .ok (physPage t 0, m) := by
  obtain ⟨m, root, t, hs⟩ := exists_space
  have hz : (0 : Nat) / pgSize = 0 := Nat.zero_div _
  have hu : userPage t 0 = true := hs.userAt (a := 0) (by omega) (by omega)
  have htree : Tree smallKernel _ m root t := ⟨hs.root, hs.rep, hs.acct⟩
  refine ⟨_, m, root, t, htree, hs.userTable.pos 0 hu, ?_⟩
  have hw := (page_table_is_map htree).2.2.2.2 0
  rwa [hz, hu] at hw

end

end Xv6
