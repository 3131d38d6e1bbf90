import Xv6.UserMem

/-! The address space of a process: the trampoline, the trapframe and `n` user pages
from address 0 on, of which at most one is a stack guard. -/

namespace Xv6

open Kern List

lemma has_or (a b f : Nat) : has (a ||| b) f = (has a f || has b f) := by
  have h : (a ||| b) &&& f = (a &&& f) ||| (b &&& f) := Nat.and_or_distrib_right ..
  unfold has
  rw [h, Bool.eq_iff_iff]
  simp only [bne_iff_ne, Bool.or_eq_true, ne_eq, Nat.or_eq_zero_iff]
  tauto

section

variable {q f b : Nat}

/-- The entry that `mappages` writes. -/
def leafPte (q f : Nat) : Nat := pa2Pte q ||| f ||| pteV

lemma leafPte_eq (hf : f < 1024) : leafPte q f = q / 4096 * 1024 + (f ||| pteV) := by
  rw [leafPte, Nat.or_assoc, pa2Pte_or (Nat.or_lt_two_pow (n := 10) hf (by decide))]

lemma pteFlags_leafPte (hf : f < 1024) : pteFlags (leafPte q f) = f ||| pteV := by
  have hlt : f ||| pteV < 1024 := Nat.or_lt_two_pow (n := 10) hf (by decide)
  rw [pteFlags_eq, leafPte_eq hf]
  omega

lemma has_leafPte (hf : f < 1024) (hb : b < 1024) : has (leafPte q f) b = (has f b || has pteV b) := by
  rw [has_low hb, ← pteFlags_eq, pteFlags_leafPte hf, has_or]

lemma pte2Pa_leafPte (hq : q % pgSize = 0) (hf : f < 1024) : pte2Pa (leafPte q f) = q := by
  rw [leafPte, Nat.or_assoc]
  exact pte2Pa_leaf hq (Nat.or_lt_two_pow (n := 10) hf (by decide))

lemma isLeaf_leafPte (hf : f < 1024) (hr : has f pteR = true) : IsLeaf (leafPte q f) := by
  refine ⟨?_, ?_⟩
  · rw [has_leafPte hf (by decide)]
    simp [has, pteV]
  · rw [has_leafPte hf (by decide), hr]
    rfl

end

def trampolineVpn : Nat := 2 ^ 26 - 1

def trapframeVpn : Nat := 2 ^ 26 - 2

structure Space (K : KernelImage) (L : List Nat) (m : Mem) (root tf n g : Nat)
    (t : Radix Nat 2) : Prop extends Tree K (users t 0 n ++ L) m root t where
  tramp : t.val sv39 trampolineVpn = leafPte K.trampoline (pteR ||| pteX)
  frame : t.val sv39 trapframeVpn = leafPte tf (pteR ||| pteW)
  user : ∀ v < n, IsLeaf (t.val sv39 v) ∧ (v ≠ g → has (t.val sv39 v) pteU = true)
  unused : ∀ k, k < 2 ^ 27 → n ≤ k → k ≠ trampolineVpn → k ≠ trapframeVpn → t.val sv39 k = 0

def SameBelow (k : Nat) (t : Radix Nat 2) (m : Mem) (t' : Radix Nat 2) (m' : Mem) : Prop :=
  ∀ v < k, t'.val sv39 v = t.val sv39 v ∧ m'.page (physPage t v) = m.page (physPage t v)

def ZeroPage (xperm : Nat) (t : Radix Nat 2) (m : Mem) (v : Nat) : Prop :=
  pteFlags (t.val sv39 v) = pteR ||| pteU ||| xperm ||| pteV ∧ m.page (physPage t v) = Bytes.fill 4096 0

section

variable {k k' : Nat} {t t1 t2 : Radix Nat 2} {m m1 m2 : Mem}

lemma SameBelow.refl (k : Nat) (t : Radix Nat 2) (m : Mem) : SameBelow k t m t m :=
  fun _ _ => ⟨rfl, rfl⟩

variable (h : SameBelow k t m t1 m1)
include h

lemma SameBelow.phys {v : Nat} (hv : v < k) : physPage t1 v = physPage t v := by
  rw [physPage, physPage, (h v hv).1]

lemma SameBelow.trans (h' : SameBelow k t1 m1 t2 m2) : SameBelow k t m t2 m2 := by
  intro v hv
  obtain ⟨hval, hpage⟩ := h' v hv
  rw [h.phys hv] at hpage
  exact ⟨hval.trans (h v hv).1, hpage.trans (h v hv).2⟩

lemma SameBelow.mono (hk : k' ≤ k) : SameBelow k' t m t1 m1 :=
  fun v hv => h v (hv.trans_le hk)

lemma SameBelow.zeroPage {xperm v : Nat} (hv : v < k) (hz : ZeroPage xperm t m v) :
    ZeroPage xperm t1 m1 v := by
  rw [ZeroPage, h.phys hv, (h v hv).1, (h v hv).2]
  exact hz

omit h

lemma mem_users {v : Nat} (hv : v < k) : pte2Pa (t.val sv39 v) ∈ users t 0 k :=
  mem_map.mpr ⟨v, mem_range'_1.mpr ⟨Nat.zero_le v, by omega⟩, rfl⟩

lemma Keeps.sameBelow (hk : Keeps (users t 0 k) m m1)
    (hval : ∀ v < k, t1.val sv39 v = t.val sv39 v) : SameBelow k t m t1 m1 :=
  fun v hv => ⟨hval v hv, hk _ (mem_users hv)⟩

end

section

variable {K : KernelImage} {L : List Nat} {m m' : Mem} {root tf n g q : Nat} {t t' : Radix Nat 2}
  {E : String → Prop}

lemma Space.n_le (h : Space K L m root tf n g t) : n ≤ 32768 := by
  have hlen := h.acct.length_le
  simp only [length_append, users, length_map, length_range'] at hlen
  omega

variable {L' L2 : List Nat} {f n' sz oldsz newsz n₀ xperm k old v dstva : Nat} {m1 m2 m0 : Mem}
  {t2 tp : Radix Nat 2} {src : List UInt8}

variable (h : Space K L m root tf n g t)
include h

lemma Space.congr (hk : Keeps (t.pages sv39) m m')
    (ha : Acct K m' (t.pages sv39 ++ (users t 0 n ++ L'))) : Space K L' m' root tf n g t :=
  { h.toTree.congr hk ha, h with }

lemma Space.perm (hp : L.Perm L') : Space K L' m root tf n g t :=
  h.congr (Keeps.refl _ _) (h.acct.perm ((hp.append_left _).append_left _))

lemma Space.not_mem_pages (hq : q ∈ users t 0 n ++ L) : q ∉ t.pages sv39 :=
  fun hp => (nodup_append.mp h.acct.nodup).2.2 q hp q hq rfl

lemma Space.setPage (hq : q ∈ users t 0 n ++ L) (b : Bytes 4096) :
    Space K L (m.setPage q b) root tf n g t :=
  h.congr (keeps_setPage (h.not_mem_pages hq) b) (h.acct.setPage q b)

lemma Space.kalloc_sat :
    kalloc.Sat m E fun r m' => Space K (r.toList ++ L) m' root tf n g t ∧
    Keeps (users t 0 n ++ L) m m' ∧ ∀ k, Grants m (k + 1) → r ≠ none ∧ Grants m' k := by
  refine (Xv6.kalloc_sat h.acct).imp ?_
  rintro r m' ⟨ha, hk, hg⟩
  refine ⟨h.congr (hk.mono (subset_append_left _ _)) (ha.perm ?_),
    hk.mono (subset_append_right _ _), hg⟩
  refine (perm_append_comm_assoc _ _ _).trans (List.Perm.append_left _ ?_)
  exact perm_append_comm_assoc _ _ _

omit h

lemma Space.kfree_sat (h : Space K (q :: L) m root tf n g t) :
    (kfree K q).Sat m E fun _ m' => Space K L m' root tf n g t ∧ Keeps (users t 0 n ++ L) m m' := by
  have hperm :
    (t.pages sv39 ++ (users t 0 n ++ q :: L)).Perm (q :: (t.pages sv39 ++ (users t 0 n ++ L))) :=
    (List.Perm.append_left _ perm_middle).trans perm_middle
  refine (Xv6.kfree_sat (h.acct.perm hperm)).imp ?_
  rintro _ m' ⟨ha, hk⟩
  exact ⟨h.congr (hk.mono (subset_append_left _ _)) ha, hk.mono (subset_append_right _ _)⟩

lemma Space.grow {e : Int} (h : Space K (q :: L) m root tf n g t) (hf : f < 1024)
    (hr : has f pteR = true) (hu : n ≠ g → has f pteU = true) (he : e = 0)
    (hm : Mapped1 K (users t 0 n ++ q :: L) m n (leafPte q f) root t e m' t') :
    Space K L m' root tf (n + 1) g t' := by
  obtain ⟨-, hval⟩ := hm.mapped he
  have hn := h.n_le
  have hq := mem_pool (h.acct.mem_pool (q := q) (by simp))
  have hnew : t'.val sv39 n = leafPte q f := by
    rw [hval n (by omega), if_pos rfl]
  have hold : ∀ k, k < 2 ^ 27 → k ≠ n → t'.val sv39 k = t.val sv39 k := by
    intro k hk hkn
    rw [hval k hk, if_neg hkn]
  have husers : users t' 0 (n + 1) = users t 0 n ++ [q] := by
    rw [users_add, users_congr fun k _ hk => hold k (by omega) (by omega)]
    simp [users, hnew, pte2Pa_leafPte hq.1 hf]
  refine { hm.toTree with acct := ?_, tramp := ?_, frame := ?_, user := ?_, unused := ?_ }
  · rw [husers, append_assoc (users t 0 n)]
    exact hm.acct
  · rw [hold _ (by decide) (by unfold trampolineVpn; omega), h.tramp]
  · rw [hold _ (by decide) (by unfold trapframeVpn; omega), h.frame]
  · intro v hv
    by_cases hvn : v = n
    · subst hvn
      rw [hnew]
      refine ⟨isLeaf_leafPte hf hr, fun hg => ?_⟩
      rw [has_leafPte hf (by decide), hu hg]
      rfl
    · rw [hold v (by omega) hvn]
      exact h.user v (by omega)
  · intro k hk hnk h1 h2
    rw [hold k hk (by omega)]
    exact h.unused k hk (by omega) h1 h2

lemma Space.shrink_sat (h : Space K L m root tf n g t) (hn' : n' ≤ n) :
    (uvmunmap K root (n' * pgSize) (n - n') true).Sat m E fun _ m' =>
      ∃ t', Space K L m' root tf n' g t' ∧ Keeps L m m' ∧ SameBelow n' t m t' m' := by
  have hn := h.n_le
  have hsplit : users t 0 n = users t 0 n' ++ users t n' (n - n') := by
    have hadd := users_add t 0 n' (n - n')
    rwa [Nat.add_sub_cancel' hn', Nat.zero_add] at hadd
  have htree : Tree K (unmapped true t n' (n - n') ++ (users t 0 n' ++ L)) m root t := by
    refine ⟨h.root, h.rep, h.acct.perm (List.Perm.append_left _ ?_)⟩
    rw [hsplit, ← append_assoc]
    exact perm_append_comm.append_right L
  refine (uvmunmap_sat true htree (by omega) fun k _ hk => (h.user k (by omega)).1).imp ?_
  rintro _ m' ⟨t', ht', hkeep, hval⟩
  have hold : ∀ k, k < 2 ^ 27 → ¬ (n' ≤ k ∧ k < n) → t'.val sv39 k = t.val sv39 k := by
    intro k hk hkn
    rw [hval k hk, if_neg (by omega)]
  have husers : users t' 0 n' = users t 0 n' := users_congr fun k _ hk => hold k (by omega) (by omega)
  refine ⟨t', { ht' with acct := ?_, tramp := ?_, frame := ?_, user := ?_, unused := ?_ },
    hkeep.mono (subset_append_right _ _), (hkeep.mono (subset_append_left _ _)).sameBelow
      fun v hv => hold v (by omega) (by omega)⟩
  · rw [husers]
    exact ht'.acct
  · rw [hold _ (by decide) (by unfold trampolineVpn; omega), h.tramp]
  · rw [hold _ (by decide) (by unfold trapframeVpn; omega), h.frame]
  · intro v hv
    rw [hold v (by omega) (by omega)]
    exact h.user v (by omega)
  · intro k hk hnk h1 h2
    by_cases hkn : k < n
    · rw [hval k hk, if_pos (by omega)]
    · rw [hold k hk (by omega)]
      exact h.unused k hk (by omega) h1 h2

lemma npages_vpn (v : Nat) : npages (v * pgSize) = v := by
  unfold npages pgSize
  omega

lemma sz_lt_of_npages (h : npages sz ≤ 32768) : sz ≤ 32768 * pgSize := by
  unfold npages pgSize at *
  omega

lemma Space.pgRoundUp_eq (h : Space K L m root tf (npages sz) g t) :
    pgRoundUp sz = npages sz * pgSize := by
  have hsz := sz_lt_of_npages h.n_le
  refine Xv6.pgRoundUp_eq ?_
  unfold pgSize at hsz
  omega

lemma uvmdealloc_sat (h : Space K L m root tf (npages oldsz) g t) :
    (uvmdealloc K root oldsz newsz).Sat m E fun r m' =>
      r = min oldsz newsz ∧ ∃ t', Space K L m' root tf (npages r) g t' ∧ Keeps L m m' ∧
        SameBelow (npages r) t m t' m' := by
  have hn := h.n_le
  unfold uvmdealloc
  by_cases hle : oldsz ≤ newsz
  · rw [if_pos hle]
    exact sat_pure.mpr ⟨(Nat.min_eq_left hle).symm, t, h, Keeps.refl _ _, SameBelow.refl _ _ _⟩
  have hmin : newsz = min oldsz newsz := (Nat.min_eq_right (by omega)).symm
  have hle' : npages newsz ≤ npages oldsz := Nat.div_le_div_right (by omega)
  have hsz := sz_lt_of_npages h.n_le
  have hnew : pgRoundUp newsz = npages newsz * pgSize := by
    refine Xv6.pgRoundUp_eq ?_
    unfold pgSize at hsz
    omega
  rw [if_neg hle, h.pgRoundUp_eq, hnew]
  by_cases hlt : npages newsz * pgSize < npages oldsz * pgSize
  · have hcount :
      (npages oldsz * pgSize - npages newsz * pgSize) / pgSize = npages oldsz - npages newsz := by
      rw [← Nat.sub_mul]
      exact Nat.mul_div_cancel _ (by decide)
    rw [if_pos hlt, hcount]
    exact (h.shrink_sat hle').bind fun _ m' hm' => sat_pure.mpr ⟨hmin, hm'⟩
  · have heq : npages newsz = npages oldsz := by
      unfold pgSize at hlt
      omega
    rw [if_neg hlt]
    exact sat_pure.mpr ⟨hmin, t, heq ▸ h, Keeps.refl _ _, SameBelow.refl _ _ _⟩

lemma Space.mappages_sat (h : Space K (q :: L) m root tf n g t) (hf : f < 1024)
    (hr : has f pteR = true) (hu : n ≠ g → has f pteU = true) :
    (mappages root (n * pgSize) pgSize q f).Sat m E fun e m' => ∃ t',
    Keeps (users t 0 n ++ q :: L) m m' ∧ SameBelow n t m t' m' ∧
      (e = 0 → Space K L m' root tf (n + 1) g t' ∧ physPage t' n = q ∧
        pteFlags (t'.val sv39 n) = f ||| pteV) ∧
      (e ≠ 0 → Space K (q :: L) m' root tf n g t') ∧
      ∀ k, Grants m (k + t.missing sv39 n) → e = 0 ∧ Grants m' k := by
  have hn := h.n_le
  have hq := mem_pool (h.acct.mem_pool (q := q) (by simp))
  have h0 : t.val sv39 n = 0 :=
    h.unused n (by omega) le_rfl (by unfold trampolineVpn; omega) (by unfold trapframeVpn; omega)
  refine (Xv6.mappages_sat h.toTree (by omega) h0 hq.2.2 hf).imp ?_
  rintro e m' ⟨t', hm⟩
  refine ⟨t', hm.keeps, (hm.keeps.mono (subset_append_left _ _)).sameBelow fun v hv => ?_,
    fun he => ⟨h.grow hf hr hu he hm, ?_, ?_⟩, fun he => ?_, hm.grants⟩
  · by_cases he : e = 0
    · rw [(hm.mapped he).2 v (by omega), if_neg (by omega)]
    · exact (hm.failed he).2 v
  · rw [physPage, (hm.mapped he).2 n (by omega), if_pos rfl]
    exact pte2Pa_leafPte hq.1 hf
  · rw [(hm.mapped he).2 n (by omega), if_pos rfl]
    exact pteFlags_leafPte hf
  · obtain ⟨-, hval⟩ := hm.failed he
    have husers : users t' 0 n = users t 0 n := users_congr fun k _ _ => hval k
    refine { hm.toTree with acct := ?_, tramp := ?_, frame := ?_, user := ?_, unused := ?_ }
    · rw [husers]
      exact hm.acct
    · rw [hval, h.tramp]
    · rw [hval, h.frame]
    · intro v hv
      rw [hval]
      exact h.user v hv
    · intro k hk hnk h1 h2
      rw [hval]
      exact h.unused k hk hnk h1 h2

lemma uvmdealloc_vpn_sat (h : Space K L m root tf n g t) (hn' : n' ≤ n) :
    (uvmdealloc K root (n * pgSize) (n' * pgSize)).Sat m E fun _ m' =>
      ∃ t', Space K L m' root tf n' g t' ∧ Keeps L m m' ∧ SameBelow n' t m t' m' := by
  have hmin : min (n * pgSize) (n' * pgSize) = n' * pgSize :=
    Nat.min_eq_right (Nat.mul_le_mul_right _ hn')
  rw [← npages_vpn n] at h
  refine (uvmdealloc_sat h).imp ?_
  rintro r m' ⟨rfl, hm'⟩
  rwa [hmin, npages_vpn] at hm'

lemma Space.head_not_mem (h : Space K (q :: L) m root tf n g t) : q ∉ L := by
  have hnd := (nodup_append.mp (nodup_append.mp h.acct.nodup).2.1).2.1
  exact (nodup_cons.mp hnd).1

lemma Space.keeps_head (h : Space K (q :: L) m root tf n g t) (b : Bytes 4096) :
    Keeps (users t 0 n ++ L) m (m.setPage q b) := by
  refine keeps_setPage (fun hq => ?_) b
  rcases mem_append.mp hq with hu | hL
  · have hnd := (nodup_append.mp h.acct.nodup).2.1
    exact (nodup_append.mp hnd).2.2 q hu q (mem_cons_self ..) rfl
  · exact h.head_not_mem hL

/-- What a round of `uvmalloc` at page `n` has done; `n₀` is where the call started. -/
structure PageAdded (K : KernelImage) (L : List Nat) (m : Mem) (root tf g n₀ n xperm : Nat)
    (t : Radix Nat 2) (ok : Bool) (m' : Mem) (t' : Radix Nat 2) : Prop where
  space : Space K L m' root tf (if ok then n + 1 else n₀) g t'
  keeps : Keeps L m m'
  same : SameBelow (if ok then n else n₀) t m t' m'
  zero : ok = true → ZeroPage xperm t' m' n
  grants : ∀ k, Grants m (k + 3) → ok = true ∧ Grants m' k

lemma uvmallocPage_sat (h : Space K L m root tf n g t) (hn0 : n₀ ≤ n) (hx : xperm < 1024) :
    (uvmallocPage K root (n₀ * pgSize) xperm (n * pgSize)).Sat m E fun ok m' =>
      ∃ t', PageAdded K L m root tf g n₀ n xperm t ok m' t' := by
  have hf : pteR ||| pteU ||| xperm < 1024 := Nat.or_lt_two_pow (n := 10) (by decide) hx
  have hr : has (pteR ||| pteU ||| xperm) pteR = true := by
    rw [has_or]
    rfl
  have hu : n ≠ g → has (pteR ||| pteU ||| xperm) pteU = true := by
    intro _
    rw [has_or]
    rfl
  -- Both failures undo the pages from `n₀` on.
  have hundo : ∀ {m1 t1}, Space K L m1 root tf n g t1 → Keeps L m m1 → SameBelow n t m t1 m1 →
      (∀ k, ¬ Grants m (k + 3)) →
      (do let _ ← uvmdealloc K root (n * pgSize) (n₀ * pgSize); pure false : Kern Mem Bool).Sat m1 E
        fun ok m' => ∃ t', PageAdded K L m root tf g n₀ n xperm t ok m' t' := by
    intro m1 t1 h₁ hk1 hs1 hno
    refine (uvmdealloc_vpn_sat h₁ hn0).bind ?_
    rintro _ m2 ⟨t2, h₂, hk2, hs2⟩
    exact sat_pure.mpr ⟨t2, h₂, hk1.trans hk2, (hs1.mono hn0).trans hs2, nofun, fun k hg =>
      absurd hg (hno k)⟩
  unfold uvmallocPage
  refine h.kalloc_sat.bind ?_
  rintro r m1 ⟨h₁, hk1, hg1⟩
  have hs1 : SameBelow n t m t m1 := (hk1.mono (subset_append_left _ _)).sameBelow fun _ _ => rfl
  cases r with
  | none =>
    exact hundo h₁ (hk1.mono (subset_append_right _ _)) hs1 fun k hg => absurd rfl (hg1 (k + 2) hg).1
  | some q =>
    have h₂ := h₁.setPage (q := q) (by simp) (Bytes.fill 4096 0)
    have hk2 := hk1.trans (h₁.keeps_head (Bytes.fill 4096 0))
    have hs2 : SameBelow n t m t _ := (hk2.mono (subset_append_left _ _)).sameBelow fun _ _ => rfl
    rw [sat_bind, sat_memset]
    refine (h₂.mappages_sat hf hr hu).bind ?_
    rintro e m3 ⟨t3, hk3, hs3, hok, hfail, hg3⟩
    have hmiss := Radix.missing_le (F := sv39) h.root n
    have hgrant : ∀ k, Grants m (k + 3) → e = 0 ∧ Grants m3 k := by
      intro k hg
      have hg2 : Grants (m1.setPage q (Bytes.fill 4096 0)) (k + 2) := (hg1 (k + 2) hg).2
      exact hg3 k (hg2.le (by omega))
    have hkL : Keeps L m m3 := (hk2.mono (subset_append_right _ _)).trans
      (hk3.mono fun p hp => mem_append_right _ (mem_cons_of_mem _ hp))
    by_cases he : e = 0
    · obtain ⟨h3, hq, hflags⟩ := hok he
      have hpage : m3.page q = Bytes.fill 4096 0 := by
        rw [hk3 q (by simp), Mem.page_setPage_self]
      simp only [he, ne_eq, not_true_eq_false, if_false]
      refine sat_pure.mpr ⟨t3, h3, hkL, hs2.trans hs3, fun _ => ⟨hflags, ?_⟩, fun k hg =>
        ⟨rfl, (hgrant k hg).2⟩⟩
      rw [hq, hpage]
    · simp only [he, ne_eq, not_false_eq_true, if_true]
      refine (hfail he).kfree_sat.bind ?_
      rintro _ m4 ⟨h4, hk4⟩
      have hs4 : SameBelow n t3 m3 t3 m4 := (hk4.mono (subset_append_left _ _)).sameBelow fun _ _ => rfl
      refine hundo h4 (hkL.trans (hk4.mono (subset_append_right _ _))) ((hs2.trans hs3).trans hs4) ?_
      exact fun k hg => he (hgrant k hg).1

lemma untilFalse_sat {round : Nat → Kern Mem Bool} {P : Nat → Mem → Prop} {R : Mem → Prop} (c : Nat)
    (hround : ∀ i m, k ≤ i → i < k + c → P i m →
      (round (i * pgSize)).Sat m E fun ok m' => if ok then P (i + 1) m' else R m') (h : P k m) :
    (untilFalse round ((List.range' k c).map fun i => i * pgSize)).Sat m E fun ok m' =>
      if ok then P (k + c) m' else R m' := by
  induction c generalizing k m with
  | zero => exact sat_pure.mpr h
  | succ c ih =>
    rw [List.range'_succ, map_cons]
    unfold untilFalse
    refine (hround k m le_rfl (by omega) h).bind fun ok m' hm' => ?_
    cases ok with
    | false => exact sat_pure.mpr hm'
    | true =>
      have hcount : k + (c + 1) = k + 1 + c := by omega
      rw [hcount]
      exact ih (fun i m hlo hhi => hround i m (by omega) (by omega)) hm'

lemma pagesFrom_sz (n sz : Nat) :
    pagesFrom (n * pgSize) sz = (List.range' n (npages sz - n)).map fun k => k * pgSize := by
  have hlen : (sz - n * pgSize + (pgSize - 1)) / pgSize = npages sz - n := by
    unfold npages pgSize
    omega
  rw [pagesFrom, hlen, List.range'_eq_map_range, map_map]
  refine map_congr_left fun i _ => ?_
  simp [Nat.add_mul]

structure Grown (K : KernelImage) (L : List Nat) (m : Mem) (root tf g oldsz newsz xperm : Nat)
    (t : Radix Nat 2) (r : Nat) (m' : Mem) (sz : Nat) (t' : Radix Nat 2) : Prop where
  space : Space K L m' root tf (npages sz) g t'
  keeps : Keeps L m m'
  failed : r = 0 → sz = oldsz
  grown : r ≠ 0 → sz = r ∧ r = max oldsz newsz
  same : SameBelow (npages oldsz) t m t' m'
  zero : ∀ v, npages oldsz ≤ v → v < npages sz → ZeroPage xperm t' m' v
  grants : ∀ k, Grants m (k + 3 * (npages newsz - npages oldsz)) → r = max oldsz newsz ∧ Grants m' k

/-- The loop of `uvmalloc` has reached page `k`. -/
structure Growing (K : KernelImage) (L : List Nat) (m : Mem) (root tf g n₀ xperm : Nat)
    (t : Radix Nat 2) (k : Nat) (m' : Mem) (t' : Radix Nat 2) : Prop where
  space : Space K L m' root tf k g t'
  keeps : Keeps L m m'
  same : SameBelow n₀ t m t' m'
  zero : ∀ v, n₀ ≤ v → v < k → ZeroPage xperm t' m' v

lemma Growing.round {t1 : Radix Nat 2} {ok : Bool} (hk : n₀ ≤ k)
    (h : Growing K L m root tf g n₀ xperm t k m1 t1)
    (ha : PageAdded K L m1 root tf g n₀ k xperm t1 ok m2 t2) :
    Growing K L m root tf g n₀ xperm t (if ok then k + 1 else n₀) m2 t2 := by
  have hsame := ha.same
  refine ⟨ha.space, h.keeps.trans ha.keeps, ?_, fun v hlo hhi => ?_⟩
  · cases ok with
    | true => exact h.same.trans (hsame.mono hk)
    | false => exact h.same.trans hsame
  · cases ok with
    | false =>
      simp only [Bool.false_eq_true, if_false] at hhi
      omega
    | true =>
      simp only [if_true] at hhi hsame
      by_cases hvk : v = k
      · exact hvk ▸ ha.zero rfl
      · exact hsame.zeroPage (by omega) (h.zero v hlo (by omega))

lemma uvmalloc_sat (h : Space K L m root tf (npages oldsz) g t) (hx : xperm < 1024) :
    (uvmalloc K root oldsz newsz xperm).Sat m E fun r m' =>
      ∃ sz t', Grown K L m root tf g oldsz newsz xperm t r m' sz t' := by
  unfold uvmalloc
  by_cases hlt : newsz < oldsz
  · rw [if_pos hlt]
    refine sat_pure.mpr ⟨oldsz, t, h, Keeps.refl _ _, fun _ => rfl, fun _ => ⟨rfl, by omega⟩,
      SameBelow.refl _ _ _, fun v hlo hhi => by omega, fun k hg => ⟨by omega, hg.le (by omega)⟩⟩
  have hle : npages oldsz ≤ npages newsz := Nat.div_le_div_right (by omega)
  rw [if_neg hlt, h.pgRoundUp_eq, pagesFrom_sz]
  -- Every round asks for three pages at most.
  refine Sat.bind (untilFalse_sat
    (P := fun k m' => ∃ t', Growing K L m root tf g (npages oldsz) xperm t k m' t' ∧
      ∀ j, Grants m (j + 3 * (npages newsz - npages oldsz)) → Grants m' (j + 3 * (npages newsz - k)))
    (R := fun m' => (∃ t', Growing K L m root tf g (npages oldsz) xperm t (npages oldsz) m' t') ∧
      ∀ j, ¬ Grants m (j + 3 * (npages newsz - npages oldsz)))
    (npages newsz - npages oldsz) ?_ ⟨t,
      ⟨h, Keeps.refl _ _, SameBelow.refl _ _ _, fun v hlo hhi => by omega⟩, fun _ hg => hg⟩) ?_
  · rintro k m1 hk hlast ⟨t1, h₁, hg1⟩
    refine (uvmallocPage_sat h₁.space hk hx).imp ?_
    rintro ok m2 ⟨t2, h₂⟩
    have hnext := h₁.round hk h₂
    have hcount : ∀ j, Grants m (j + 3 * (npages newsz - npages oldsz)) → ok = true ∧
      Grants m2 (j + 3 * (npages newsz - (k + 1))) := by
      intro j hg
      have hrest : j + 3 * (npages newsz - k) = j + 3 * (npages newsz - (k + 1)) + 3 := by omega
      have hg' := hg1 j hg
      rw [hrest] at hg'
      exact h₂.grants _ hg'
    cases ok with
    | true => exact ⟨t2, hnext, fun j hg => (hcount j hg).2⟩
    | false => exact ⟨⟨t2, hnext⟩, fun j hg => Bool.false_ne_true (hcount j hg).1⟩
  · intro ok m1 hm1
    cases ok with
    | true =>
      obtain ⟨t1, h₁, hg1⟩ := hm1
      rw [Nat.add_sub_cancel' hle] at h₁ hg1
      refine sat_pure.mpr ⟨newsz, t1, h₁.space, h₁.keeps, fun _ => by omega,
        fun _ => ⟨rfl, by omega⟩, h₁.same, h₁.zero, ?_⟩
      exact fun k hg => ⟨by omega, (hg1 k hg).le (by omega)⟩
    | false =>
      obtain ⟨⟨t1, h₁⟩, hg1⟩ := hm1
      exact sat_pure.mpr ⟨oldsz, t1, h₁.space, h₁.keeps, fun _ => rfl, fun h0 => absurd rfl h0,
        h₁.same, h₁.zero, fun k hg => absurd hg (hg1 k)⟩

lemma Space.otherTree
    (h : Space K (tp.pages sv39 ++ L2) m root tf n g t) (hroot : tp.root = some old)
    (hrep : Radix.Rep sv39 m0.pte tp) (hk : Keeps (tp.pages sv39) m0 m) :
    Tree K (t.pages sv39 ++ (users t 0 n ++ L2)) m old tp := by
  refine ⟨hroot, hrep.congr fun q hq => hk.pte hq, h.acct.perm ?_⟩
  refine (List.Perm.append_left _ (perm_append_comm_assoc _ _ _)).trans ?_
  exact perm_append_comm_assoc _ _ _

lemma Space.parent {tfp g' : Nat} (hp : Space K L m old tfp n g tp)
    (h : Space K (tp.pages sv39 ++ (users tp 0 n ++ L2)) m' root tf n' g' t)
    (hk : Keeps (tp.pages sv39) m m') :
    Space K (t.pages sv39 ++ (users t 0 n' ++ L2)) m' old tfp n g tp := by
  have htree := h.otherTree hp.root hp.rep hk
  refine { htree with
    acct := ?_, tramp := hp.tramp, frame := hp.frame, user := hp.user, unused := hp.unused }
  refine htree.acct.perm (List.Perm.append_left _ ?_)
  refine (List.Perm.append_left _ (perm_append_comm_assoc _ _ _)).trans ?_
  exact perm_append_comm_assoc _ _ _

lemma uvmcopyErr_sat (h : Space K L m root tf k g t) :
    (uvmcopyErr K root (k * pgSize)).Sat m E fun ok m' =>
      ok = false ∧ ∃ t', Space K L m' root tf 0 g t' ∧ Keeps L m m' := by
  have hdiv : k * pgSize / pgSize = k := Nat.mul_div_cancel k (by decide)
  have hs := h.shrink_sat (E := E) (Nat.zero_le k)
  rw [Nat.zero_mul, Nat.sub_zero] at hs
  unfold uvmcopyErr
  rw [hdiv]
  refine hs.bind ?_
  rintro _ m' ⟨t', h', hk, -⟩
  exact sat_pure.mpr ⟨rfl, t', h', hk⟩

structure Copied (K : KernelImage) (L : List Nat) (m : Mem) (root tf g : Nat) (tp : Radix Nat 2)
    (k : Nat) (m' : Mem) (t' : Radix Nat 2) : Prop where
  space : Space K L m' root tf k g t'
  keeps : Keeps L m m'
  flags : ∀ v < k, pteFlags (t'.val sv39 v) = pteFlags (tp.val sv39 v)
  bytes : ∀ v < k, m'.page (physPage t' v) = m.page (physPage tp v)

lemma Copied.snoc (h : Copied K L m root tf g tp k m1 t)
    (h₂ : Space K L m2 root tf (k + 1) g t2) (hk : Keeps L m m2) (hs : SameBelow k t m1 t2 m2)
    (hf : pteFlags (t2.val sv39 k) = pteFlags (tp.val sv39 k))
    (hb : m2.page (physPage t2 k) = m.page (physPage tp k)) :
    Copied K L m root tf g tp (k + 1) m2 t2 := by
  refine ⟨h₂, hk, fun v hv => ?_, fun v hv => ?_⟩
  · by_cases hvk : v = k
    · rw [hvk, hf]
    · rw [(hs v (by omega)).1, h.flags v (by omega)]
  · by_cases hvk : v = k
    · rw [hvk, hb]
    · rw [hs.phys (by omega), (hs v (by omega)).2, h.bytes v (by omega)]

lemma or_pteV_of_has (h : has f pteV = true) : f ||| pteV = f := by
  rw [has_pteV, decide_eq_true_eq] at h
  have h0 := Nat.shiftLeft_add_eq_or_of_lt (i := 1) (b := 1) (by omega) (f / 2)
  have hd : f = (f / 2) <<< 1 ||| 1 := by
    rw [← h0, Nat.shiftLeft_eq]
    omega
  rw [hd, pteV, Nat.or_assoc, Nat.or_self]

lemma uvmcopyPage_sat (hroot : tp.root = some old)
    (hrep : Radix.Rep sv39 m0.pte tp) (hleaf : IsLeaf (tp.val sv39 k))
    (hu : k ≠ g → has (tp.val sv39 k) pteU = true) (hmem : physPage tp k ∈ L2)
    (h : Copied K (tp.pages sv39 ++ L2) m0 root tf g tp k m t) :
    (uvmcopyPage K old root (k * pgSize)).Sat m E fun ok m' =>
      if ok then ∃ t', Copied K (tp.pages sv39 ++ L2) m0 root tf g tp (k + 1) m' t'
      else ∃ t', Copied K (tp.pages sv39 ++ L2) m0 root tf g tp 0 m' t' := by
  have hs := h.space
  have hn := hs.n_le
  have ho := hs.otherTree hroot hrep (h.keeps.mono (subset_append_left _ _))
  have hf : pteFlags (tp.val sv39 k) < 1024 := by
    rw [pteFlags_eq]
    omega
  have hlow : ∀ b, b < 1024 → has (pteFlags (tp.val sv39 k)) b = has (tp.val sv39 k) b := by
    intro b hb
    rw [pteFlags_eq, ← has_low hb]
  have hR : has (pteFlags (tp.val sv39 k)) pteR = true := (hlow _ (by decide)).trans hleaf.2
  have hU : k ≠ g → has (pteFlags (tp.val sv39 k)) pteU = true :=
    fun hg => (hlow _ (by decide)).trans (hu hg)
  have hV : has (pteFlags (tp.val sv39 k)) pteV = true := (hlow _ (by decide)).trans hleaf.1
  -- After a failure nothing is left in the new table.
  have herr : ∀ {m1 t1}, Space K (tp.pages sv39 ++ L2) m1 root tf k g t1 →
    Keeps (tp.pages sv39 ++ L2) m0 m1 → (uvmcopyErr K root (k * pgSize)).Sat m1 E fun ok m' =>
        if ok then ∃ t', Copied K (tp.pages sv39 ++ L2) m0 root tf g tp (k + 1) m' t'
        else ∃ t', Copied K (tp.pages sv39 ++ L2) m0 root tf g tp 0 m' t' := by
    intro m1 t1 h₁ hk1
    refine (uvmcopyErr_sat h₁).imp ?_
    rintro ok m2 ⟨rfl, t2, h₂, hk2⟩
    exact ⟨t2, h₂, hk1.trans hk2, fun v hv => absurd hv (Nat.not_lt_zero v), fun v hv =>
      absurd hv (Nat.not_lt_zero v)⟩
  unfold uvmcopyPage
  refine (walk_found ho (vpn_lt_maxVa (by omega)) ?_).bind ?_
  · rw [vpn_div]
    exact hleaf.ne_zero
  rintro r m1 ⟨rfl, table, rfl, htab⟩
  rw [vpn_div] at *
  simp only [sat_bind, sat_readPte, ho.pte_eq htab, hleaf.1, Bool.true_eq_false, if_false]
  refine hs.kalloc_sat.imp ?_
  rintro r m1 ⟨h₁, hk1, -⟩
  have hkL1 := h.keeps.trans (hk1.mono (subset_append_right _ _))
  cases r with
  | none => exact herr h₁ hkL1
  | some q =>
    simp only [sat_bind, sat_modifyState]
    have hb : m1.page (pte2Pa (tp.val sv39 k)) = m0.page (physPage tp k) :=
      hkL1 _ (mem_append_right _ hmem)
    rw [hb]
    generalize hb0 : m0.page (physPage tp k) = b
    have h₂ := h₁.setPage (q := q) (by simp) b
    have hk2 := hk1.trans (h₁.keeps_head b)
    refine (h₂.mappages_sat hf hR hU).imp ?_
    rintro e m3 ⟨t3, hk3, hs3, hok, hfail, -⟩
    have hkL3 : Keeps (tp.pages sv39 ++ L2) m0 m3 :=
      h.keeps.trans ((hk2.mono (subset_append_right _ _)).trans
      (hk3.mono fun p hp => mem_append_right _ (mem_cons_of_mem _ hp)))
    by_cases he : e = 0
    · obtain ⟨h3, hq, hflags⟩ := hok he
      rw [or_pteV_of_has hV] at hflags
      have hs2 : SameBelow k t _ t _ := (hk2.mono (subset_append_left _ _)).sameBelow fun _ _ => rfl
      simp only [he, ne_eq, not_true_eq_false, if_false]
      refine sat_pure.mpr ⟨t3, h.snoc h3 hkL3 (hs2.trans hs3) hflags ?_⟩
      rw [hq, hk3 q (by simp), Mem.page_setPage_self, hb0]
    · simp only [he, ne_eq, not_false_eq_true, if_true]
      refine (hfail he).kfree_sat.bind ?_
      rintro _ m4 ⟨h4, hk4⟩
      exact herr h4 (hkL3.trans (hk4.mono (subset_append_right _ _)))

lemma uvmcopy_sat (hroot : tp.root = some old)
    (hrep : Radix.Rep sv39 m.pte tp)
    (huser : ∀ v < npages sz, IsLeaf (tp.val sv39 v) ∧ (v ≠ g → has (tp.val sv39 v) pteU = true))
    (hmem : ∀ v < npages sz, physPage tp v ∈ L2) (h : Space K (tp.pages sv39 ++ L2) m root tf 0 g t) :
    (uvmcopy K old root sz).Sat m E fun r m' => (r = 0 ∨ r = -1) ∧ ∃ t',
      Copied K (tp.pages sv39 ++ L2) m root tf g tp (if r = 0 then npages sz else 0) m' t' := by
  have hpages := pagesFrom_sz 0 sz
  rw [Nat.zero_mul, Nat.sub_zero] at hpages
  unfold uvmcopy
  rw [hpages]
  refine Sat.bind (untilFalse_sat
    (P := fun k m' => ∃ t', Copied K (tp.pages sv39 ++ L2) m root tf g tp k m' t')
    (R := fun m' => ∃ t', Copied K (tp.pages sv39 ++ L2) m root tf g tp 0 m' t') (npages sz) ?_ ?_) ?_
  · rintro k m1 - hk ⟨t1, h₁⟩
    obtain ⟨hleaf, hu⟩ := huser k (by omega)
    exact uvmcopyPage_sat hroot hrep hleaf hu (hmem k (by omega)) h₁
  · exact ⟨t, h, Keeps.refl _ _, fun v hv => absurd hv (Nat.not_lt_zero v), fun v hv =>
      absurd hv (Nat.not_lt_zero v)⟩
  · intro ok m1 hm1
    cases ok with
    | true =>
      rw [if_pos rfl, Nat.zero_add] at hm1
      exact sat_pure.mpr ⟨.inl rfl, hm1⟩
    | false => exact sat_pure.mpr ⟨.inr rfl, hm1⟩

lemma uvmfree_sat (sz : Nat) (h : Tree K (users t 0 (npages sz) ++ L) m root t)
    (hl : ∀ v < npages sz, IsLeaf (t.val sv39 v)) (h0 : ∀ k, k < 2 ^ 27 → npages sz ≤ k →
      t.val sv39 k = 0) :
    (uvmfree K root sz).Sat m E fun _ m' => Acct K m' L ∧ Keeps L m m' := by
  have hn : npages sz ≤ 32768 := by
    have hlen := h.acct.length_le
    simp only [length_append, users, length_map, length_range'] at hlen
    omega
  have hpages : (uvmfreePages K root sz).Sat m E fun _ m' => ∃ t' : Radix Nat 2,
    Tree K L m' root t' ∧ Keeps L m m' ∧ ∀ k, k < 2 ^ 27 → t'.val sv39 k = 0 := by
    unfold uvmfreePages
    by_cases hsz : 0 < sz
    · have hlt := sz_lt_of_npages hn
      have hcount : pgRoundUp sz / pgSize = npages sz := by
        rw [Xv6.pgRoundUp_eq (by unfold pgSize at hlt; omega)]
        exact Nat.mul_div_cancel _ (by decide)
      have hs := uvmunmap_sat (E := E) true (L := L) h (by omega) fun k _ hk => hl k (by omega)
      rw [Nat.zero_mul] at hs
      rw [if_pos hsz, hcount]
      refine hs.imp ?_
      rintro _ m' ⟨t', ht', hk, hval⟩
      refine ⟨t', ht', hk, fun k hk => ?_⟩
      rw [hval k hk]
      split_ifs with hin
      · rfl
      · exact h0 k hk (by omega)
    · have hsz0 : sz = 0 := by omega
      subst hsz0
      rw [if_neg hsz]
      exact sat_pure.mpr ⟨t, h, Keeps.refl _ _, fun k hk => h0 k hk (Nat.zero_le k)⟩
  unfold uvmfree
  refine hpages.bind ?_
  rintro _ m1 ⟨t1, h₁, hk1, hzero⟩
  refine (freewalk_sat h₁ (Radix.clear_of_val sv39_pos hzero)).imp ?_
  exact fun _ m2 hm2 => ⟨hm2.1, hk1.trans hm2.2⟩

lemma trampolineVa_eq : trampolineVa = trampolineVpn * pgSize := rfl

lemma trapframeVa_eq : trapframeVa = trapframeVpn * pgSize := rfl

lemma unmap_one_sat (h : Tree K L m root t) (hv : v < 2 ^ 26) (hl : IsLeaf (t.val sv39 v)) :
    (uvmunmap K root (v * pgSize) 1 false).Sat m E fun _ m' => ∃ t' : Radix Nat 2, Tree K L m' root t' ∧
      Keeps L m m' ∧ ∀ k, k < 2 ^ 27 → t'.val sv39 k = if k = v then 0 else t.val sv39 k := by
  refine (uvmunmap_sat false h (by omega) fun k hlo hhi => ?_).imp ?_
  · have hkv : k = v := by omega
    rwa [hkv]
  · rintro _ m' ⟨t', ht', hk, hval⟩
    refine ⟨t', ht', hk, fun k hk => ?_⟩
    rw [hval k hk]
    split_ifs <;> first | rfl | omega

lemma isLeaf_tramp (K : KernelImage) : IsLeaf (leafPte K.trampoline (pteR ||| pteX)) :=
  isLeaf_leafPte (by decide) (by decide)

lemma isLeaf_frame (tf : Nat) : IsLeaf (leafPte tf (pteR ||| pteW)) :=
  isLeaf_leafPte (by decide) (by decide)

lemma procFreepagetable_sat (h : Space K L m root tf (npages sz) g t) :
    (procFreepagetable K root sz).Sat m E fun _ m' => Acct K m' L ∧ Keeps L m m' := by
  have hn := h.n_le
  unfold procFreepagetable
  rw [trampolineVa_eq, trapframeVa_eq]
  refine (unmap_one_sat h.toTree (by decide) (h.tramp ▸ isLeaf_tramp K)).bind ?_
  rintro _ m1 ⟨t1, h₁, hk1, hval1⟩
  have hframe : t1.val sv39 trapframeVpn = leafPte tf (pteR ||| pteW) := by
    rw [hval1 _ (by decide), if_neg (by decide), h.frame]
  refine (unmap_one_sat h₁ (by decide) (hframe ▸ isLeaf_frame tf)).bind ?_
  rintro _ m2 ⟨t2, h₂, hk2, hval2⟩
  have huser : ∀ v, v < npages sz → t2.val sv39 v = t.val sv39 v := by
    intro v hv
    rw [hval2 v (by omega), if_neg (by unfold trapframeVpn; omega), hval1 v (by omega),
      if_neg (by unfold trampolineVpn; omega)]
  have husers : users t2 0 (npages sz) = users t 0 (npages sz) :=
    users_congr fun k _ hk => huser k (by omega)
  rw [← husers] at h₂
  refine (uvmfree_sat sz h₂ ?_ ?_).imp ?_
  · intro v hv
    rw [huser v hv]
    exact (h.user v hv).1
  · intro k hk hnk
    rw [hval2 k hk]
    split_ifs with h1
    · rfl
    rw [hval1 k hk]
    split_ifs with h2
    · rfl
    exact h.unused k hk hnk h2 h1
  · rintro _ m3 ⟨ha, hk3⟩
    refine ⟨ha, Keeps.trans ((hk1.trans hk2).mono (subset_append_right _ _)) hk3⟩

lemma uvmcreate_sat (h : Acct K m L) :
    uvmcreate.Sat m E fun r m' => Keeps L m m' ∧ (∀ k, Grants m (k + 1) → r ≠ none ∧ Grants m' k) ∧
      match r with
      | none => Acct K m' L
      | some root => Tree K L m' root (Radix.fresh sv39 root 2) := by
  unfold uvmcreate
  refine (kalloc_sat h).bind ?_
  rintro r m1 ⟨ha, hk, hg⟩
  cases r with
  | none => exact sat_pure.mpr ⟨hk, hg, ha⟩
  | some q =>
    rw [sat_bind, sat_memset]
    have hq : q ∉ L := ha.not_mem
    refine sat_pure.mpr ⟨hk.trans (keeps_setPage hq _), hg, Radix.root_fresh .., ?_, ?_⟩
    · exact Radix.rep_fresh fun i hi => Mem.pte_fill_zero _ _ hi
    · rw [Radix.pages_fresh]
      exact ha

lemma Tree.undo_tramp {t0 : Radix Nat 2} (h : Tree K L m root t) (h0 : ∀ k, t0.val sv39 k = 0)
    (hval : ∀ k, k < 2 ^ 27 → t.val sv39 k =
      if k = trampolineVpn then leafPte K.trampoline (pteR ||| pteX) else t0.val sv39 k) :
    (do uvmunmap K root trampolineVa 1 false; uvmfree K root 0 : Kern Mem Unit).Sat m E fun _ m' =>
      Acct K m' L ∧ Keeps L m m' := by
  rw [trampolineVa_eq]
  have htramp : t.val sv39 trampolineVpn = leafPte K.trampoline (pteR ||| pteX) := by
    rw [hval _ (by decide), if_pos rfl]
  refine (unmap_one_sat h (by decide) (htramp ▸ isLeaf_tramp K)).bind ?_
  rintro _ m1 ⟨t1, h₁, hk1, hval1⟩
  refine (uvmfree_sat 0 h₁ (fun v hv => absurd hv (Nat.not_lt_zero v)) fun k hk _ => ?_).imp ?_
  · rw [hval1 k hk, hval k hk, h0]
    split_ifs <;> rfl
  · exact fun _ m2 hm2 => ⟨hm2.1, hk1.trans hm2.2⟩

lemma procPagetable_sat (h : Acct K m L) (htf : tf < physTop) :
    (procPagetable K tf).Sat m E fun r m' => Keeps L m m' ∧
    (∀ k, Grants m (k + 3) → r ≠ none ∧ Grants m' k) ∧ match r with
      | none => Acct K m' L
      | some root => ∃ t, Space K L m' root tf 0 g t := by
  unfold procPagetable
  refine (uvmcreate_sat h).bind ?_
  rintro r m1 ⟨hk1, hg1, hr⟩
  cases r with
  | none => exact sat_pure.mpr ⟨hk1, fun k hk => absurd rfl (hg1 (k + 2) hk).1, hr⟩
  | some root =>
    rw [trampolineVa_eq, trapframeVa_eq]
    refine (mappages_sat (v := trampolineVpn) hr (by decide) (Radix.val_fresh ..) K.trampoline_lt
      (by decide)).bind ?_
    rintro e m2 ⟨t2, hm2⟩
    have h0 : ∀ k, (Radix.fresh sv39 root 2).val sv39 k = 0 := fun k => Radix.val_fresh ..
    have hg2 : ∀ k, Grants m (k + 3) → e = 0 ∧ Grants m2 k := by
      intro k hk
      refine hm2.grants k ?_
      rw [Radix.missing_fresh]
      exact (hg1 (k + 2) hk).2
    by_cases he : e = 0
    · subst he
      obtain ⟨htab, hval2⟩ := hm2.mapped rfl
      have hzero : t2.val sv39 trapframeVpn = 0 := by
        rw [hval2 _ (by decide), if_neg (by decide), h0]
      have hmiss : t2.missing sv39 trapframeVpn = 0 := by
        have hsame : t2.tableOf sv39 trapframeVpn = t2.tableOf sv39 trampolineVpn :=
          Radix.tableOf_congr (by decide)
        obtain ⟨table, htable⟩ := Option.ne_none_iff_exists'.mp htab
        exact Radix.missing_eq_zero (hsame.trans htable)
      rw [if_neg (by decide)]
      refine (mappages_sat (v := trapframeVpn) hm2.toTree (by decide) hzero htf (by decide)).bind ?_
      rintro e m3 ⟨t3, hm3⟩
      have hk3 := (hk1.trans hm2.keeps).trans hm3.keeps
      have hg3 : ∀ k, Grants m (k + 3) → e = 0 ∧ Grants m3 k := by
        intro k hk
        refine hm3.grants k ?_
        rw [hmiss]
        exact (hg2 k hk).2
      by_cases he : e = 0
      · subst he
        obtain ⟨-, hval3⟩ := hm3.mapped rfl
        rw [if_neg (by decide)]
        refine sat_pure.mpr ⟨hk3, fun k hk => ⟨by simp, (hg3 k hk).2⟩, t3, { hm3.toTree with
          tramp := ?_, frame := ?_, user := ?_, unused := ?_ }⟩
        · rw [hval3 _ (by decide), if_neg (by decide), hval2 _ (by decide), if_pos rfl]
          rfl
        · rw [hval3 _ (by decide), if_pos rfl]
          rfl
        · exact fun v hv => absurd hv (Nat.not_lt_zero v)
        · intro k hk _ h1 h2
          rw [hval3 k hk, if_neg h2, hval2 k hk, if_neg h1, h0]
      · obtain ⟨rfl, hval3⟩ := hm3.failed he
        rw [if_pos (by decide)]
        have hundo := hm3.toTree.undo_tramp (E := E) h0 fun k hk => by rw [hval3, hval2 k hk]; rfl
        refine (sat_bind.mp hundo).bind fun _ m4 hm4 => hm4.bind ?_
        rintro _ m5 ⟨ha, hk5⟩
        exact sat_pure.mpr ⟨hk3.trans hk5, fun k hk => absurd (hg3 k hk).1 he, ha⟩
    · obtain ⟨rfl, hval2⟩ := hm2.failed he
      rw [if_pos (by decide)]
      refine (uvmfree_sat 0 hm2.toTree (fun v hv => absurd hv (Nat.not_lt_zero v)) ?_).bind ?_
      · intro k _ _
        rw [hval2, h0]
      · rintro _ m3 ⟨ha, hk3⟩
        exact sat_pure.mpr ⟨(hk1.trans hm2.keeps).trans hk3, fun k hk => absurd (hg2 k hk).1 he, ha⟩

include h

lemma Space.user_of_pteU (hk : k < 2 ^ 27)
    (hu : has (t.val sv39 k) pteU = true) : k < n := by
  by_contra hn
  by_cases h1 : k = trampolineVpn
  · rw [h1, h.tramp, has_leafPte (by decide) (by decide)] at hu
    exact absurd hu (by decide)
  by_cases h2 : k = trapframeVpn
  · rw [h2, h.frame, has_leafPte (by decide) (by decide)] at hu
    exact absurd hu (by decide)
  rw [h.unused k hk (by omega) h1 h2] at hu
  exact absurd hu (by decide)

lemma Space.users_pos (hq : q ∈ users t 0 n) : q ≠ 0 := by
  have hmem := mem_pool (h.acct.mem_pool (mem_append_right _ (mem_append_left _ hq)))
  have hK := K.base_le
  rw [kernBase_eq] at hK
  omega

lemma Space.write_user (hq : q ∈ users t 0 n) (b : Bytes 4096) :
    Space K L (m.setPage q b) root tf n g t ∧ Keeps L m (m.setPage q b) := by
  refine ⟨h.setPage (mem_append_left _ hq) b, keeps_setPage (fun hL => ?_) b⟩
  have hnd := (nodup_append.mp h.acct.nodup).2.1
  exact (nodup_append.mp hnd).2.2 q hq q hL rfl

omit h

lemma has_clear {w : Nat} (hf : pteU &&& f = 0) : has (w ^^^ (w &&& pteU)) f = has w f := by
  have hand : (w ^^^ (w &&& pteU)) &&& f = w &&& f := by
    rw [Nat.and_xor_distrib_right, Nat.and_assoc, hf, Nat.and_zero, Nat.xor_zero]
  rw [has, has, hand]

lemma pte2Pa_clear (w : Nat) : pte2Pa (w ^^^ (w &&& pteU)) = pte2Pa w := by
  have hshift : (w ^^^ (w &&& pteU)) >>> 10 = w >>> 10 := by
    rw [Nat.shiftRight_xor_distrib, Nat.shiftRight_and_distrib]
    have hU : pteU >>> 10 = 0 := rfl
    rw [hU, Nat.and_zero, Nat.xor_zero]
  rw [pte2Pa, pte2Pa, hshift]

/-- The page `v` becomes the guard. -/
lemma uvmclear_sat (h : Space K L m root tf n g t) (hg : n ≤ g) (hv : v < n) :
    (uvmclear root (v * pgSize)).Sat m E fun _ m' => ∃ t', Space K L m' root tf n v t' ∧
    Keeps (users t 0 n ++ L) m m' ∧ ∀ k, k < 2 ^ 27 → k ≠ v → t'.val sv39 k = t.val sv39 k := by
  have hn := h.n_le
  unfold uvmclear
  refine (walk_found h.toTree (vpn_lt_maxVa (by omega)) ?_).bind ?_
  · rw [vpn_div]
    exact (h.user v hv).1.ne_zero
  rintro r m1 ⟨rfl, table, rfl, htab⟩
  rw [vpn_div] at *
  have hpte := h.pte_eq htab
  have hlt : t.val sv39 v < 2 ^ 64 := by
    rw [← hpte]
    exact Bytes.field_lt _ _ 8
  simp only [sat_bind, sat_readPte, hpte, sat_writePte]
  generalize hw : t.val sv39 v = w at *
  have hw' : w ^^^ (w &&& pteU) < 2 ^ 64 :=
    Nat.xor_lt_two_pow hlt (Nat.lt_of_le_of_lt Nat.and_le_left hlt)
  obtain ⟨h₁, hk1⟩ := h.toTree.set htab hw'
  have hval : ∀ k, k < 2 ^ 27 → (t.set sv39 v (w ^^^ (w &&& pteU))).val sv39 k =
      if k = v then w ^^^ (w &&& pteU) else t.val sv39 k := fun k hk => val_set_vpn htab (by omega) hk
  have husers : users (t.set sv39 v (w ^^^ (w &&& pteU))) 0 n = users t 0 n := by
    refine map_congr_left fun k hk => ?_
    obtain ⟨-, hkn⟩ := mem_range'_1.mp hk
    rw [hval k (by omega)]
    split_ifs with hkv
    · rw [pte2Pa_clear, hkv, hw]
    · rfl
  refine ⟨_, { h₁ with acct := ?_, tramp := ?_, frame := ?_, user := ?_, unused := ?_ }, hk1,
    fun k hk hkv => (hval k hk).trans (if_neg hkv)⟩
  · rw [husers]
    exact h₁.acct
  · rw [hval _ (by decide), if_neg (by unfold trampolineVpn; omega), h.tramp]
  · rw [hval _ (by decide), if_neg (by unfold trapframeVpn; omega), h.frame]
  · intro k hk
    rw [hval k (by omega)]
    split_ifs with hkv
    · obtain ⟨⟨hV, hR⟩, -⟩ := h.user v hv
      rw [hw] at hV hR
      exact ⟨⟨(has_clear rfl).trans hV, (has_clear rfl).trans hR⟩, fun hne => absurd hkv hne⟩
    · obtain ⟨hl, hU⟩ := h.user k hk
      exact ⟨hl, fun _ => hU (by omega)⟩
  · intro k hk hnk h1 h2
    rw [hval k hk, if_neg (by omega)]
    exact h.unused k hk hnk h1 h2

lemma uvmfirst_sat (h : Space K L m root tf 0 g t) (hg : Grants m 3) (hsrc : src.length < pgSize) :
    (uvmfirst root src).Sat m E fun _ m' => ∃ t', Space K L m' root tf 1 g t' ∧ Keeps L m m' := by
  unfold uvmfirst
  rw [if_neg (by omega)]
  refine h.kalloc_sat.bind ?_
  rintro r m1 ⟨h₁, hk1, hg1⟩
  obtain ⟨hr, hg2⟩ := hg1 2 hg
  cases r with
  | none => exact absurd rfl hr
  | some q =>
    have h₂ := h₁.setPage (q := q) (by simp) (Bytes.fill 4096 0)
    have hk2 := hk1.trans (h₁.keeps_head (Bytes.fill 4096 0))
    have hs := h₂.mappages_sat (E := E) (f := pteW ||| pteR ||| pteX ||| pteU)
      (by decide) rfl fun _ => rfl
    rw [Nat.zero_mul] at hs
    rw [sat_bind, sat_memset]
    refine hs.bind ?_
    rintro e m3 ⟨t3, hk3, -, hok, -, hg3⟩
    have hmiss := Radix.missing_le (F := sv39) h.root 0
    obtain ⟨he, -⟩ := hg3 0 (Grants.le (m := m1) hg2 (by omega))
    obtain ⟨h3, hq, -⟩ := hok he
    have hmem : physPage t3 0 ∈ users t3 0 1 := mem_users (by omega)
    rw [hq] at hmem
    obtain ⟨h4, hk4⟩ := h3.write_user hmem ((m3.page q).patch 0 src)
    have hkL : Keeps L m m3 := (hk2.mono (subset_append_right _ _)).trans
      (hk3.mono fun p hp => mem_append_right _ (mem_cons_of_mem _ hp))
    exact sat_modifyState.mpr ⟨t3, h4, hkL.trans hk4⟩

end

end Xv6
