import Xv6.PageAcct

/-! Page tables in memory are radix trees of three levels: what `walk`, `mappages`,
`uvmunmap` and `freewalk` do to the tree and to the pages it owns. -/

namespace Xv6

open Function (update_self update_of_ne update_eq_self update)

open Kern List

lemma Mem.pte_setPte (m : Mem) (table : Nat) {i v : Nat} (hi : i < 512) (hv : v < 2 ^ 64) :
    (m.setPte table i v).pte = update m.pte table (update (m.pte table) i v) := by
  funext t j
  by_cases ht : t = table
  · subst ht
    rw [update_self, pte, setPte, page_setPage_self]
    by_cases hj : j = i
    · subst hj
      rw [update_self, Bytes.field_setField_self _ _ (by omega)]
      exact Nat.mod_eq_of_lt hv
    · rw [update_of_ne hj, Bytes.field_setField_of_disjoint _ _ (by omega)]
      rfl
  · rw [update_of_ne ht, pte, setPte, page_setPage_of_ne _ _ ht]
    rfl

lemma Mem.pte_fill_zero (m : Mem) (q : Nat) {i : Nat} (hi : i < 512) :
    (m.setPage q (Bytes.fill 4096 0)).pte q i = 0 := by
  rw [pte, page_setPage_self]
  exact Bytes.field_fill_zero (by omega)

lemma Keeps.pte {L : List Nat} {m m' : Mem} (h : Keeps L m m') {q : Nat} (hq : q ∈ L) :
    m'.pte q = m.pte q := by
  funext i
  rw [Mem.pte, h q hq]
  rfl

section

variable {m : Mem} {E : String → Prop} {table i v q : Nat}

@[simp] lemma sat_readPte {Q : Nat → Mem → Prop} : (readPte table i).Sat m E Q ↔ Q (m.pte table i) m :=
  sat_of_eq rfl

variable {Q : Unit → Mem → Prop}

@[simp] lemma sat_writePte : (writePte table i v).Sat m E Q ↔ Q () (m.setPte table i v) :=
  sat_of_eq rfl

@[simp] lemma sat_memset {b : UInt8} :
    (memset q b).Sat m E Q ↔ Q () (m.setPage q (Bytes.fill 4096 b)) :=
  sat_of_eq rfl

end

structure Tree (K : KernelImage) (L : List Nat) (m : Mem) {n : Nat} (root : Nat)
    (t : Radix Nat n) : Prop where
  root : t.root = some root
  rep : Radix.Rep sv39 m.pte t
  acct : Acct K m (t.pages sv39 ++ L)

structure Walked (K : KernelImage) (L : List Nat) (m : Mem) (alloc : Bool) (key : Nat)
    {n : Nat} (root : Nat) (t : Radix Nat n) (r : Option (Nat × Nat)) (m' : Mem)
    (t' : Radix Nat n) : Prop extends Tree K L m' root t' where
  keeps : Keeps L m m'
  val : ∀ k, t'.val sv39 k = t.val sv39 k
  place : ∀ p, r = some p → t'.tableOf sv39 key = some p.1 ∧ p.2 = Radix.digit sv39 0 key
  still : alloc = false → m' = m ∧ t' = t ∧ (r = none → t.tableOf sv39 key = none)
  grants : alloc = true → ∀ k, Grants m (k + t.missing sv39 key) → r ≠ none ∧ Grants m' k

section

variable {K : KernelImage} {L : List Nat} {m m' : Mem} {n root : Nat} {alloc : Bool} {key va : Nat}
  {E : String → Prop}

lemma sv39_pos : 0 < sv39.width := by decide

lemma sv39_digit_lt (n key : Nat) : Radix.digit sv39 n key < 512 := Radix.digit_lt sv39_pos n key

lemma px_eq_digit (level va : Nat) : px level va = Radix.digit sv39 level (va / 4096) := px_eq level va

def beside (L : List Nat) (root : Nat) (kid : Nat → Radix Nat n) (d : Nat) : List Nat :=
  root :: ((List.range 512).flatMap fun i => if i = d then [] else (kid i).pages sv39) ++ L

variable {d p : Nat} {c : Radix Nat n} {t : Radix Nat 2}

lemma pages_beside (L : List Nat) (root : Nat) (kid : Nat → Radix Nat n) (hd : d < 512) :
    ((Radix.node root kid).pages sv39 ++ L).Perm ((kid d).pages sv39 ++ beside L root kid d) := by
  refine ((Radix.pages_perm (F := sv39) kid hd).append_right L).trans ?_
  rw [append_assoc]
  exact List.Perm.refl _

lemma beside_update (L : List Nat) (root : Nat) (kid : Nat → Radix Nat n) (d : Nat)
    (c : Radix Nat n) : beside L root (update kid d c) d = beside L root kid d := by
  have h := Radix.others_update (F := sv39) kid d c
  unfold beside
  change root :: ((List.range sv39.width).flatMap _) ++ L = _
  rw [h]
  rfl

lemma mem_beside_root (L : List Nat) (root : Nat) (kid : Nat → Radix Nat n) (d : Nat) :
    root ∈ beside L root kid d := mem_cons_self ..

lemma subset_beside (L : List Nat) (root : Nat) (kid : Nat → Radix Nat n) (d : Nat) :
    L ⊆ beside L root kid d := subset_append_right _ _

lemma mem_beside_other {kid : Nat → Radix Nat n} {i q : Nat} (hi : i < 512) (hid : i ≠ d)
    (hq : q ∈ (kid i).pages sv39) : q ∈ beside L root kid d := by
  refine mem_append_left _ (mem_cons_of_mem _ (mem_flatMap.mpr ?_))
  exact ⟨i, mem_range.mpr hi, by rwa [if_neg hid]⟩

lemma Tree.replace {kid : Nat → Radix Nat n}
    (h : Tree K L m root (Radix.node root kid)) (hd : d < 512)
    (hc : Tree K (beside L root kid d) m' p c)
    (hp : ∀ i, i ≠ d → m'.pte root i = m.pte root i) (hlink : m'.pte root d = pa2Pte p ||| pteV)
    (ho : ∀ i < 512, i ≠ d → ∀ q ∈ (kid i).pages sv39, m'.page q = m.page q) :
    Tree K L m' root (Radix.node root (update kid d c)) where
  root := rfl
  rep := by
    refine h.rep.update (fun i _ hid => hp i hid) ?_ hc.rep ?_
    · intro _
      rw [hlink, Radix.word, hc.root]
      rfl
    · intro i hi hid q hq
      funext j
      rw [Mem.pte, ho i hi hid q hq]
      rfl
  acct := by
    have hperm := pages_beside L root (update kid d c) hd
    rw [update_self, beside_update] at hperm
    exact hc.acct.perm hperm.symm

lemma Walked.node {kid : Nat → Radix Nat n} {r : Option (Nat × Nat)}
    (h : Tree K L m root (Radix.node root kid))
    (hp : (kid (Radix.digit sv39 (n + 1) key)).root = some p)
    (hc : Walked K (beside L root kid (Radix.digit sv39 (n + 1) key)) m alloc key p
      (kid (Radix.digit sv39 (n + 1) key)) r m' c) :
      Walked K L m alloc key root (Radix.node root kid) r m'
      (Radix.node root (update kid (Radix.digit sv39 (n + 1) key) c)) := by
  have hd := sv39_digit_lt (n + 1) key
  generalize hde : Radix.digit sv39 (n + 1) key = d at *
  have hroot : m'.pte root = m.pte root := hc.keeps.pte (mem_beside_root ..)
  have hword : m.pte root d = pa2Pte p ||| pteV := by
    rw [(h.rep d hd).1, Radix.word, hp]
    rfl
  refine { h.replace hd hc.toTree (fun i _ => by rw [hroot]) (by rw [hroot, hword]) ?_ with
    keeps := hc.keeps.mono (subset_beside ..), val := ?_, place := ?_, still := ?_, grants := ?_ }
  · exact fun i hi hid q hq => hc.keeps q (mem_beside_other hi hid hq)
  · intro k
    simp only [Radix.val]
    by_cases hk : Radix.digit sv39 (n + 1) k = d
    · rw [hk, update_self, hc.val]
    · rw [update_of_ne hk]
  · intro q hq
    simp only [Radix.tableOf, hde, update_self]
    exact hc.place q hq
  · intro ha
    obtain ⟨hm, ht, hn⟩ := hc.still ha
    refine ⟨hm, ?_, ?_⟩
    · rw [ht, update_eq_self]
    · simpa only [Radix.tableOf, hde] using hn
  · intro ha k hk
    simp only [Radix.missing, hde] at hk
    exact hc.grants ha k hk

lemma has_link (p : Nat) : has (pa2Pte p ||| pteV) pteV = true := by
  rw [has_pteV, pteV, pa2Pte_or (by omega), decide_eq_true_eq]
  omega

lemma Tree.link {kid : Nat → Radix Nat n} (h : Tree K L m root (Radix.node root kid)) (hd : d < 512)
    (hempty : kid d = Radix.empty) (ha : Acct K m' (p :: ((Radix.node root kid).pages sv39 ++ L)))
    (hk : Keeps ((Radix.node root kid).pages sv39 ++ L) m m') :
    Tree K L ((m'.setPage p (Bytes.fill 4096 0)).setPte root d (pa2Pte p ||| pteV)) root
        (Radix.node root (update kid d (Radix.fresh sv39 p n))) ∧
      Keeps L m ((m'.setPage p (Bytes.fill 4096 0)).setPte root d (pa2Pte p ||| pteV)) := by
  have hroot : root ∈ (Radix.node root kid).pages sv39 ++ L := by simp [Radix.pages]
  have hne : ∀ q ∈ (Radix.node root kid).pages sv39 ++ L, q ≠ p := by
    rintro q hq rfl
    exact ha.not_mem hq
  have hnd := (h.acct.perm (pages_beside L root kid hd)).nodup
  rw [hempty] at hnd
  have hrl := (nodup_cons.mp hnd).1
  obtain ⟨-, -, hlt⟩ := mem_pool (ha.mem_pool (mem_cons_self ..))
  have hpte := Mem.pte_setPte (m'.setPage p (Bytes.fill 4096 0)) root hd
    (pool_pte_lt (f := pteV) hlt (by decide))
  have hbefore : (m'.setPage p (Bytes.fill 4096 0)).pte root = m.pte root := by
    funext i
    rw [Mem.pte, Mem.page_setPage_of_ne _ _ (hne root hroot), hk root hroot]
    rfl
  have hpage : ∀ q ∈ (Radix.node root kid).pages sv39 ++ L, q ≠ root →
      ((m'.setPage p (Bytes.fill 4096 0)).setPte root d (pa2Pte p ||| pteV)).page q = m.page q := by
    intro q hq hqr
    rw [Mem.setPte, Mem.page_setPage_of_ne _ _ hqr, Mem.page_setPage_of_ne _ _ (hne q hq), hk q hq]
  have hsub : ∀ q ∈ beside L root kid d, q ∈ (Radix.node root kid).pages sv39 ++ L :=
    fun q hq => (pages_beside L root kid hd).mem_iff.mpr (mem_append_right _ hq)
  refine ⟨h.replace hd ⟨Radix.root_fresh .., ?_, ?_⟩ ?_ ?_ ?_, ?_⟩
  · refine Radix.rep_fresh fun i hi => ?_
    rw [hpte, update_of_ne (hne root hroot).symm]
    exact Mem.pte_fill_zero _ _ hi
  · rw [Radix.pages_fresh]
    refine Acct.perm ha ?_
    have hperm := pages_beside L root kid hd
    rw [hempty] at hperm
    exact hperm.cons p
  · intro i hid
    rw [hpte, update_self, update_of_ne hid, hbefore]
  · rw [hpte, update_self, update_self]
  · intro i hi hid q hq
    refine hpage q (mem_append_left _ (Radix.mem_pages_kid hi hq)) ?_
    rintro rfl
    exact hrl (mem_append_left _ (mem_flatMap.mpr
      ⟨i, mem_range.mpr hi, by rwa [if_neg hid]⟩))
  · intro q hq
    refine hpage q (mem_append_right _ hq) ?_
    rintro rfl
    exact hrl (mem_append_right _ hq)

lemma Tree.kid {kid : Nat → Radix Nat n} (h : Tree K L m root (Radix.node root kid)) (hd : d < 512)
    (hp : (kid d).root = some p) : Tree K (beside L root kid d) m p (kid d) :=
  ⟨hp, (h.rep d hd).2, h.acct.perm (pages_beside L root kid hd)⟩

lemma walkFrom_sat {t : Radix Nat n} (h : Tree K L m root t) :
    (walkFrom alloc va n root).Sat m E fun r m' => ∃ t',
    Walked K L m alloc (va / 4096) root t r m' t' := by
  induction n generalizing L m root with
  | zero =>
    cases t with
    | empty => cases h.root
    | leaf page slot =>
      have hp : page = root := by simpa [Radix.root] using h.root
      subst hp
      refine sat_pure.mpr
        ⟨_, { h with
          keeps := Keeps.refl _ _, val := fun _ => rfl, place := ?_, still := ?_, grants := ?_ }⟩
      · rintro p ⟨⟩
        exact ⟨rfl, px_eq_digit 0 va⟩
      · intro _
        exact ⟨rfl, rfl, fun hr => by cases hr⟩
      · intro _ k hk
        exact ⟨by simp, hk⟩
  | succ n ih =>
    cases t with
    | empty => cases h.root
    | node page kid =>
      have hp : page = root := by simpa [Radix.root] using h.root
      subst hp
      have hd := sv39_digit_lt (n + 1) (va / 4096)
      have hword := (h.rep _ hd).1
      unfold walkFrom
      rw [px_eq_digit]
      rw [sat_bind, sat_readPte, hword, Radix.word]
      cases hk : (kid (Radix.digit sv39 (n + 1) (va / 4096))).root with
      | some p =>
        have hmem :=
          h.acct.mem_pool (mem_append_left _ (Radix.mem_pages_kid hd (Radix.root_mem_pages hk)))
        have hlink : pte2Pa (pa2Pte p ||| pteV) = p := pte2Pa_leaf (mem_pool hmem).1 (by decide)
        simp only [sv39, has_link, if_true, hlink]
        refine (ih (h.kid hd hk)).imp ?_
        rintro r m' ⟨c, hc⟩
        exact ⟨_, Walked.node h hk hc⟩
      | none =>
        have hempty : kid (Radix.digit sv39 (n + 1) (va / 4096)) = Radix.empty := by
          cases hc : kid (Radix.digit sv39 (n + 1) (va / 4096)) with
          | empty => rfl
          | leaf p slot => simp [hc, Radix.root] at hk
          | node p kid' => simp [hc, Radix.root] at hk
        have hmiss : (Radix.node page kid).missing sv39 (va / 4096) = n + 1 := by
          simp [Radix.missing, hempty]
        have htab : (Radix.node page kid).tableOf sv39 (va / 4096) = none := by
          simp [Radix.tableOf, hempty]
        have hzero : has sv39.zero pteV = false := rfl
        simp only [hzero, Bool.false_eq_true, if_false]
        -- Without a table below, nothing changes.
        have hnone : ∀ m', Acct K m' ((Radix.node page kid).pages sv39 ++ L) →
            Keeps ((Radix.node page kid).pages sv39 ++ L) m m' → (alloc = false → m' = m) →
            (alloc = true → ∀ k, ¬ Grants m (k + 1)) →
            ∃ t', Walked K L m alloc (va / 4096) page (Radix.node page kid) none m' t' := by
          intro m' ha hkeep hsame hg
          refine ⟨Radix.node page kid, ⟨rfl, ?_, ha⟩, hkeep.mono (subset_append_right _ _),
            fun _ => rfl, fun _ hp => (by cases hp), fun hf => ⟨hsame hf, rfl, fun _ => htab⟩, ?_⟩
          · exact h.rep.congr fun q hq => hkeep.pte (mem_append_left _ hq)
          · intro htrue k hk
            rw [hmiss, ← Nat.add_assoc] at hk
            exact absurd hk (hg htrue _)
        cases alloc with
        | false =>
          exact sat_pure.mpr
            (hnone m h.acct (Keeps.refl _ _) (fun _ => rfl) (fun hf => by cases hf))
        | true =>
          refine (kalloc_sat h.acct).bind ?_
          rintro r m1 ⟨ha, hkeep, hg⟩
          cases r with
          | none =>
            refine sat_pure.mpr (hnone m1 ha hkeep (fun hf => by cases hf) ?_)
            exact fun _ k hk => (hg k hk).1 rfl
          | some p =>
            obtain ⟨htree, hkeep'⟩ := h.link hd hempty ha hkeep
            have hg' : ∀ k, Grants m1 k → Grants ((m1.setPage p (Bytes.fill 4096 0)).setPte page
                (Radix.digit sv39 (n + 1) (va / 4096)) (pa2Pte p ||| pteV)) k := fun _ hk => hk
            simp only [sat_bind, sat_memset, sat_writePte]
            generalize (m1.setPage p (Bytes.fill 4096 0)).setPte page _ (pa2Pte p ||| pteV) = m2
              at htree hkeep' hg' ⊢
            have hroot : (update kid (Radix.digit sv39 (n + 1) (va / 4096)) (Radix.fresh sv39 p n)
                (Radix.digit sv39 (n + 1) (va / 4096))).root = some p := by
              rw [update_self, Radix.root_fresh]
            refine (ih (htree.kid hd hroot)).imp ?_
            rintro r m3 ⟨c, hc⟩
            have hw := Walked.node htree hroot hc
            refine ⟨_, { hw with
              keeps := hkeep'.trans hw.keeps, val := ?_, still := fun hf => (by cases hf),
              grants := ?_ }⟩
            · intro k
              rw [hw.val k]
              simp only [Radix.val]
              by_cases hkd : Radix.digit sv39 (n + 1) k = Radix.digit sv39 (n + 1) (va / 4096)
              · rw [hkd, update_self, hempty, Radix.val_fresh]
                rfl
              · rw [update_of_ne hkd]
            · intro _ k hk
              rw [hmiss, ← Nat.add_assoc] at hk
              refine hw.grants rfl k ?_
              simp only [Radix.missing, update_self, Radix.missing_fresh]
              exact hg' _ (hg _ hk).2

lemma walk_sat (h : Tree K L m root t) (hva : va < maxVa) :
    (walk root va alloc).Sat m E fun r m' => ∃ t', Walked K L m alloc (va / 4096) root t r m' t' := by
  unfold walk
  rw [if_neg (by omega)]
  exact walkFrom_sat h

lemma walk_found (h : Tree K L m root t) (hva : va < maxVa) (h0 : t.val sv39 (va / 4096) ≠ 0) :
    (walk root va false).Sat m E fun r m' =>
      m' = m ∧ ∃ table, r = some (table, Radix.digit sv39 0 (va / 4096)) ∧
        t.tableOf sv39 (va / 4096) = some table := by
  refine (walk_sat h hva).imp ?_
  rintro r m' ⟨t', hw⟩
  obtain ⟨rfl, rfl, hn⟩ := hw.still rfl
  cases r with
  | none => exact absurd (Radix.val_of_no_table (hn rfl)) h0
  | some p =>
    obtain ⟨htab, hi⟩ := hw.place p rfl
    exact ⟨rfl, p.1, by rw [← hi], htab⟩

end

section

variable {K : KernelImage} {L : List Nat} {m m' : Mem} {root key table v w : Nat}
  {t t' : Radix Nat 2} {E : String → Prop}

variable {n pa f : Nat} {doFree : Bool}

lemma Tree.congr {t : Radix Nat n} (h : Tree K L m root t) (hk : Keeps (t.pages sv39) m m')
    {L' : List Nat} (ha : Acct K m' (t.pages sv39 ++ L')) : Tree K L' m' root t :=
  ⟨h.root, h.rep.congr fun _ hq => hk.pte hq, ha⟩

lemma Tree.pte_eq {t : Radix Nat n} (h : Tree K L m root t) (ht : t.tableOf sv39 key = some table) :
    m.pte table (Radix.digit sv39 0 key) = t.val sv39 key :=
  h.rep.word_eq sv39_pos ht

lemma Tree.set {t : Radix Nat n} (h : Tree K L m root t) (ht : t.tableOf sv39 key = some table)
    (hw : w < 2 ^ 64) : Tree K L (m.setPte table (Radix.digit sv39 0 key) w) root (t.set sv39 key w) ∧
      Keeps L m (m.setPte table (Radix.digit sv39 0 key) w) := by
  have hmem := Radix.tableOf_mem_pages sv39_pos ht
  have hnd := h.acct.nodup
  have hnd' := nodup_append.mp hnd
  refine ⟨⟨by rw [Radix.root_set, h.root], ?_, ?_⟩, keeps_setPage ?_ _⟩
  · rw [Mem.pte_setPte m table (sv39_digit_lt 0 key) hw]
    exact h.rep.set sv39_pos hnd'.1 ht w
  · rw [Radix.pages_set]
    exact h.acct
  · exact fun hL => hnd'.2.2 table hmem table hL rfl

lemma val_set_vpn (ht : t.tableOf sv39 key = some table) (hkey : key < 2 ^ 27) {k : Nat}
    (hk : k < 2 ^ 27) : (t.set sv39 key w).val sv39 k = if k = key then w else t.val sv39 k := by
  have hmod : ∀ a, a < 2 ^ 27 → a % sv39.width ^ (2 + 1) = a := fun a ha => Nat.mod_eq_of_lt ha
  rw [Radix.val_set sv39_pos ht w k, hmod k hk, hmod key hkey]

lemma maxVa_eq : maxVa = 2 ^ 26 * pgSize := rfl

lemma vpn_lt_maxVa (hv : v < 2 ^ 26) : v * pgSize < maxVa := by
  rw [maxVa_eq]
  unfold pgSize
  omega

lemma vpn_div (v : Nat) : v * pgSize / 4096 = v := Nat.mul_div_cancel v (by decide)

/-- The result `e` of `mappages` for one page. -/
structure Mapped1 (K : KernelImage) (L : List Nat) (m : Mem) (v w root : Nat) (t : Radix Nat 2)
    (e : Int) (m' : Mem) (t' : Radix Nat 2) : Prop extends Tree K L m' root t' where
  keeps : Keeps L m m'
  failed : e ≠ 0 → e = -1 ∧ ∀ k, t'.val sv39 k = t.val sv39 k
  mapped : e = 0 → t'.tableOf sv39 v ≠ none ∧
    ∀ k, k < 2 ^ 27 → t'.val sv39 k = if k = v then w else t.val sv39 k
  grants : ∀ k, Grants m (k + t.missing sv39 v) → e = 0 ∧ Grants m' k

lemma leaf_pte_lt (hpa : pa < physTop) (hf : f < 1024) : pa2Pte pa ||| f ||| pteV < 2 ^ 64 := by
  rw [Nat.or_assoc]
  exact pool_pte_lt hpa (Nat.or_lt_two_pow (n := 10) hf (by decide))

lemma mappages_sat {perm : Nat} (h : Tree K L m root t) (hv : v < 2 ^ 26) (h0 : t.val sv39 v = 0)
    (hpa : pa < physTop) (hperm : perm < 1024) :
    (mappages root (v * pgSize) pgSize pa perm).Sat m E fun e m' =>
      ∃ t', Mapped1 K L m v (pa2Pte pa ||| perm ||| pteV) root t e m' t' := by
  have hdown : pgRoundDown (v * pgSize) = v * pgSize := by
    unfold pgRoundDown pgSize
    omega
  have hlast : pgRoundDown (u64 (v * pgSize + pgSize - 1)) = v * pgSize := by
    rw [u64_of_lt (by unfold pgSize; omega)]
    unfold pgRoundDown pgSize
    omega
  have hrounds : u64 (v * pgSize + 2 ^ 64 - v * pgSize) / pgSize = 0 := by
    rw [Nat.add_sub_cancel_left]
    rfl
  unfold mappages
  rw [if_neg (by decide)]
  simp only [hdown, hlast, hrounds]
  unfold mapLoop
  refine (walk_sat h (vpn_lt_maxVa hv)).bind ?_
  rintro r m1 ⟨t1, hw⟩
  rw [vpn_div] at hw
  cases r with
  | none =>
    refine sat_pure.mpr ⟨t1, hw.toTree, hw.keeps, fun _ => ⟨rfl, hw.val⟩, nofun, ?_⟩
    exact fun k hk => absurd rfl (hw.grants rfl k hk).1
  | some p =>
    obtain ⟨htab, hi⟩ := hw.place p rfl
    obtain ⟨table, i⟩ := p
    subst hi
    rw [sat_bind, sat_readPte, hw.toTree.pte_eq htab, hw.val, h0]
    have hzero : has 0 pteV = false := rfl
    simp only [hzero, Bool.false_eq_true, if_false, sat_bind, sat_writePte]
    obtain ⟨htree, hkeep⟩ := hw.toTree.set htab (leaf_pte_lt hpa hperm)
    refine sat_pure.mpr ⟨_, htree, hw.keeps.trans hkeep, fun hne => absurd rfl hne,
      fun _ => ⟨?_, ?_⟩, ?_⟩
    · rw [Radix.tableOf_set, htab]
      simp
    · intro k hk
      rw [val_set_vpn htab (by omega) hk, hw.val]
    · exact fun k hk => ⟨rfl, (hw.grants rfl k hk).2⟩

/-- A valid entry that is no link. -/
def IsLeaf (w : Nat) : Prop := has w pteV = true ∧ has w pteR = true

lemma has_low {w : Nat} (hf : f < 1024) : has w f = has (w % 1024) f := by
  have hle : w &&& f < 2 ^ 10 := Nat.lt_of_le_of_lt Nat.and_le_right hf
  have hlow := Nat.and_mod_two_pow (a := w) (b := f) (n := 10)
  rw [Nat.mod_eq_of_lt hle, Nat.mod_eq_of_lt hf] at hlow
  rw [has, has, hlow]

lemma IsLeaf.flags_ne (h : IsLeaf w) : pteFlags w ≠ pteV := by
  intro he
  have hr := h.2
  rw [has_low (by decide), ← pteFlags_eq, he] at hr
  exact absurd hr (by decide)

lemma IsLeaf.ne_zero (h : IsLeaf w) : w ≠ 0 := by
  rintro rfl
  exact absurd h.1 (by decide)

def users (t : Radix Nat 2) (v n : Nat) : List Nat :=
  (List.range' v n).map fun k => pte2Pa (t.val sv39 k)

lemma users_congr (h : ∀ k, v ≤ k → k < v + n → t'.val sv39 k = t.val sv39 k) :
    users t' v n = users t v n := by
  refine map_congr_left fun k hk => ?_
  obtain ⟨hlo, hhi⟩ := mem_range'_1.mp hk
  rw [h k hlo hhi]

lemma users_add (t : Radix Nat 2) (v n k : Nat) :
    users t v (n + k) = users t v n ++ users t (v + n) k := by
  rw [users, users, users, ← map_append, List.range'_append_1]

def unmapped (doFree : Bool) (t : Radix Nat 2) (v n : Nat) : List Nat :=
  if doFree then users t v n else []

lemma freeIf_sat {q : Nat} (h : Acct K m ((if doFree then [q] else []) ++ L)) :
    (freeIf K doFree q).Sat m E fun _ m' => Acct K m' L ∧ Keeps L m m' := by
  cases doFree with
  | true => exact kfree_sat h
  | false => exact sat_pure.mpr ⟨h, Keeps.refl _ _⟩

lemma unmapPage_sat
    (h : Tree K ((if doFree then [pte2Pa (t.val sv39 v)] else []) ++ L) m root t) (hv : v < 2 ^ 26)
    (hV : has (t.val sv39 v) pteV = true) (hf : pteFlags (t.val sv39 v) ≠ pteV) :
    (unmapPage K root doFree (v * pgSize)).Sat m E fun _ m' =>
      ∃ t' : Radix Nat 2, Tree K L m' root t' ∧ Keeps L m m' ∧
        ∀ k, k < 2 ^ 27 → t'.val sv39 k = if k = v then 0 else t.val sv39 k := by
  unfold unmapPage
  refine (walk_found h (vpn_lt_maxVa hv) ?_).bind ?_
  · rw [vpn_div]
    intro h0
    rw [h0] at hV
    exact absurd hV (by decide)
  rintro r m' ⟨rfl, table, rfl, htab⟩
  rw [vpn_div] at *
  simp only [sat_bind, sat_readPte, h.pte_eq htab, hV, Bool.true_eq_false, if_false, hf]
  have ha := h.acct.perm (perm_append_comm_assoc _ _ _)
  refine (freeIf_sat ha).imp ?_
  rintro _ m1 ⟨ha1, hk⟩
  have h1 : Tree K L m1 root t := h.congr (hk.mono (subset_append_left _ _)) ha1
  obtain ⟨htree, hkeep⟩ := h1.set htab (w := 0) (by decide)
  refine sat_writePte.mpr ⟨_, htree, (hk.mono (subset_append_right _ _)).trans hkeep, ?_⟩
  exact fun k hk => val_set_vpn htab (by omega) hk

lemma pagesFrom_vpn (v n : Nat) : pagesFrom (v * pgSize) (v * pgSize + n * pgSize) =
    (List.range' v n).map fun k => k * pgSize := by
  have hlen : (v * pgSize + n * pgSize - v * pgSize + (pgSize - 1)) / pgSize = n := by
    unfold pgSize
    omega
  rw [pagesFrom, hlen, List.range'_eq_map_range, map_map]
  refine map_congr_left fun i _ => ?_
  simp [Nat.add_mul]

lemma unmapLoop_sat (h : Tree K (unmapped doFree t v n ++ L) m root t)
    (hn : v + n ≤ 2 ^ 26) (hl : ∀ k, v ≤ k → k < v + n → IsLeaf (t.val sv39 k)) :
    (forEach (unmapPage K root doFree) ((List.range' v n).map fun k => k * pgSize)).Sat m E fun _ m' =>
      ∃ t' : Radix Nat 2, Tree K L m' root t' ∧ Keeps L m m' ∧
        ∀ k, k < 2 ^ 27 → t'.val sv39 k = if v ≤ k ∧ k < v + n then 0 else t.val sv39 k := by
  induction n generalizing v m t with
  | zero =>
    have hL : unmapped doFree t v 0 ++ L = L := by cases doFree <;> rfl
    rw [hL] at h
    refine sat_pure.mpr ⟨t, h, Keeps.refl _ _, fun k _ => ?_⟩
    rw [if_neg (by omega)]
  | succ n ih =>
    rw [List.range'_succ, map_cons]
    have hL : unmapped doFree t v (n + 1) ++ L =
        (if doFree then [pte2Pa (t.val sv39 v)] else []) ++ (unmapped doFree t (v + 1) n ++ L) := by
      cases doFree <;> simp [unmapped, users, List.range'_succ]
    rw [hL] at h
    have hlv := hl v (by omega) (by omega)
    refine (unmapPage_sat h (by omega) hlv.1 hlv.flags_ne).bind ?_
    rintro _ m1 ⟨t1, h1, hk1, hval⟩
    have hsame : unmapped doFree t1 (v + 1) n = unmapped doFree t (v + 1) n := by
      cases doFree with
      | false => rfl
      | true =>
        refine users_congr fun k hlo hhi => ?_
        rw [hval k (by omega), if_neg (by omega)]
    rw [← hsame] at h1
    refine (ih h1 (by omega) ?_).imp ?_
    · intro k hlo hhi
      rw [hval k (by omega), if_neg (by omega)]
      exact hl k (by omega) (by omega)
    · rintro _ m2 ⟨t2, h2, hk2, hval2⟩
      refine ⟨t2, h2, (hk1.mono (subset_append_right _ _)).trans hk2, fun k hk => ?_⟩
      rw [hval2 k hk, hval k hk]
      split_ifs <;> first | rfl | omega

lemma uvmunmap_sat (doFree : Bool) (h : Tree K (unmapped doFree t v n ++ L) m root t)
    (hn : v + n ≤ 2 ^ 26) (hl : ∀ k, v ≤ k → k < v + n → IsLeaf (t.val sv39 k)) :
    (uvmunmap K root (v * pgSize) n doFree).Sat m E fun _ m' =>
      ∃ t' : Radix Nat 2, Tree K L m' root t' ∧ Keeps L m m' ∧
        ∀ k, k < 2 ^ 27 → t'.val sv39 k = if v ≤ k ∧ k < v + n then 0 else t.val sv39 k := by
  unfold uvmunmap
  rw [if_neg (by simp), u64_of_lt (by unfold pgSize; omega), pagesFrom_vpn]
  exact unmapLoop_sat h hn hl

end

section

variable {K : KernelImage} {L : List Nat} {m : Mem} {root n : Nat} {E : String → Prop}

lemma link_not_leaf (p : Nat) : has (pa2Pte p ||| pteV) (pteR ||| pteW ||| pteX) = false := by
  have hmod : (pa2Pte p ||| pteV) % 1024 = 1 := by
    rw [pteV, pa2Pte_or (by decide)]
    omega
  rw [has_low (by decide), hmod]
  rfl

structure Freeing (K : KernelImage) (L : List Nat) (m : Mem) (root : Nat) (kid : Nat → Radix Nat n)
    (xs : List Nat) (s : Mem) : Prop where
  acct : Acct K s (xs.flatMap (fun i => (kid i).pages sv39) ++ root :: L)
  entry : ∀ i ∈ xs, i < 512 ∧ s.pte root i = Radix.word sv39 (kid i) ∧ Radix.Rep sv39 s.pte (kid i)
  keeps : Keeps L m s

lemma Freeing.drop {kid : Nat → Radix Nat n} {i : Nat} {xs : List Nat} {s s' : Mem}
    (h : Freeing K L m root kid (i :: xs) s) (hi : i ∉ xs)
    (ha : Acct K s' (xs.flatMap (fun i => (kid i).pages sv39) ++ root :: L))
    (hk : Keeps (xs.flatMap (fun i => (kid i).pages sv39) ++ root :: L) s s') :
    Freeing K L m root kid xs (s'.setPte root i 0) := by
  have hnd := nodup_append.mp ha.nodup
  have hnL : root ∉ L := (nodup_cons.mp hnd.2.1).1
  refine ⟨ha, ?_, ?_⟩
  · intro j hj
    obtain ⟨hlt, hword, hrep⟩ := h.entry j (mem_cons_of_mem _ hj)
    obtain ⟨hi512, -, -⟩ := h.entry i (mem_cons_self ..)
    have hpte := Mem.pte_setPte s' root hi512 (v := 0) (by decide)
    refine ⟨hlt, ?_, hrep.congr fun q hq => ?_⟩
    · have hji : j ≠ i := fun he => hi (he ▸ hj)
      rw [hpte, update_self, update_of_ne hji, hk.pte (by simp), hword]
    · have hmem : q ∈ xs.flatMap fun i => (kid i).pages sv39 := mem_flatMap.mpr ⟨j, hj, hq⟩
      have hqr : q ≠ root := hnd.2.2 q hmem root (mem_cons_self ..)
      rw [hpte, update_of_ne hqr, hk.pte (mem_append_left _ hmem)]
  · refine (h.keeps.trans (hk.mono ?_)).trans (keeps_setPage hnL _)
    exact fun q hq => mem_append_right _ (mem_cons_of_mem _ hq)

variable {t : Radix Nat n} {below : Nat → Kern Mem Unit} {Q : Unit → Mem → Prop}

lemma root_eq_none (h : t.root = none) : t = Radix.empty := by
  cases t with
  | empty => rfl
  | leaf p slot => cases h
  | node p kid => cases h

lemma freewalkEntry_zero {i : Nat}
    (h0 : m.pte root i = 0) (hQ : Q () m) : (freewalkEntry below root i).Sat m E Q := by
  have hv : has 0 pteV = false := rfl
  unfold freewalkEntry
  rw [sat_bind, sat_readPte, h0, hv]
  exact sat_pure.mpr hQ

lemma freewalkEntry_link {i p : Nat}
    (hp : p ∈ pool K) (hword : m.pte root i = pa2Pte p ||| pteV)
    (hQ : (below p).Sat m E fun _ m' =>
      Q () (m'.setPte root i 0)) : (freewalkEntry below root i).Sat m E Q := by
  have hlink : pte2Pa (pa2Pte p ||| pteV) = p := pte2Pa_leaf (mem_pool hp).1 (by decide)
  unfold freewalkEntry
  rw [sat_bind, sat_readPte, hword, has_link, link_not_leaf, hlink]
  exact hQ.bind fun _ _ h => sat_writePte.mpr h

/-- All tables of a tree without leaves go back. -/
lemma freewalk_sat (h : Tree K L m root t) (hc : t.Clear sv39) :
    (freewalk K (n + 1) root).Sat m E fun _ m' => Acct K m' L ∧ Keeps L m m' := by
  induction n generalizing L m root with
  | zero =>
    cases t with
    | empty => cases h.root
    | leaf page slot =>
      have hp : page = root := by simpa [Radix.root] using h.root
      subst hp
      unfold freewalk freewalkTable
      refine (sat_forEach (I := fun xs s => s = m ∧ ∀ i ∈ xs, i < 512) ?_ ?_).bind ?_
      · exact ⟨rfl, fun i hi => mem_range.mp hi⟩
      · rintro i xs s ⟨rfl, hlt⟩
        have hi := hlt i (mem_cons_self ..)
        have hzero : s.pte page i = 0 := (h.rep i hi).trans (hc i hi)
        exact freewalkEntry_zero hzero ⟨rfl, fun j hj => hlt j (mem_cons_of_mem _ hj)⟩
      · rintro _ s ⟨rfl, -⟩
        exact kfree_sat h.acct
  | succ n ih =>
    cases t with
    | empty => cases h.root
    | node page kid =>
      have hp : page = root := by simpa [Radix.root] using h.root
      subst hp
      unfold freewalk freewalkTable
      refine (sat_forEach (I := fun xs s => Freeing K L m page kid xs s ∧ xs.Nodup) ?_ ?_).bind ?_
      · refine ⟨⟨h.acct.perm perm_middle.symm, ?_, Keeps.refl _ _⟩, nodup_range⟩
        exact fun i hi => ⟨mem_range.mp hi, h.rep i (mem_range.mp hi)⟩
      · rintro i xs s ⟨hs, hnd⟩
        obtain ⟨hixs, hxs⟩ := nodup_cons.mp hnd
        obtain ⟨hi, hword, hrep⟩ := hs.entry i (mem_cons_self ..)
        have hacct := hs.acct
        rw [flatMap_cons, append_assoc] at hacct
        rw [Radix.word] at hword
        cases hk : (kid i).root with
        | none =>
          rw [hk] at hword
          rw [root_eq_none hk] at hacct
          exact freewalkEntry_zero hword
            ⟨⟨hacct, fun j hj => hs.entry j (mem_cons_of_mem _ hj), hs.keeps⟩, hxs⟩
        | some p =>
          rw [hk] at hword
          refine freewalkEntry_link
            (hacct.mem_pool (mem_append_left _ (Radix.root_mem_pages hk))) hword ?_
          refine (ih ⟨hk, hrep, hacct⟩ (hc i hi)).imp ?_
          rintro _ s' ⟨ha, hkeep⟩
          exact ⟨hs.drop hixs ha hkeep, hxs⟩
      · rintro _ s ⟨hs, -⟩
        refine (kfree_sat hs.acct).imp ?_
        exact fun _ s' hs' => ⟨hs'.1, hs.keeps.trans hs'.2⟩

end

end Xv6
