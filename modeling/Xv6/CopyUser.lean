import Xv6.AddrSpace
import Xv6.UserMem

/-! `copyout`, `copyin` and `copyinstr`: they go through the range page by page and stop at
the first page that user code may not touch. -/

namespace Xv6

open Kern List

/-- The first `k` of `len` bytes from `va` on are user bytes; `k` falls short at a page that
is none. -/
structure Reaches (t : Radix Nat 2) (va len k : Nat) : Prop where
  le : k ≤ len
  user : ∀ i < k, UserAt t (va + i)
  stop : k < len → ¬ UserAt t (va + k) ∧ (k = 0 ∨ (va + k) % pgSize = 0)

structure UserStored (t : Radix Nat 2) (m : Mem) (va : Nat) (bs : List UInt8) (m' : Mem) : Prop where
  kernel : ∀ q, (∀ v, userPage t v = true → physPage t v ≠ q) → m'.page q = m.page q
  bytes : ∀ a, UserAt t a → m'.user t a = if va ≤ a ∧ a < va + bs.length then bs.getD (a - va) 0
    else m.user t a
  freelist : m'.freelist = m.freelist

section

variable {t : Radix Nat 2} {m m' m'' : Mem} {root va len k n : Nat} {bs cs : List UInt8}

lemma sub_pgRoundDown (a : Nat) : a - pgRoundDown a = a % pgSize := by
  unfold pgRoundDown pgSize
  omega

lemma pgRoundDown_div (a : Nat) : pgRoundDown a / pgSize = a / pgSize :=
  Nat.mul_div_cancel _ (by decide)

def pageChunk (va len : Nat) : Nat := min (pgSize - va % pgSize) len

lemma pageChunk_le (va len : Nat) : pageChunk va len ≤ len := Nat.min_le_right _ _

lemma pageChunk_pos (va : Nat) (h : 0 < len) : 0 < pageChunk va len := by
  have := Nat.mod_lt va (show 0 < pgSize by decide)
  unfold pageChunk
  omega

lemma pageChunk_page {i : Nat} (hi : i < pageChunk va len) : (va + i) / pgSize = va / pgSize ∧
    (va + i) % pgSize = va % pgSize + i := by
  unfold pageChunk pgSize at *
  omega

lemma pageChunk_user {i : Nat} (hu : UserAt t va) (hi : i < pageChunk va len) : UserAt t (va + i) := by
  unfold UserAt
  rw [(pageChunk_page hi).1]
  exact hu

lemma pageChunk_end (h : pageChunk va len < len) : pgRoundDown va + pgSize = va + pageChunk va len ∧
    (va + pageChunk va len) % pgSize = 0 := by
  unfold pageChunk pgRoundDown pgSize at *
  omega

lemma reaches_zero (len : Nat) (h : ¬ UserAt t va) : Reaches t va len 0 :=
  ⟨Nat.zero_le _, fun i hi => absurd hi (Nat.not_lt_zero i), fun _ => ⟨h, .inl rfl⟩⟩

lemma Reaches.next (hu : UserAt t va)
    (h : Reaches t (va + pageChunk va len) (len - pageChunk va len) k) :
    Reaches t va len (pageChunk va len + k) := by
  have hle := pageChunk_le va len
  have hk := h.le
  refine ⟨by omega, fun i hi => ?_, fun hlt => ?_⟩
  · by_cases hc : i < pageChunk va len
    · exact pageChunk_user hu hc
    · have hi' := h.user (i - pageChunk va len) (by omega)
      rwa [show va + pageChunk va len + (i - pageChunk va len) = va + i by omega] at hi'
  · obtain ⟨hn, hz⟩ := h.stop (by omega)
    rw [Nat.add_assoc] at hn hz
    refine ⟨hn, .inr ?_⟩
    rcases hz with rfl | hz
    · exact (pageChunk_end (by omega)).2
    · exact hz

lemma userStored_nil (t : Radix Nat 2) (m : Mem) (va : Nat) : UserStored t m va [] m := by
  refine ⟨fun _ _ => rfl, fun a _ => ?_, rfl⟩
  rw [length_nil, if_neg (by omega)]

lemma UserStored.append (h : UserStored t m va bs m')
    (h' : UserStored t m' (va + bs.length) cs m'') : UserStored t m va (bs ++ cs) m'' := by
  refine ⟨fun q hq => (h'.kernel q hq).trans (h.kernel q hq), fun a ha => ?_,
    h'.freelist.trans h.freelist⟩
  rw [h'.bytes a ha, h.bytes a ha, length_append]
  by_cases h1 : a < va
  · rw [if_neg (by omega), if_neg (by omega), if_neg (by omega)]
  · by_cases h2 : a < va + bs.length
    · rw [if_neg (by omega), if_pos (by omega), if_pos (by omega), getD_append _ _ _ _ (by omega)]
    · by_cases h3 : a < va + bs.length + cs.length
      · rw [if_pos (by omega), if_pos (by omega), getD_append_right _ _ _ _ (by omega)]
        congr 1
        omega
      · rw [if_neg (by omega), if_neg (by omega), if_neg (by omega)]

lemma UserTable.store (bs : List UInt8) (h : UserTable m root t) (hu : UserAt t va)
    (hlen : bs.length ≤ pgSize - va % pgSize) :
    UserStored t m va bs
    (m.setPage (physPage t (va / pgSize))
      ((m.page (physPage t (va / pgSize))).patch (va % pgSize) bs)) := by
  refine ⟨fun q hq => Mem.page_setPage_of_ne _ _ (hq _ hu).symm, fun a ha => ?_, rfl⟩
  have hmod : a % pgSize < 4096 := Nat.mod_lt a (by decide)
  unfold Mem.user
  by_cases hp : a / pgSize = va / pgSize
  · rw [hp, Mem.page_setPage_self, Bytes.get_patch _ _ _ hmod]
    unfold pgSize at *
    by_cases hin : va ≤ a ∧ a < va + bs.length
    · rw [if_pos (by omega), if_pos hin]
      congr 1
      omega
    · rw [if_neg (by omega), if_neg hin]
  · have hne : physPage t (a / pgSize) ≠ physPage t (va / pgSize) := fun he => hp (h.inj _ _ ha hu he)
    rw [Mem.page_setPage_of_ne _ _ hne, if_neg]
    unfold pgSize at *
    omega

lemma UserTable.stored (h : UserTable m root t) (hs : UserStored t m va bs m') :
    UserTable m' root t := by
  refine { h with toWalkable := h.toWalkable.congr fun q hq => hs.kernel q fun v hv he => ?_ }
  exact h.apart v hv (he ▸ hq)

def Mem.userBytes (m : Mem) (t : Radix Nat 2) (va len : Nat) : List UInt8 :=
  (List.range len).map fun i => m.user t (va + i)

lemma userBytes_length : (m.userBytes t va len).length = len := by simp [Mem.userBytes]

lemma userBytes_add : m.userBytes t va (n + k) = m.userBytes t va n ++ m.userBytes t (va + n) k := by
  unfold Mem.userBytes
  rw [range_add, map_append, map_map]
  congr 1
  refine map_congr_left fun i _ => ?_
  simp [Nat.add_assoc]

lemma userBytes_slice (va len : Nat) (hn : n ≤ pageChunk va len) :
    (m.page (physPage t (va / pgSize))).slice (va % pgSize) n = m.userBytes t va n := by
  refine map_congr_left fun i hi => ?_
  obtain ⟨h1, h2⟩ := pageChunk_page (Nat.lt_of_lt_of_le (mem_range.mp hi) hn)
  rw [Mem.user, h1, h2]

end

section

variable {t : Radix Nat 2} {m : Mem} {root va len rounds : Nat} {src : List UInt8}

lemma walkaddr_user (h : UserTable m root t) (hu : UserAt t va) :
    walkaddr root (pgRoundDown va) m = .ok (physPage t (va / pgSize), m) ∧
    physPage t (va / pgSize) ≠ 0 := by
  have hu' : userPage t (va / pgSize) = true := hu
  rw [walkaddr_eq h.toWalkable, pgRoundDown_div, if_pos hu']
  exact ⟨rfl, h.pos _ hu⟩

lemma walkaddr_none (h : UserTable m root t) (hu : ¬ UserAt t va) :
    walkaddr root (pgRoundDown va) m = .ok (0, m) := by
  have hu' : ¬ userPage t (va / pgSize) = true := hu
  rw [walkaddr_eq h.toWalkable, pgRoundDown_div, if_neg hu']

lemma u64_next (hu : UserAt t va) (h : pageChunk va len < len) :
    u64 (pgRoundDown va + pgSize) = va + pageChunk va len := by
  have hlt := hu.lt
  have hc := (pageChunk_end h).1
  rw [hc, u64_of_lt]
  rw [maxVa_eq] at hlt
  unfold pageChunk pgSize at *
  omega

lemma copyoutLoop_nil (dstva : Nat) : copyoutLoop root rounds dstva [] m = .ok (0, m) := by
  cases rounds <;> rfl

lemma copyoutLoop_eq (va : Nat) (src : List UInt8) (h : UserTable m root t) (hr : src.length ≤ rounds) :
    ∃ k m', copyoutLoop root rounds va src m = .ok (if k = src.length then 0 else -1, m') ∧
      Reaches t va src.length k ∧ UserStored t m va (src.take k) m' := by
  induction rounds generalizing m va src with
  | zero =>
    obtain rfl := eq_nil_of_length_eq_zero (Nat.le_zero.mp hr)
    exact ⟨0, m, rfl, ⟨le_rfl, fun i hi => absurd hi (Nat.not_lt_zero i),
      fun hi => absurd hi (Nat.lt_irrefl 0)⟩, userStored_nil t m va⟩
  | succ rounds ih =>
    unfold copyoutLoop
    by_cases hs : src = []
    · subst hs
      exact ⟨0, m, rfl, ⟨le_rfl, fun i hi => absurd hi (Nat.not_lt_zero i),
        fun hi => absurd hi (Nat.lt_irrefl 0)⟩, userStored_nil t m va⟩
    have hpos : 0 < src.length := length_pos_iff.mpr hs
    have hempty : src.isEmpty = false := by simpa using hs
    simp only [hempty, Bool.false_eq_true, if_false]
    by_cases hu : UserAt t va
    · obtain ⟨hw, h0⟩ := walkaddr_user h hu
      have hc := pageChunk_le va src.length
      have hcp := pageChunk_pos va hpos
      have htake : (src.take (pageChunk va src.length)).length = pageChunk va src.length :=
        length_take_of_le hc
      have hst :=
        h.store (src.take (pageChunk va src.length)) hu (by rw [htake]; exact Nat.min_le_left _ _)
      rw [kern_bind_run hw, if_neg h0, sub_pgRoundDown, kern_bind_run (a := ()) rfl]
      change ∃ k m', copyoutLoop root rounds _ (src.drop (pageChunk va src.length))
        (m.setPage (physPage t (va / pgSize))
          ((m.page (physPage t (va / pgSize))).patch (va % pgSize)
            (src.take (pageChunk va src.length)))) = _ ∧ _
      generalize m.setPage _ _ = m1 at hst ⊢
      by_cases hlast : pageChunk va src.length < src.length
      · obtain ⟨k, m', hrun, hreach, hst'⟩ :=
          ih (va + pageChunk va src.length) (src.drop (pageChunk va src.length))
          (h.stored hst) (by rw [length_drop]; omega)
        rw [length_drop] at hrun hreach
        rw [u64_next hu hlast, hrun]
        refine ⟨pageChunk va src.length + k, m', ?_, hreach.next hu, ?_⟩
        · have := hreach.le
          by_cases hk : k = src.length - pageChunk va src.length
          · rw [if_pos hk, if_pos (by omega)]
          · rw [if_neg hk, if_neg (by omega)]
        · have hall := hst.append (by rw [htake]; exact hst')
          rwa [← take_add] at hall
      · have heq : pageChunk va src.length = src.length := by omega
        rw [heq, drop_length, copyoutLoop_nil]
        rw [heq, take_length] at hst
        refine ⟨src.length, m1, by rw [if_pos rfl],
          ⟨le_rfl, fun i hi => ?_, fun hi => absurd hi (Nat.lt_irrefl _)⟩, ?_⟩
        · rw [← heq] at hi
          exact pageChunk_user hu hi
        · rwa [take_length]
    · have hw := walkaddr_none h hu
      rw [kern_bind_run hw, if_pos rfl]
      refine ⟨0, m, ?_, reaches_zero _ hu, userStored_nil t m va⟩
      rw [if_neg (by omega)]
      rfl

lemma copyinLoop_zero (srcva : Nat) : copyinLoop root rounds srcva 0 m = .ok ((0, []), m) := by
  cases rounds <;> rfl

lemma copyinLoop_eq (va len : Nat) (h : UserTable m root t) (hr : len ≤ rounds) :
    ∃ k, copyinLoop root rounds va len m = .ok
    ((if k = len then 0 else -1, m.userBytes t va k), m) ∧ Reaches t va len k := by
  induction rounds generalizing va len with
  | zero =>
    obtain rfl := Nat.le_zero.mp hr
    exact ⟨0, rfl, ⟨le_rfl, fun i hi => absurd hi (Nat.not_lt_zero i),
      fun hi => absurd hi (Nat.lt_irrefl 0)⟩⟩
  | succ rounds ih =>
    unfold copyinLoop
    by_cases hs : len = 0
    · subst hs
      exact ⟨0, rfl, ⟨le_rfl, fun i hi => absurd hi (Nat.not_lt_zero i),
        fun hi => absurd hi (Nat.lt_irrefl 0)⟩⟩
    simp only [hs, if_false]
    by_cases hu : UserAt t va
    · obtain ⟨hw, h0⟩ := walkaddr_user h hu
      have hc := pageChunk_le va len
      have hcp := pageChunk_pos va (Nat.pos_of_ne_zero hs)
      have hslice := userBytes_slice (m := m) (t := t) va len le_rfl
      rw [kern_bind_run hw, if_neg h0, sub_pgRoundDown, kern_bind_run (a := m) rfl]
      change ∃ k, (copyinLoop root rounds _ (len - pageChunk va len) >>= fun r =>
        pure (r.1, (m.page (physPage t (va / pgSize))).slice (va % pgSize) (pageChunk va len) ++
          r.2)) m = _ ∧ _
      rw [hslice]
      by_cases hlast : pageChunk va len < len
      · obtain ⟨k, hrun, hreach⟩ := ih (va + pageChunk va len) (len - pageChunk va len) (by omega)
        rw [u64_next hu hlast, kern_bind_run hrun]
        refine ⟨pageChunk va len + k, ?_, hreach.next hu⟩
        have := hreach.le
        rw [userBytes_add]
        by_cases hk : k = len - pageChunk va len
        · rw [if_pos hk, if_pos (by omega)]
          rfl
        · rw [if_neg hk, if_neg (by omega)]
          rfl
      · have heq : pageChunk va len = len := by omega
        rw [heq, Nat.sub_self, kern_bind_run (copyinLoop_zero _)]
        refine ⟨len, ?_, ⟨le_rfl, fun i hi => ?_, fun hi => absurd hi (Nat.lt_irrefl _)⟩⟩
        · rw [if_pos rfl, append_nil]
          rfl
        · rw [← heq] at hi
          exact pageChunk_user hu hi
    · have hw := walkaddr_none h hu
      rw [kern_bind_run hw, if_pos rfl]
      refine ⟨0, ?_, reaches_zero _ hu⟩
      rw [if_neg (by omega)]
      rfl

def StringAt (t : Radix Nat 2) (m : Mem) (va k : Nat) : Prop :=
  (∀ i ≤ k, UserAt t (va + i)) ∧ m.user t (va + k) = 0 ∧ ∀ i < k, m.user t (va + i) ≠ 0

lemma copyinstrPage_eq (p : List UInt8) : (0 ∉ p ∧ copyinstrPage p = (p, false)) ∨
      ∃ k, k < p.length ∧ p.getD k 0 = 0 ∧ (∀ i < k, p.getD i 0 ≠ 0) ∧
      copyinstrPage p = (p.take (k + 1), true) := by
  induction p with
  | nil => exact .inl ⟨not_mem_nil, rfl⟩
  | cons c p ih =>
    by_cases hc : c = 0
    · subst hc
      exact .inr ⟨0, by simp, rfl, fun i hi => absurd hi (Nat.not_lt_zero i), by simp [copyinstrPage]⟩
    · rcases ih with ⟨hp, he⟩ | ⟨k, hk, hz, hnz, he⟩
      · refine .inl ⟨by simp [hp, Ne.symm hc], ?_⟩
        rw [copyinstrPage, if_neg hc, he]
      · refine .inr ⟨k + 1, by simpa using hk, hz, fun i hi => ?_, ?_⟩
        · cases i with
          | zero => exact hc
          | succ i => exact hnz i (by omega)
        · rw [copyinstrPage, if_neg hc, he]
          rfl

lemma userBytes_getD (len : Nat) {i : Nat} (hi : i < len) :
    (m.userBytes t va len).getD i 0 = m.user t (va + i) := by
  simp [Mem.userBytes, getD_eq_getElem?_getD, hi]

lemma userBytes_take {k : Nat} (hk : k ≤ len) : (m.userBytes t va len).take k = m.userBytes t va k := by
  simp [Mem.userBytes, ← map_take, take_range, Nat.min_eq_left hk]

lemma copyinstrLoop_zero (srcva : Nat) : copyinstrLoop root rounds srcva 0 m = .ok ((-1, []), m) := by
  cases rounds <;> rfl

lemma copyinstrLoop_eq (va max : Nat) (h : UserTable m root t) (hr : max ≤ rounds) :
    (∃ k < max, StringAt t m va k ∧
      copyinstrLoop root rounds va max m = .ok ((0, m.userBytes t va (k + 1)), m)) ∨
      ∃ k, Reaches t va max k ∧ (∀ i < k, m.user t (va + i) ≠ 0) ∧
        copyinstrLoop root rounds va max m = .ok ((-1, m.userBytes t va k), m) := by
  induction rounds generalizing va max with
  | zero =>
    obtain rfl := Nat.le_zero.mp hr
    exact .inr ⟨0, ⟨le_rfl, fun i hi => absurd hi (Nat.not_lt_zero i),
      fun hi => absurd hi (Nat.lt_irrefl 0)⟩, fun i hi => absurd hi (Nat.not_lt_zero i), rfl⟩
  | succ rounds ih =>
    unfold copyinstrLoop
    by_cases hs : max = 0
    · subst hs
      exact .inr ⟨0, ⟨le_rfl, fun i hi => absurd hi (Nat.not_lt_zero i),
        fun hi => absurd hi (Nat.lt_irrefl 0)⟩, fun i hi => absurd hi (Nat.not_lt_zero i), rfl⟩
    simp only [hs, if_false]
    by_cases hu : UserAt t va
    · obtain ⟨hw, h0⟩ := walkaddr_user h hu
      have hc := pageChunk_le va max
      have hcp := pageChunk_pos va (Nat.pos_of_ne_zero hs)
      have hslice := userBytes_slice (m := m) (t := t) va max le_rfl
      have hpage : ∀ i < pageChunk va max, UserAt t (va + i) := fun i hi => pageChunk_user hu hi
      rw [kern_bind_run hw, if_neg h0, sub_pgRoundDown, kern_bind_run (a := m) rfl]
      rw [show min (pgSize - va % pgSize) max = pageChunk va max from rfl]
      rw [hslice]
      rcases copyinstrPage_eq (m.userBytes t va (pageChunk va max)) with ⟨hnz, he⟩ | ⟨k,
        hk, hz, hnz, he⟩
      · have hbytes : ∀ i < pageChunk va max, m.user t (va + i) ≠ 0 := by
          intro i hi hi0
          refine hnz (mem_map.mpr ⟨i, mem_range.mpr hi, hi0⟩)
        simp only [he, Bool.false_eq_true, if_false]
        by_cases hlast : pageChunk va max < max
        · rw [u64_next hu hlast]
          rcases ih (va + pageChunk va max) (max - pageChunk va max) (by omega) with
            ⟨k, hk, ⟨h1, h2, h3⟩, hrun⟩ | ⟨k, hreach, hnz', hrun⟩
          · refine .inl ⟨pageChunk va max + k, by omega,
              ⟨fun i hi => ?_, by rwa [← Nat.add_assoc], fun i hi => ?_⟩, ?_⟩
            · by_cases hc' : i < pageChunk va max
              · exact hpage i hc'
              · have := h1 (i - pageChunk va max) (by omega)
                rwa [show va + pageChunk va max + (i - pageChunk va max) = va + i by omega] at this
            · by_cases hc' : i < pageChunk va max
              · exact hbytes i hc'
              · have := h3 (i - pageChunk va max) (by omega)
                rwa [show va + pageChunk va max + (i - pageChunk va max) = va + i by omega] at this
            · rw [kern_bind_run hrun, Nat.add_assoc, userBytes_add (n := pageChunk va max)]
              rfl
          · refine .inr ⟨pageChunk va max + k, hreach.next hu, fun i hi => ?_, ?_⟩
            · by_cases hc' : i < pageChunk va max
              · exact hbytes i hc'
              · have := hnz' (i - pageChunk va max) (by omega)
                rwa [show va + pageChunk va max + (i - pageChunk va max) = va + i by omega] at this
            · rw [kern_bind_run hrun, userBytes_add]
              rfl
        · have heq : pageChunk va max = max := by omega
          rw [heq] at hbytes hpage
          refine .inr ⟨max, ⟨le_rfl, hpage, fun hi => absurd hi (Nat.lt_irrefl _)⟩, hbytes, ?_⟩
          rw [heq, Nat.sub_self, kern_bind_run (copyinstrLoop_zero _), append_nil]
          rfl
      · rw [userBytes_length] at hk
        rw [userBytes_getD _ hk] at hz
        refine .inl ⟨k, by omega, ⟨fun i hi => hpage i (by omega), hz, fun i hi => ?_⟩, ?_⟩
        · have := hnz i hi
          rwa [userBytes_getD _ (by omega)] at this
        · simp only [he, if_true]
          rw [userBytes_take (by omega)]
          rfl
    · have hw := walkaddr_none h hu
      rw [kern_bind_run hw, if_pos rfl]
      exact .inr ⟨0, reaches_zero _ hu, fun i hi => absurd hi (Nat.not_lt_zero i), rfl⟩

end

section

variable {K : KernelImage} {L : List Nat} {m : Mem} {root tf n g : Nat} {t : Radix Nat 2}

lemma userPage_lt {v : Nat} (h : userPage t v = true) :
    v < 2 ^ 26 ∧ has (t.val sv39 v) pteU = true := by
  unfold userPage at h
  simp only [Bool.and_eq_true, decide_eq_true_eq] at h
  exact ⟨h.1.1, h.2⟩

lemma Space.userPage_lt (h : Space K L m root tf n g t) {v : Nat}
    (hv : userPage t v = true) : v < n := by
  obtain ⟨hlt, hu⟩ := Xv6.userPage_lt hv
  exact h.user_of_pteU (by omega) hu

lemma Space.userAt (h : Space K L m root tf n g t) {a : Nat} (ha : a / pgSize < n)
    (hg : a / pgSize ≠ g) : UserAt t a := by
  have hn := h.n_le
  obtain ⟨hl, hu⟩ := h.user _ ha
  have hlt : a / pgSize < 2 ^ 26 := by omega
  rw [UserAt, userPage, decide_eq_true hlt, hl.1, hu hg]
  rfl

lemma Space.userTable (h : Space K L m root tf n g t) : UserTable m root t := by
  refine ⟨⟨h.root, h.rep, fun q hq => (mem_pool (h.acct.mem_pool (mem_append_left _ hq))).1⟩,
    fun v hv => ?_, fun v hv => ?_, fun v w hv hw he => ?_⟩
  · exact h.users_pos (mem_users (h.userPage_lt hv))
  · exact h.not_mem_pages (mem_append_left _ (mem_users (h.userPage_lt hv)))
  · have hnd : (users t 0 n).Nodup := (nodup_append.mp (nodup_append.mp h.acct.nodup).2.1).1
    have hinj := inj_on_of_nodup_map hnd
    refine hinj ?_ ?_ he
    · exact mem_range'_1.mpr ⟨Nat.zero_le v, by have := h.userPage_lt hv; omega⟩
    · exact mem_range'_1.mpr ⟨Nat.zero_le w, by have := h.userPage_lt hw; omega⟩

lemma Space.stored (h : Space K L m root tf n g t) {m' : Mem} {va : Nat} {bs : List UInt8}
    (hs : UserStored t m va bs m') : Space K L m' root tf n g t ∧ Keeps L m m' := by
  have hkeep : ∀ q, q ∉ users t 0 n → m'.page q = m.page q := fun q hq =>
    hs.kernel q fun v hv he => hq (he ▸ mem_users (h.userPage_lt hv))
  have hnd := (nodup_append.mp h.acct.nodup).2.1
  refine ⟨h.congr (fun q hq => hkeep q fun hu => ?_) ?_, fun q hq => hkeep q fun hu => ?_⟩
  · exact h.not_mem_pages (mem_append_left _ hu) hq
  · rw [Acct, hs.freelist]
    exact h.acct
  · exact (nodup_append.mp hnd).2.2 q hu q hq rfl

lemma copyout_sat {dstva : Nat} {src : List UInt8} {E : String → Prop}
    (h : Space K L m root tf n g t) :
    (copyout root dstva src).Sat m E fun _ m' => Space K L m' root tf n g t ∧ Keeps L m m' := by
  obtain ⟨k, m', hrun, -, hst⟩ := copyoutLoop_eq dstva src h.userTable (le_refl _)
  exact (sat_of_eq hrun).mpr (h.stored hst)

def smallKernel : KernelImage := ⟨0x80100000, 0x80007000, by decide, by decide, by decide⟩

/-- A kernel that leaves 32 pages. -/
def tinyKernel : KernelImage :=
  ⟨0x87fe0000, 0x80007000, by decide, by decide, smallKernel.trampoline_lt⟩

/-- All of memory is free. -/
def freshMem (K : KernelImage) : Mem := ⟨pool K, fun _ => Bytes.fill 4096 1, fun _ => false, 0⟩

lemma freshMem_acct (K : KernelImage) : Acct K (freshMem K) [] := by
  unfold Acct
  rw [append_nil]
  exact List.Perm.refl _

lemma smallKernel_length : (pool smallKernel).length = 32512 := by
  have hup : pgRoundUp smallKernel.kend = 0x80100000 := by decide
  have hdown : pgRoundDown physTop = 0x88000000 := by decide
  rw [pool, hup, hdown, pagesFrom, length_map, length_range]
  decide

lemma freshMem_grants {K : KernelImage} {k : Nat} (hk : k ≤ (pool K).length) : Grants (freshMem K) k :=
  ⟨hk, fun _ _ => rfl⟩

lemma exists_space : ∃ m root t, Space smallKernel [] m root 0x87fff000 1 1 t := by
  have hp : (procPagetable smallKernel 0x87fff000).Sat (freshMem smallKernel) (fun _ => False) _ :=
    procPagetable_sat (g := 1) (freshMem_acct smallKernel) (by decide)
  obtain ⟨r, m, -, -, hg, hr⟩ := hp.returns
  obtain ⟨hne, hg3⟩ := hg 3 (freshMem_grants (by rw [smallKernel_length]; decide))
  cases r with
  | none => exact absurd rfl hne
  | some root =>
    obtain ⟨t, hs⟩ := hr
    have hf : (uvmfirst root [0]).Sat m (fun _ => False) _ := uvmfirst_sat hs hg3 (by decide)
    obtain ⟨-, m', -, t', hs', -⟩ := hf.returns
    exact ⟨m', root, t', hs'⟩

end

section

variable {t : Radix Nat 2} {m m₂ : Mem} {root va len k j : Nat} {src : List UInt8}

lemma Reaches.all_iff (h : Reaches t va len k) : k = len ↔ ∀ i < len, UserAt t (va + i) := by
  refine ⟨fun he i hi => h.user i (he ▸ hi), fun hall => ?_⟩
  by_contra hne
  have hlt := Nat.lt_of_le_of_ne h.le hne
  exact (h.stop hlt).1 (hall k hlt)

lemma Reaches.unique (h : Reaches t va len k) (h' : Reaches t va len j) : k = j := by
  rcases Nat.lt_trichotomy k j with hlt | he | hlt
  · exact absurd (h'.user k hlt) (h.stop (Nat.lt_of_lt_of_le hlt h'.le)).1
  · exact he
  · exact absurd (h.user j hlt) (h'.stop (Nat.lt_of_lt_of_le hlt h.le)).1

lemma userBytes_congr (h : ∀ i < k, m₂.user t (va + i) = m.user t (va + i)) : m₂.userBytes t va k =
    m.userBytes t va k :=
  map_congr_left fun i hi => h i (mem_range.mp hi)

lemma UserStored.userBytes {m' : Mem} (h : UserStored t m va src m')
    (hu : ∀ i < src.length, UserAt t (va + i)) : m'.userBytes t va src.length = src := by
  refine ext_getElem (by simp [userBytes_length]) fun i hi hi' => ?_
  have hb := h.bytes (va + i) (hu i hi')
  rw [if_pos (by omega), Nat.add_sub_cancel_left] at hb
  simp only [Mem.userBytes, getElem_map, getElem_range, hb]
  simp [getD_eq_getElem?_getD, hi']

/-- `copyout` and `copyin` move the bytes of the range up to the first page that user code
may not touch, and return 0 exactly when there is no such page. What they read or write of
user memory are user bytes only; a copy in after a copy out finds the same bytes. -/
theorem copyout_copyin_exact (h : UserTable m root t) :
    (∀ dstva src, ∃ k m', copyout root dstva src m = .ok (if k = src.length then 0 else -1, m') ∧
      (k = src.length ↔ ∀ i < src.length, UserAt t (dstva + i)) ∧ Reaches t dstva src.length k ∧
      UserStored t m dstva (src.take k) m' ∧
      (k = src.length → copyin root dstva src.length m' = .ok ((0, src), m'))) ∧
    ∀ srcva len, ∃ k,
    copyin root srcva len m = .ok ((if k = len then 0 else -1, m.userBytes t srcva k), m) ∧
      (k = len ↔ ∀ i < len, UserAt t (srcva + i)) ∧ Reaches t srcva len k ∧
      ∀ m₂, UserTable m₂ root t → (∀ a, UserAt t a → m₂.user t a = m.user t a) →
        copyin root srcva len m₂ = .ok ((if k = len then 0 else -1, m.userBytes t srcva k), m₂) := by
  refine ⟨fun dstva src => ?_, fun srcva len => ?_⟩
  · obtain ⟨k, m', hrun, hreach, hst⟩ := copyoutLoop_eq dstva src h (le_refl _)
    refine ⟨k, m', hrun, hreach.all_iff, hreach, hst, fun hk => ?_⟩
    obtain ⟨j, hin, hreach'⟩ := copyinLoop_eq dstva src.length (h.stored hst) (le_refl _)
    have hj : j = src.length := (hreach'.unique hreach).trans hk
    rw [hk, take_length] at hst
    rw [hj, if_pos rfl, hst.userBytes (hreach.all_iff.mp hk)] at hin
    exact hin
  · obtain ⟨k, hrun, hreach⟩ := copyinLoop_eq srcva len h (le_refl _)
    refine ⟨k, hrun, hreach.all_iff, hreach, fun m₂ h₂ hsame => ?_⟩
    obtain ⟨j, hrun2, hreach2⟩ := copyinLoop_eq srcva len h₂ (le_refl _)
    have hjk := hreach2.unique hreach
    subst hjk
    rw [userBytes_congr fun i hi => hsame _ (hreach.user i hi)] at hrun2
    exact hrun2

theorem copyout_copyin_first :
    ∃ (m m' : Mem) (root : Nat) (t : Radix Nat 2), UserTable m root t ∧ UserAt t 5 ∧
    copyout root 5 [1, 2] m = .ok (0, m') ∧ copyin root 5 2 m' = .ok ((0, [1, 2]), m') := by
  obtain ⟨m, root, t, hs⟩ := exists_space
  have h := hs.userTable
  have hu : ∀ i < 2, UserAt t (5 + i) := by
    intro i hi
    have hz : (5 + i) / pgSize = 0 := by
      unfold pgSize
      omega
    exact hs.userAt (by omega) (by omega)
  obtain ⟨k, m', hrun, hall, -, -, hin⟩ := (copyout_copyin_exact h).1 5 [1, 2]
  have hk := hall.mpr hu
  rw [if_pos hk] at hrun
  exact ⟨m, m', root, t, h, hu 0 (by decide), hrun, hin hk⟩

end

section

variable {t : Radix Nat 2} {m m₂ : Mem} {root va k j : Nat}

def strlen (s : List UInt8) : Nat := (s.takeWhile (· != 0)).length

def fetchstr (pagetable addr max : Nat) : Kern Mem (Int × List UInt8) := do
  let r ← copyinstr pagetable addr max
  if r.1 < 0 then pure (-1, r.2) else pure (strlen r.2, r.2)

def argstr (pagetable : Nat) (arg : Nat → Nat) (n max : Nat) : Kern Mem (Int × List UInt8) :=
  fetchstr pagetable (arg n) max

lemma StringAt.unique (h : StringAt t m va k) (h' : StringAt t m va j) : k = j := by
  rcases Nat.lt_trichotomy k j with hlt | he | hlt
  · exact absurd h.2.1 (h'.2.2 k hlt)
  · exact he
  · exact absurd h'.2.1 (h.2.2 j hlt)

lemma StringAt.strlen (h : StringAt t m va k) : strlen (m.userBytes t va (k + 1)) = k := by
  have hall : ∀ c ∈ m.userBytes t va k, (c != 0) = true := by
    intro c hc
    obtain ⟨i, hi, rfl⟩ := mem_map.mp hc
    exact bne_iff_ne.mpr (h.2.2 i (mem_range.mp hi))
  have hlast : m.userBytes t (va + k) 1 = [0] := by
    simp [Mem.userBytes, h.2.1]
  rw [Xv6.strlen, userBytes_add, hlast, takeWhile_append_of_pos hall]
  simp [userBytes_length]

lemma copyinstr_cases (va max : Nat) (h : UserTable m root t) :
    (∃ k < max, StringAt t m va k ∧ copyinstr root va max m = .ok ((0, m.userBytes t va (k + 1)), m)) ∨
      (∃ k ≤ max, copyinstr root va max m = .ok ((-1, m.userBytes t va k), m)) ∧ ∀ k < max,
      ¬ StringAt t m va k := by
  rcases copyinstrLoop_eq va max h (le_refl max) with hs | ⟨k, hreach, hnz, hrun⟩
  · exact .inl hs
  · refine .inr ⟨⟨k, hreach.le, hrun⟩, fun j hj hs => ?_⟩
    by_cases hjk : j < k
    · exact hnz j hjk hs.2.1
    · exact (hreach.stop (by omega)).1 (hs.1 k (by omega))

/-- `copyinstr` returns 0 exactly when user code has a string shorter than `max` at the
address, and then it has stored the string with its NUL and has looked at nothing behind it.
`fetchstr` and `argstr` return the length of the string, or -1. -/
theorem copyinstr_exact (va max : Nat) (h : UserTable m root t) :
    ∃ r out, copyinstr root va max m = .ok ((r, out), m) ∧ (r = 0 ∨ r = -1) ∧ out.length ≤ max ∧
      (r = 0 ↔ ∃ k < max, StringAt t m va k) ∧
      (∀ k < max, StringAt t m va k → out = m.userBytes t va (k + 1) ∧
        (∀ m₂, UserTable m₂ root t → (∀ i ≤ k, m₂.user t (va + i) = m.user t (va + i)) →
          copyinstr root va max m₂ = .ok ((0, out), m₂)) ∧
        ∀ arg n, arg n = va → argstr root arg n max m = .ok (((k : Int), out), m)) ∧
      ((¬ ∃ k < max, StringAt t m va k) → ∀ arg n, arg n = va →
        argstr root arg n max m = .ok ((-1, out), m)) := by
  rcases copyinstr_cases va max h with ⟨k, hk, hs, hrun⟩ | ⟨⟨k, hk, hrun⟩, hno⟩
  · refine ⟨0, _, hrun, .inl rfl, by rw [userBytes_length]; omega,
      ⟨fun _ => ⟨k, hk, hs⟩, fun _ => rfl⟩, ?_, fun hno => absurd ⟨k, hk, hs⟩ hno⟩
    intro j hj hs'
    obtain rfl := hs.unique hs'
    refine ⟨rfl, fun m₂ h₂ hsame => ?_, ?_⟩
    · have hs2 : StringAt t m₂ va k := by
        refine ⟨hs.1, by rw [hsame k le_rfl, hs.2.1], fun i hi => ?_⟩
        rw [hsame i (by omega)]
        exact hs.2.2 i hi
      rcases copyinstr_cases va max h₂ with ⟨j, hj', hs', hrun'⟩ | ⟨-, hno⟩
      · obtain rfl := hs2.unique hs'
        rw [hrun', userBytes_congr fun i hi => hsame i (by omega)]
      · exact absurd hs2 (hno k hj)
    · rintro arg n rfl
      rw [argstr, fetchstr, kern_bind_run hrun, if_neg (Int.not_lt.mpr le_rfl), hs.strlen]
      rfl
  · refine ⟨-1, _, hrun, .inr rfl, by rw [userBytes_length]; omega,
      ⟨fun h0 => absurd h0 (by decide), fun ⟨j, hj, hs⟩ => absurd hs (hno j hj)⟩,
      fun j hj hs => absurd hs (hno j hj), ?_⟩
    rintro - arg n rfl
    rw [argstr, fetchstr, kern_bind_run hrun, if_pos (show (-1 : Int) < 0 by decide)]
    rfl

theorem copyinstr_exact_first : ∃ (m : Mem) (root : Nat) (t : Radix Nat 2), UserTable m root t ∧
    StringAt t m 5 1 ∧ argstr root (fun _ => 5) 0 128 m = .ok ((1, [97, 0]), m) := by
  obtain ⟨m0, root, t, hs⟩ := exists_space
  have hu : ∀ i < 2, UserAt t (5 + i) := by
    intro i hi
    have hz : (5 + i) / pgSize = 0 := by
      unfold pgSize
      omega
    exact hs.userAt (by omega) (by omega)
  obtain ⟨k, m, -, hreach, hst⟩ := copyoutLoop_eq 5 [97, 0] hs.userTable (le_refl _)
  rw [hreach.all_iff.mpr hu, take_length] at hst
  have hbytes : m.userBytes t 5 2 = [97, 0] := hst.userBytes hu
  have h0 : m.user t (5 + 0) = 97 := by rw [← userBytes_getD 2 (by decide), hbytes]; rfl
  have h1 : m.user t (5 + 1) = 0 := by rw [← userBytes_getD 2 (by decide), hbytes]; rfl
  have hstr : StringAt t m 5 1 := by
    refine ⟨fun i hi => hu i (by omega), h1, fun i hi => ?_⟩
    obtain rfl : i = 0 := by omega
    rw [h0]
    decide
  obtain ⟨r, out, -, -, -, -, hin, -⟩ := copyinstr_exact 5 128 (hs.userTable.stored hst)
  obtain ⟨hout, -, harg⟩ := hin 1 (by decide) hstr
  refine ⟨m, root, t, hs.userTable.stored hst, hstr, ?_⟩
  rw [harg (fun _ => 5) 0 rfl, hout, hbytes]
  rfl

end

end Xv6
