import Xv6.ExecImage

/-! The argument block: where `exec` puts the strings and the pointers, and what user code
finds there. -/

namespace Xv6

open Kern List

def round16 (n : Nat) : Nat := (n + 15) / 16 * 16

def strSize (argv : List (List UInt8)) : Nat := (argv.map fun a => round16 (a.length + 1)).sum

def argSize (argv : List (List UInt8)) : Nat := strSize argv + round16 ((argv.length + 1) * 8)

/-- The addresses of the strings. -/
def argPtrs (sp : Nat) : List (List UInt8) → List Nat
  | [] => []
  | a :: argv => (sp - round16 (a.length + 1)) :: argPtrs (sp - round16 (a.length + 1)) argv

/-- Where the strings lie, as address and length. -/
def argRanges (sp : Nat) (argv : List (List UInt8)) : List (Nat × Nat) :=
  (argPtrs sp argv).zip (argv.map fun a => a.length + 1)

/-- Of the user bytes, only those from `lo` to `hi` may have changed, and no other page has. -/
structure ChangedIn (t : Radix Nat 2) (lo hi : Nat) (m m' : Mem) : Prop where
  kernel : ∀ q, (∀ v, userPage t v = true → physPage t v ≠ q) → m'.page q = m.page q
  bytes : ∀ a, UserAt t a → a < lo ∨ hi ≤ a → m'.user t a = m.user t a

/-- Each pointer leads to its string. -/
def StringsAt (t : Radix Nat 2) (m : Mem) (ptrs : List Nat) (argv : List (List UInt8)) : Prop :=
  List.Forall₂ (fun p a => m.userBytes t p (a.length + 1) = a ++ [0]) ptrs argv

section

variable {sp lo n : Nat} {a : List UInt8} {argv : List (List UInt8)}

lemma round16_le (n : Nat) : n ≤ round16 n ∧ round16 n % 16 = 0 := by
  unfold round16
  omega

@[simp] lemma argPtrs_length (sp : Nat) (argv : List (List UInt8)) :
    (argPtrs sp argv).length = argv.length := by
  induction argv generalizing sp with
  | nil => rfl
  | cons a argv ih => simp [argPtrs, ih]

@[simp] lemma strSize_cons : strSize (a :: argv) = round16 (a.length + 1) + strSize argv := by
  simp [strSize]

lemma strSize_mod (argv : List (List UInt8)) : strSize argv % 16 = 0 := by
  induction argv with
  | nil => rfl
  | cons a argv ih =>
    have h := (round16_le (a.length + 1)).2
    rw [strSize_cons]
    omega

lemma argRanges_within (sp : Nat) (argv : List (List UInt8)) (h : strSize argv ≤ sp) :
    ∀ x ∈ argRanges sp argv, sp - strSize argv ≤ x.1 ∧ x.1 + x.2 ≤ sp := by
  induction argv generalizing sp with
  | nil => nofun
  | cons a argv ih =>
    have hr := (round16_le (a.length + 1)).1
    rw [strSize_cons] at h ⊢
    intro x hx
    rw [argRanges, argPtrs, map_cons, zip_cons_cons] at hx
    rcases mem_cons.mp hx with rfl | hx
    · simp only
      omega
    · have hx' := ih (sp - round16 (a.length + 1)) (by omega) x hx
      omega

lemma argRanges_disjoint (sp : Nat) (argv : List (List UInt8)) (h : strSize argv ≤ sp) :
    (argRanges sp argv).Pairwise fun x y => y.1 + y.2 ≤ x.1 := by
  induction argv generalizing sp with
  | nil => exact List.Pairwise.nil
  | cons a argv ih =>
    rw [strSize_cons] at h
    rw [argRanges, argPtrs, map_cons, zip_cons_cons]
    refine List.Pairwise.cons (fun y hy => ?_) (ih (sp - round16 (a.length + 1)) (by omega))
    exact (argRanges_within (sp - round16 (a.length + 1)) argv (by omega) y hy).2

lemma argPtrs_lt (h : sp < 2 ^ 64) : ∀ p ∈ argPtrs sp argv, p < 2 ^ 64 := by
  induction argv generalizing sp with
  | nil => nofun
  | cons a argv ih =>
    intro p hp
    rcases mem_cons.mp hp with rfl | hp
    · omega
    · exact ih (by omega) p hp

namespace ExecSys

lemma pushSp_fit (hal : sp % 16 = 0) (hsp : sp < 2 ^ 64) (hn : n ≤ sp) :
    pushSp sp n = sp - round16 n := by
  have hu : u64 (sp + 2 ^ 64 - n) = sp - n := by
    unfold u64
    omega
  simp only [pushSp, hu, round16]
  omega

lemma pushSp_wrap (hsp : sp < n) (hn : n ≤ 2 ^ 62) : 2 ^ 63 ≤ pushSp sp n := by
  have hu : u64 (sp + 2 ^ 64 - n) = sp + 2 ^ 64 - n := by
    refine u64_of_lt ?_
    omega
  simp only [pushSp, hu]
  omega

end ExecSys

end

section

variable {t : Radix Nat 2} {m m' m'' : Mem} {lo lo' hi hi' va root : Nat} {bs : List UInt8}
  {ptrs : List Nat} {argv : List (List UInt8)}

lemma ChangedIn.refl (t : Radix Nat 2) (lo hi : Nat) (m : Mem) : ChangedIn t lo hi m m :=
  ⟨fun _ _ => rfl, fun _ _ _ => rfl⟩

lemma ChangedIn.trans (h : ChangedIn t lo hi m m') (h' : ChangedIn t lo hi m' m'') :
    ChangedIn t lo hi m m'' :=
  ⟨fun q hq => (h'.kernel q hq).trans (h.kernel q hq), fun a ha hout =>
    (h'.bytes a ha hout).trans (h.bytes a ha hout)⟩

lemma ChangedIn.mono (h : ChangedIn t lo hi m m') (hlo : lo' ≤ lo) (hhi : hi ≤ hi') :
    ChangedIn t lo' hi' m m' :=
  ⟨h.kernel, fun a ha hout => h.bytes a ha (by omega)⟩

lemma UserStored.changedIn (h : UserStored t m va bs m') : ChangedIn t va (va + bs.length) m m' := by
  refine ⟨h.kernel, fun a ha hout => ?_⟩
  rw [h.bytes a ha, if_neg (by omega)]

lemma ChangedIn.userBytes {p k : Nat} (h : ChangedIn t lo hi m m') (hu : ∀ i < k, UserAt t (p + i))
    (hout : hi ≤ p ∨ p + k ≤ lo) : m'.userBytes t p k = m.userBytes t p k :=
  userBytes_congr fun i hi => h.bytes _ (hu i hi) (by omega)

end

namespace ExecSys

section

variable {K : KernelImage} {L : List Nat} {m : Mem} {root tf n g sp argc : Nat} {t : Radix Nat 2}
  {E : String → Prop} {argv : List (List UInt8)}

lemma copyout_stack (va : Nat) (src : List UInt8) (h : Space K L m root tf (n + 2) n t)
    (hlo : (n + 1) * pgSize ≤ va) (hhi : va + src.length ≤ (n + 2) * pgSize) :
    ∃ m', copyout root va src m = .ok (0, m') ∧ UserStored t m va src m' ∧
    m'.userBytes t va src.length = src := by
  have hu : ∀ i < src.length, UserAt t (va + i) := by
    intro i hi
    refine h.userAt ?_ ?_
    · unfold pgSize at *
      omega
    · unfold pgSize at *
      omega
  obtain ⟨k, m', hrun, hreach, hst⟩ := copyoutLoop_eq va src h.userTable (le_refl _)
  have hk : k = src.length := hreach.all_iff.mpr hu
  rw [hk, if_pos rfl] at hrun
  rw [hk, take_length] at hst
  exact ⟨m', hrun, hst, hst.userBytes hu⟩

lemma copyout_far {va : Nat} (src : List UInt8) (h : Space K L m root tf (n + 2) n t)
    (hfar : 2 ^ 63 ≤ va) (hsrc : src ≠ []) : ∃ m', copyout root va src m = .ok (-1, m') := by
  obtain ⟨k, m', hrun, hreach, -⟩ := copyoutLoop_eq va src h.userTable (le_refl _)
  have hk : k ≠ src.length := by
    intro he
    have hlt := (hreach.all_iff.mp he 0 (length_pos_iff.mpr hsrc)).lt
    rw [maxVa_eq] at hlt
    unfold pgSize at hlt
    omega
  rw [if_neg hk] at hrun
  exact ⟨m', hrun⟩

lemma copyout_space (h : Space K L m root tf n g t) {va : Nat} {src : List UInt8} {e : Int} {m' : Mem}
    (hrun : copyout root va src m = .ok (e, m')) : Space K L m' root tf n g t ∧ Keeps L m m' := by
  have hs : (copyout root va src).Sat m (fun _ => True) _ := copyout_sat h
  exact hs.of_ok hrun

/-- The loop over the strings, by induction on the strings that are left. -/
lemma pushStrings_sat (h : Space K L m root tf (n + 2) n t) (hal : sp % 16 = 0)
    (hlo : (n + 1) * pgSize ≤ sp) (hhi : sp ≤ (n + 2) * pgSize)
    (hargc : argc + argv.length ≤ maxarg) (hlen : ∀ a ∈ argv, a.length < 2 ^ 61) :
    (pushStrings root ((n + 1) * pgSize) argc sp argv).Sat m E fun r m' =>
      Space K L m' root tf (n + 2) n t ∧ Keeps L m m' ∧
      ((n + 1) * pgSize + strSize argv ≤ sp → r = some (sp - strSize argv, argPtrs sp argv) ∧
        ChangedIn t (sp - strSize argv) sp m m' ∧ StringsAt t m' (argPtrs sp argv) argv) ∧
      (sp < (n + 1) * pgSize + strSize argv → r = none) := by
  have hn := h.n_le
  induction argv generalizing sp argc m with
  | nil =>
    refine sat_pure.mpr ⟨h, Keeps.refl _ _, fun _ => ⟨rfl, ?_, List.Forall₂.nil⟩, fun hlt => ?_⟩
    · exact ChangedIn.refl _ _ _ _
    · simp only [strSize, map_nil, sum_nil] at hlt
      omega
  | cons a argv ih =>
    have ha := hlen a (mem_cons_self ..)
    have hr := round16_le (a.length + 1)
    have hsp64 : sp < 2 ^ 64 := by
      unfold pgSize at *
      omega
    rw [length_cons] at hargc
    unfold pushStrings
    rw [if_neg (by omega), strSize_cons]
    by_cases hwrap : sp < a.length + 1
    · -- The stack pointer is far above the process, where `copyout` fails.
      have hfar := pushSp_wrap hwrap (by omega)
      obtain ⟨m1, hrun⟩ := copyout_far (a ++ [0]) h hfar (by simp)
      obtain ⟨h₁, hk1⟩ := copyout_space h hrun
      rw [if_neg (by unfold pgSize at *; omega), sat_bind, sat_of_eq hrun, if_pos (by decide)]
      exact sat_pure.mpr ⟨h₁, hk1, fun hle => by omega, fun _ => rfl⟩
    rw [pushSp_fit hal hsp64 (by omega)]
    by_cases hbase : sp - round16 (a.length + 1) < (n + 1) * pgSize
    · rw [if_pos hbase]
      exact sat_pure.mpr ⟨h, Keeps.refl _ _, fun hle => by omega, fun _ => rfl⟩
    rw [if_neg hbase]
    have hround : round16 (a.length + 1) ≤ sp := by
      unfold round16
      omega
    obtain ⟨m1, hrun, hst, hstr⟩ := copyout_stack (sp - round16 (a.length + 1)) (a ++ [0]) h (by omega)
      (by rw [length_append, length_singleton]; omega)
    obtain ⟨h₁, hk1⟩ := copyout_space h hrun
    rw [sat_bind, sat_of_eq hrun, if_neg (by decide)]
    refine (ih h₁ (by omega) (by omega) (by omega) (by omega) fun x hx =>
      hlen x (mem_cons_of_mem _ hx)).bind ?_
    rintro r m2 ⟨h₂, hk2, hfit, hno⟩
    have hl : (a ++ [0]).length = a.length + 1 := by simp
    rw [hl] at hstr
    by_cases hle : (n + 1) * pgSize + strSize argv ≤ sp - round16 (a.length + 1)
    · obtain ⟨rfl, hch, hss⟩ := hfit hle
      have hstr2 : m2.userBytes t (sp - round16 (a.length + 1)) (a.length + 1) = a ++ [0] := by
        rw [hch.userBytes (fun i hi => ?_) (.inl le_rfl), hstr]
        refine h.userAt ?_ ?_
        · unfold pgSize at *
          omega
        · unfold pgSize at *
          omega
      refine sat_pure.mpr ⟨h₂, hk1.trans hk2, fun _ => ⟨?_, ?_, List.Forall₂.cons hstr2 hss⟩,
        fun hlt => by omega⟩
      · rw [argPtrs, Nat.sub_add_eq]
      · have hst' := hst.changedIn
        rw [hl] at hst'
        exact (hst'.mono (by omega) (by omega)).trans (hch.mono (by omega) (by omega))
    · rw [hno (by omega)]
      exact sat_pure.mpr ⟨h₂, hk1.trans hk2, fun hle' => by omega, fun _ => rfl⟩

structure ArgBlock (t : Radix Nat 2) (m : Mem) (sz : Nat) (argv : List (List UInt8))
    (m' : Mem) : Prop where
  changed : ChangedIn t (sz - argSize argv) sz m m'
  words : m'.userBytes t (sz - argSize argv)
    ((argv.length + 1) * 8) = (argPtrs sz argv ++ [0]).flatMap (Bytes.leBytes 8)
  strings : StringsAt t m' (argPtrs sz argv) argv

lemma flatMap_leBytes_length (l : List Nat) : (l.flatMap (Bytes.leBytes 8)).length = l.length * 8 := by
  induction l with
  | nil => rfl
  | cons a l ih =>
    rw [flatMap_cons, length_append, Bytes.leBytes_length, ih, length_cons]
    omega

lemma stringsAt_congr (lo : Nat) {t : Radix Nat 2} {m m' : Mem} {sp : Nat} {argv : List (List UInt8)}
    (h : StringsAt t m (argPtrs sp argv) argv) (hfit : lo + strSize argv ≤ sp)
    (hsame : ∀ a, lo ≤ a → a < sp → m'.user t a = m.user t a) : StringsAt t m'
    (argPtrs sp argv) argv := by
  induction argv generalizing sp with
  | nil => exact List.Forall₂.nil
  | cons a argv ih =>
    have hr := (round16_le (a.length + 1)).1
    rw [strSize_cons] at hfit
    unfold StringsAt at *
    rw [argPtrs] at h ⊢
    obtain ⟨h1, h2⟩ := forall₂_cons.mp h
    refine List.Forall₂.cons ?_ (ih h2 (by omega) fun x h3 h4 => hsame x h3 (by omega))
    rw [userBytes_congr fun i hi => hsame _ (by omega) (by omega), h1]

lemma pushArgs_sat (h : Space K L m root tf (n + 2) n t) (hargc : argv.length < maxarg)
    (hlen : ∀ a ∈ argv, a.length < 2 ^ 61) : (pushArgs root ((n + 2) * pgSize) argv).Sat m E
    fun r m' => Space K L m' root tf (n + 2) n t ∧ Keeps L m m' ∧
    (argSize argv ≤ pgSize → r = some ((n + 2) * pgSize - argSize argv) ∧
      ArgBlock t m ((n + 2) * pgSize) argv m') ∧ (pgSize < argSize argv → r = none) := by
  have hn := h.n_le
  have hbase : (n + 2) * pgSize - pgSize = (n + 1) * pgSize := by
    unfold pgSize
    omega
  have hal : (n + 2) * pgSize % 16 = 0 := by
    unfold pgSize
    omega
  have hmod := strSize_mod argv
  have hround := round16_le ((argv.length + 1) * 8)
  unfold pushArgs
  simp only [hbase]
  refine (pushStrings_sat h hal (Nat.mul_le_mul_right _ (by omega)) le_rfl (by omega) hlen).bind ?_
  rintro r m1 ⟨h₁, hk1, hfit, hno⟩
  unfold argSize
  by_cases hle : (n + 1) * pgSize + strSize argv ≤ (n + 2) * pgSize
  · obtain ⟨rfl, hch, hss⟩ := hfit hle
    have hpush : pushSp ((n + 2) * pgSize - strSize argv) ((argv.length + 1) * 8) =
        (n + 2) * pgSize - strSize argv - round16 ((argv.length + 1) * 8) := by
      refine pushSp_fit (by omega) (by unfold pgSize; omega) ?_
      unfold maxarg pgSize at *
      omega
    simp only [hpush]
    by_cases hlow : (n + 2) * pgSize - strSize argv - round16 ((argv.length + 1) * 8) < (n + 1) * pgSize
    · rw [if_pos hlow]
      refine sat_pure.mpr ⟨h₁, hk1, fun hok => ?_, fun _ => rfl⟩
      unfold maxarg pgSize at *
      omega
    rw [if_neg hlow]
    have hwl : ((argPtrs ((n + 2) * pgSize) argv ++ [0]).flatMap (Bytes.leBytes 8)).length =
      (argv.length + 1) * 8 := by
      rw [flatMap_leBytes_length, length_append, argPtrs_length, length_singleton]
    have hsub : (n + 2) * pgSize - strSize argv - round16 ((argv.length + 1) * 8) =
        (n + 2) * pgSize - (strSize argv + round16 ((argv.length + 1) * 8)) :=
        (Nat.sub_add_eq _ _ _).symm
    have hr16 : round16 ((argv.length + 1) * 8) ≤ 256 := by
      unfold round16 maxarg at *
      omega
    obtain ⟨m2, hrun, hst, hwords⟩ := copyout_stack
      ((n + 2) * pgSize - strSize argv - round16 ((argv.length + 1) * 8))
      ((argPtrs ((n + 2) * pgSize) argv ++ [0]).flatMap (Bytes.leBytes 8)) h₁ (by omega)
      (by rw [hwl]; unfold pgSize at *; omega)
    obtain ⟨h₂, hk2⟩ := copyout_space h₁ hrun
    have hch2 := hst.changedIn
    rw [hwl, hsub] at hch2
    rw [hwl, hsub] at hwords
    rw [sat_bind, sat_of_eq hrun, if_neg (by decide)]
    refine sat_pure.mpr ⟨h₂, hk1.trans hk2, fun hok => ⟨by rw [hsub], ?_, hwords, ?_⟩, fun hlt => ?_⟩
    · refine (hch.mono ?_ le_rfl).trans (hch2.mono le_rfl ?_)
      · unfold argSize
        omega
      · unfold pgSize at *
        omega
    · refine stringsAt_congr ((n + 2) * pgSize - strSize argv) hss (by unfold pgSize at *; omega)
        fun a h3 h4 => ?_
      refine hch2.bytes a (h.userAt ?_ ?_) (.inr ?_)
      all_goals
        unfold pgSize at *
        omega
    · unfold pgSize at *
      omega
  · rw [hno (by omega)]
    refine sat_pure.mpr ⟨h₁, hk1, fun hok => ?_, fun _ => rfl⟩
    unfold pgSize at *
    omega

end

end ExecSys

end Xv6
