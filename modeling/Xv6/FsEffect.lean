import Xv6.FsCalls

/-! The ways in which a system call changes the files: at most one change to the
directories, and then inodes are freed and files are written. An inode of `keep`, which is
referenced throughout, stays what it is. -/

namespace Xv6

open Function (update update_comm update_of_ne update_self)

inductive MinorEffect (keep : List Nat) (N N' : Nat → Option FileNode) : Prop
  | free (i : Nat) (m : FileNode) (hm : N i = some m) (hz : m.nlink = 0) (hi : i ∉ keep)
      (hN : N' = update N i none)
  | store (i : Nat) (m m' : FileNode) (hm : N i = some m) (ht : m.type ≠ tDir)
      (htype : m'.type = m.type) (hlink : m'.nlink = m.nlink) (hN : N' = update N i (some m'))

/-- Any number of minor effects. -/
def Minors (keep : List Nat) : (Nat → Option FileNode) → (Nat → Option FileNode) → Prop :=
  Relation.ReflTransGen (MinorEffect keep)

/-- `P` are directories that path lookup may reach, `W` the names that may be entered. -/
inductive MajorEffect (P : Nat → Prop) (W : List UInt8 → Prop) (N N' : Nat → Option FileNode) : Prop
  | make (d i k type major minor : Nat) (name : List UInt8) (md : FileNode)
      (htype : type < 2 ^ 16) (hP : P d) (hname : W name) (hmd : N d = some md)
      (ht : md.type = tDir)
      (hsz : md.size % 16 = 0) (hno : ∀ j, ¬ md.Names name j)
      (hfree : md.FreeAt k) (hnew : N i = none) (hi : i ≠ 0)
      (hN : N' = withFile N d i k type name (FileNode.made type major minor) md)
  | link (i d k : Nat) (name : List UInt8) (m md : FileNode) (hPi : P i) (hm : N i = some m)
      (hfile : m.type ≠ tDir) (hP : P d) (hname : W name) (hmd : N d = some md)
      (ht : md.type = tDir)
      (hsz : md.size % 16 = 0) (hno : ∀ j, ¬ md.Names name j) (hfree : md.FreeAt k)
      (hN : N' = update (update N i (some m.incNlink)) d (some (md.linked k i name)))
  | unlink (i d k : Nat) (name : List UInt8) (m md m' : FileNode) (hP : P d)
      (hdot : ¬ (namecmp name dot = 0 ∨ namecmp name dotdot = 0)) (hmd : N d = some md)
      (ht : md.type = tDir)
      (hk : md.Names name k) (hi : (md.entry k).inum = i) (hm : N i = some m) (hpos : 1 ≤ short m.nlink)
      (hempty : m.type = tDir → m.Bare)
      (hm' : update N d (some (md.unlinked k (m.type = tDir))) i = some m')
      (hN : N' = update (update N d (some (md.unlinked k (m.type = tDir)))) i (some m'.decNlink))

def Evolves (keep : List Nat) (P : Nat → Prop) (W : List UInt8 → Prop)
    (N N' : Nat → Option FileNode) : Prop :=
  ∃ N₁, (N₁ = N ∨ MajorEffect P W N N₁) ∧ Minors keep N₁ N'

section

variable {keep : List Nat} {P : Nat → Prop} {W : List UInt8 → Prop} {N N' : Nat → Option FileNode}
  {refs : List (Nat × Nat)} {i : Nat} {m : FileNode}

lemma Minors.refl : Minors keep N N := Relation.ReflTransGen.refl

lemma Minors.of_eq (h : N' = N) : Minors keep N N' := h ▸ Minors.refl

variable {N₁ N2 : Nat → Option FileNode} {keep' : List Nat} {elems : List (List UInt8)}

lemma Minors.trans (h : Minors keep N N₁) (h' : Minors keep N₁ N2) :
    Minors keep N N2 :=
  Relation.ReflTransGen.trans h h'

lemma Minors.mono (h : Minors keep N N') (hk : ∀ i ∈ keep', i ∈ keep) : Minors keep' N N' := by
  refine Relation.ReflTransGen.mono (fun A B he => ?_) _ _ h
  cases he with
  | free i m hm hz hi hN => exact .free i m hm hz (fun hh => hi (hk i hh)) hN
  | store i m m' hm ht htype hlink hN => exact .store i m m' hm ht htype hlink hN

lemma MinorEffect.minors (h : MinorEffect keep N N') : Minors keep N N' :=
  Relation.ReflTransGen.single h

lemma Minors.evolves (h : Minors keep N N') : Evolves keep P W N N' := ⟨N, .inl rfl, h⟩

lemma Evolves.of_eq (h : N' = N) : Evolves keep P W N N' := (Minors.of_eq h).evolves

lemma Evolves.minors (h : Evolves keep P W N N₁) (h' : Minors keep N₁ N') :
    Evolves keep P W N N' := by
  obtain ⟨N0, h0, h1⟩ := h
  exact ⟨N0, h0, h1.trans h'⟩

lemma Evolves.mono (h : Evolves keep P W N N') (hk : ∀ i ∈ keep', i ∈ keep) :
    Evolves keep' P W N N' := by
  obtain ⟨N₁, h0, h1⟩ := h
  exact ⟨N₁, h0, h1.mono hk⟩

lemma Evolves.names {W' : List UInt8 → Prop} (h : Evolves keep P W N N')
    (hW : ∀ name, W name → W' name) : Evolves keep P W' N N' := by
  obtain ⟨N₁, h0, h1⟩ := h
  refine ⟨N₁, h0.imp_right fun he => ?_, h1⟩
  cases he with
  | make d i k type major minor name md htype hP hname hmd ht hsz hno hfree hnew hi hN =>
    exact .make d i k type major minor name md htype hP (hW name hname) hmd ht hsz hno hfree hnew hi hN
  | link i d k name m md hPi hm hfile hP hname hmd ht hsz hno hfree hN =>
    exact .link i d k name m md hPi hm hfile hP (hW name hname) hmd ht hsz hno hfree hN
  | unlink i d k name m md m' hP hdot hmd ht hk hi hm hpos hempty hm' hN =>
    exact .unlink i d k name m md m' hP hdot hmd ht hk hi hm hpos hempty hm' hN

lemma putNode_minors (hk : ∀ j ∈ keep, j ∈ refs.map Prod.snd)
    (i : Nat) : Minors keep N (putNode N refs i) := by
  cases hm : N i with
  | none =>
    refine Minors.of_eq (putNode_eq_self fun m hm' => ?_)
    rw [hm] at hm'
    cases hm'
  | some m =>
    by_cases hc : m.nlink = 0 ∧ i ∉ refs.map Prod.snd
    · exact (MinorEffect.free i m hm hc.1 (fun hi => hc.2 (hk i hi)) (putNode_last hm hc.1 hc.2)).minors
    · refine Minors.of_eq (putNode_eq_self fun m' hm' hz => ?_)
      rw [hm] at hm'
      cases hm'
      by_contra hno
      exact hc ⟨hz, hno⟩

lemma Created.evolves {c type major minor ip : Nat} {path : List UInt8}
    (h : Created N N' refs P c path type major minor ip i) (htype : type < 2 ^ 16)
    (hk : ∀ j ∈ keep, j ∈ refs.map Prod.snd) : Evolves keep P (fun name =>
      name ∈ pathElems path.length path) N N' := by
  cases h with
  | found _ _ _ _ _ _ hN => exact Evolves.of_eq hN
  | made d k name md _ hP hname hmd ht hsz hno hfree hnew hi hN =>
    have hk' : ∀ j ∈ keep, j ∈ ((ip, i) :: refs).map Prod.snd :=
      fun j hj => List.mem_cons_of_mem _ (hk j hj)
    refine ⟨_, .inr
      (.make d i k type major minor name md htype hP hname hmd ht hsz hno hfree hnew hi rfl), ?_⟩
    rw [hN]
    exact putNode_minors hk' d

lemma LinkMade.evolves (h : LinkMade N N' refs P elems)
    (hk : ∀ j ∈ keep, j ∈ refs.map Prod.snd) : Evolves keep P (fun name => name ∈ elems) N N' := by
  obtain ⟨i, d, k, name, m, md, hPi, hm, hfile, hP, hname, hmd, ht, hsz, hno, hfree, hN⟩ := h
  refine ⟨_, .inr (.link i d k name m md hPi hm hfile hP hname hmd ht hsz hno hfree rfl), ?_⟩
  rw [hN]
  exact putNode_minors hk i

lemma putNode_update_of_ne {d : Nat} {v : Option FileNode} (h : d ≠ i) :
    update (putNode N refs d) i v = putNode (update N i v) refs d := by
  unfold putNode
  rw [update_of_ne h]
  cases N d with
  | none => rfl
  | some m =>
    by_cases hc : m.nlink = 0 ∧ d ∉ refs.map Prod.snd
    · simp only [if_pos hc]
      exact update_comm h _ _ _
    · simp only [if_neg hc]

lemma Unlinked.evolves (h : Unlinked N N' refs P elems)
    (hk : ∀ j ∈ keep, j ∈ refs.map Prod.snd) : Evolves keep P W N N' := by
  obtain ⟨ip, i, d, k, name, m, md, m', hP, hname, hdot, hmd, ht, hkk, hi, hm, hpos,
    hempty, hm', hN⟩ := h
  by_cases hdi : d = i
  · subst hdi
    have hself : ∀ A : Nat → Option FileNode, putNode A ((ip, d) :: refs) d = A := fun A =>
      putNode_eq_self fun _ _ _ => List.mem_cons_self
    rw [hself] at hm' hN
    refine ⟨_, .inr (.unlink d d k name m md m' hP hdot hmd ht hkk hi hm hpos hempty hm' rfl), ?_⟩
    rw [hN]
    exact putNode_minors hk d
  · rw [putNode_of_ne (Ne.symm hdi)] at hm'
    have hk' : ∀ j ∈ keep, j ∈ ((ip, i) :: refs).map Prod.snd :=
      fun j hj => List.mem_cons_of_mem _ (hk j hj)
    refine ⟨_, .inr (.unlink i d k name m md m' hP hdot hmd ht hkk hi hm hpos hempty hm' rfl), ?_⟩
    rw [hN, putNode_update_of_ne hdi]
    exact (putNode_minors hk' d).trans (putNode_minors hk i)

/-- The inodes of `keep` stay, with their types. -/
def Kept (keep : List Nat) (N N' : Nat → Option FileNode) : Prop :=
  ∀ j ∈ keep, ∀ m, N j = some m → ∃ m', N' j = some m' ∧ m'.type = m.type

lemma Kept.trans (h : Kept keep N N₁) (h' : Kept keep N₁ N2) : Kept keep N N2 := by
  intro j hj m hm
  obtain ⟨m1, hm1, ht1⟩ := h j hj m hm
  obtain ⟨m2, hm2, ht2⟩ := h' j hj m1 hm1
  exact ⟨m2, hm2, ht2.trans ht1⟩

lemma kept_update {m' : FileNode} (hm : ∀ m, N i = some m → m'.type = m.type) :
    Kept keep N (update N i (some m')) := by
  intro j _ m hj
  by_cases hji : j = i
  · rw [hji] at hj ⊢
    exact ⟨m', update_self _ _ _, hm m hj⟩
  · exact ⟨m, by rw [update_of_ne hji, hj], rfl⟩

lemma FileNode.unlinked_type (m : FileNode) (k : Nat) (dir : Prop) [Decidable dir] :
    (m.unlinked k dir).type = m.type := by
  unfold unlinked
  split
  · exact (FileNode.same_setNlink _ _).1
  · rfl

lemma FileNode.parentOf_type (m : FileNode) (k i type : Nat) (name : List UInt8) :
    (m.parentOf k i type name).type = m.type := by
  unfold parentOf
  split
  · exact (FileNode.same_setNlink _ _).1
  · rfl

lemma MinorEffect.kept (h : MinorEffect keep N N') : Kept keep N N' := by
  cases h with
  | free i m hm hz hi hN =>
    intro j hj m' hm'
    have hji : j ≠ i := fun he => hi (he ▸ hj)
    exact ⟨m', by rw [hN, update_of_ne hji, hm'], rfl⟩
  | store i m m' hm ht htype hlink hN =>
    rw [hN]
    refine kept_update fun m1 hm1 => ?_
    rw [hm] at hm1
    cases hm1
    exact htype

lemma MajorEffect.kept (h : MajorEffect P W N N') : Kept keep N N' := by
  cases h with
  | make d i k type major minor name md htype hP hname hmd ht hsz hno hfree hnew hi hN =>
    rw [hN]
    have hdi : d ≠ i := by
      rintro rfl
      rw [hnew] at hmd
      cases hmd
    refine (kept_update fun m hm => ?_).trans (kept_update fun m hm => ?_)
    · rw [hnew] at hm
      cases hm
    · rw [update_of_ne hdi, hmd] at hm
      cases hm
      exact FileNode.parentOf_type _ _ _ _ _
  | link i d k name m md hPi hm hfile hP hname hmd ht hsz hno hfree hN =>
    rw [hN]
    have hdi : d ≠ i := by
      rintro rfl
      rw [hm] at hmd
      cases hmd
      exact hfile ht
    refine (kept_update fun m1 hm1 => ?_).trans (kept_update fun m1 hm1 => ?_)
    · rw [hm] at hm1
      cases hm1
      exact (FileNode.same_setNlink _ _).1
    · rw [update_of_ne hdi, hmd] at hm1
      cases hm1
      rfl
  | unlink i d k name m md m' hP hdot hmd ht hk hi hm hpos hempty hm' hN =>
    rw [hN]
    refine (kept_update fun m1 hm1 => ?_).trans (kept_update fun m1 hm1 => ?_)
    · rw [hmd] at hm1
      cases hm1
      exact FileNode.unlinked_type _ _ _
    · rw [hm'] at hm1
      cases hm1
      exact (FileNode.same_setNlink _ _).1

lemma Minors.kept (h : Minors keep N N') : Kept keep N N' := by
  induction h with
  | refl => exact fun j _ m hm => ⟨m, hm, rfl⟩
  | tail _ he ih => exact ih.trans he.kept

lemma Evolves.kept (h : Evolves keep P W N N') : Kept keep N N' := by
  obtain ⟨N₁, rfl | h0, h1⟩ := h
  · exact h1.kept
  · exact h0.kept.trans h1.kept

lemma Kept.alive (h : Kept (refs.map Prod.snd) N N') (ha : Alive N refs) : Alive N' refs := by
  intro ip i hr
  obtain ⟨m, hm⟩ := Option.ne_none_iff_exists'.mp (ha hr)
  obtain ⟨m', hm', -⟩ := h i (List.mem_map_of_mem hr) m hm
  rw [hm']
  exact Option.some_ne_none _

end

end Xv6
