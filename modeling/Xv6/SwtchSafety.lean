import Xv6.SwtchModel

/-! A process runs on one cpu at a time. The lock that a cpu holds can be read off from
where it is: from its place in `scheduler`, or from the next step of its process. -/

namespace Xv6

open List
open Function (update_self update_of_ne update)

def SwtchInstr.lock (p : Nat) : SwtchInstr → Option Nat
  | .acquire _ | .wakeLoop _ _ | .killLoop _ _ => none
  | .release i | .state i _ | .chan i _ | .wake _ i | .kill _ i _ => some i
  | .sched => some p

def codeLock (p : Nat) : List SwtchInstr → Option Nat
  | [] => none
  | x :: _ => x.lock p

def CodeState : List SwtchInstr → ProcState → Prop
  | [.sched], x => x = .zombie
  | .sched :: _ :: _, x => x = .runnable ∨ x = .sleeping
  | _, x => x = .running

def Resumes (p : Nat) (l : List SwtchInstr) : Prop := codeLock p l = some p ∧ CodeState l .running

/-- Code that acquires and releases one `p->lock` after the other. -/
inductive SwtchCode (n p : Nat) : List SwtchInstr → Prop
  | nil : SwtchCode n p []
  | acquire {l : List SwtchInstr} (h : SwtchCode n p l) (hl : Resumes p l) :
      SwtchCode n p (.acquire p :: l)
  | release {l : List SwtchInstr} (i : Nat) (h : SwtchCode n p l) (hl : codeLock p l = none) :
      SwtchCode n p (.release i :: l)
  | chan {l : List SwtchInstr} (ch : Nat) (h : SwtchCode n p l) (hl : Resumes p l) :
      SwtchCode n p (.chan p ch :: l)
  | state {l : List SwtchInstr} (x : ProcState) (h : SwtchCode n p (.sched :: l))
      (hx : CodeState (.sched :: l) x) : SwtchCode n p (.state p x :: .sched :: l)
  | sched {l : List SwtchInstr} (h : SwtchCode n p l) (hl : l = [] ∨ Resumes p l) :
      SwtchCode n p (.sched :: l)
  | wakeLoop {l : List SwtchInstr} (ch : Nat) (is : List Nat) (h : SwtchCode n p l)
      (hl : codeLock p l = none) (hn : ∀ i ∈ is, i < n) : SwtchCode n p (.wakeLoop ch is :: l)
  | wake {l : List SwtchInstr} (ch i : Nat) (h : SwtchCode n p (.release i :: l)) :
      SwtchCode n p (.wake ch i :: .release i :: l)
  | killLoop {l : List SwtchInstr} (pid : Nat) (is : List Nat) (h : SwtchCode n p l)
      (hl : codeLock p l = none) (hn : ∀ i ∈ is, i < n) : SwtchCode n p (.killLoop pid is :: l)
  | kill {l : List SwtchInstr} (pid i : Nat) (is : List Nat) (h : SwtchCode n p l)
      (hl : codeLock p l = none) (hn : ∀ j ∈ is, j < n) : SwtchCode n p (.kill pid i is :: l)

/-- The lock that a cpu holds. -/
def SwtchCpu.lock (todo : Nat → List SwtchInstr) : SwtchCpu → Option Nat
  | .scan _ => none
  | .look i | .chosen i | .assign i | .enter i | .back i | .drop i => some i
  | .runs p => codeLock p (todo p)

def SwtchSys.holds (s : SwtchSys) (c : Nat) : Option Nat := (s.cpu c).lock s.todo

/-- No cpu is in the process `p`. -/
def SwtchSys.Away (s : SwtchSys) (p : Nat) : Prop := ∀ c, s.cpu c ≠ .runs p

def SwtchSys.At (n : Nat) (s : SwtchSys) (c : Nat) : SwtchCpu → Prop
  | .scan _ | .look _ | .drop _ => s.cproc c = none
  | .chosen i => s.state i = .runnable ∧ s.cproc c = none
  | .assign i => (s.state i = .running ∧ s.Away i) ∧ s.cproc c = none
  | .enter i => (s.state i = .running ∧ s.Away i) ∧ s.cproc c = some i
  | .runs p => (p < n ∧ CodeState (s.todo p) (s.state p)) ∧ s.cproc c = some p
  | .back i => s.Away i ∧ s.cproc c = some i

structure Parked (s : SwtchSys) (p : Nat) : Prop where
  code : s.state p = .runnable ∨ s.state p = .sleeping ∨ s.state p = .running →
    Resumes p (s.todo p)
  going : s.state p = .running → ∃ c, s.cpu c = .assign p ∨ s.cpu c = .enter p

structure SwtchInv (n : Nat) (s : SwtchSys) : Prop where
  own : ∀ i c, s.owner i = some c ↔ s.holds c = some i
  lt : ∀ i c, s.holds c = some i → i < n
  one : ∀ c c' p, s.cpu c = .runs p → s.cpu c' = .runs p → c = c'
  code : ∀ p, SwtchCode n p (s.todo p)
  cpu : ∀ c, s.At n c (s.cpu c)
  parked : ∀ p, s.Away p → Parked s p

section

variable {n c p : Nat} {s s' : SwtchSys} {l l' : List SwtchInstr} {x : SwtchInstr}
  {out : List SwtchEvent}

lemma codeState_iff {y : ProcState} : CodeState l y ↔ (l = [.sched] ∧ y = .zombie) ∨
    (∃ x l', l = .sched :: x :: l' ∧ (y = .runnable ∨ y = .sleeping)) ∨
    ((∀ l', l ≠ .sched :: l') ∧ y = .running) := by
  cases l with
  | nil => simp [CodeState]
  | cons x l => cases x <;> cases l <;> simp [CodeState]

lemma codeState_unlocked (h : codeLock p l = none) : CodeState l .running := by
  refine codeState_iff.mpr (.inr (.inr ⟨?_, rfl⟩))
  rintro l' rfl
  cases h

lemma codeState_wake (h : CodeState l .sleeping) : CodeState l .runnable := by
  rcases codeState_iff.mp h with ⟨-, h⟩ | ⟨x, l', rfl, -⟩ | ⟨-, h⟩
  · cases h
  · exact .inl rfl
  · cases h

lemma codeState_locked {y : ProcState} (h : CodeState l y) (hy : y ≠ .running) :
    codeLock p l = some p := by
  rcases codeState_iff.mp h with ⟨rfl, -⟩ | ⟨x, l', rfl, -⟩ | ⟨-, h⟩
  · rfl
  · rfl
  · exact absurd h hy

variable {y : SwtchCpu} {k : Option Nat} {i : Nat} {hist : List SwtchEvent} {e : SwtchEvent}

lemma SwtchSys.holds_of (h : s.cpu c = y) : s.holds c = y.lock s.todo := by rw [holds, h]

variable (h : SwtchInv n s)
include h

lemma SwtchInv.at (hc : s.cpu c = y) : s.At n c y := hc ▸ h.cpu c

lemma SwtchInv.holds_inj {c' : Nat} (h1 : s.holds c = some i) (h2 : s.holds c' = some i) :
    c = c' := by
  have ho := (h.own i c).mpr h1
  rw [(h.own i c').mpr h2] at ho
  exact (Option.some.inj ho).symm

lemma SwtchInv.take (hh : s.holds c = none) (ho : s.owner i = none) (j c' : Nat) :
    (s.setOwner i (some c)).owner j = some c' ↔ if c' = c then (some i : Option Nat) = some j
    else s.owner j = some c' := by
  have hno : s.owner j ≠ some c := fun hj => by
    rw [(h.own j c).mp hj] at hh
    cases hh
  by_cases hji : j = i
  · subst hji
    rw [show (s.setOwner j (some c)).owner j = some c from update_self .., ho]
    by_cases hcc : c' = c
    · simp [hcc]
    · simp [hcc, Ne.symm hcc]
  · rw [show (s.setOwner i (some c)).owner j = s.owner j from update_of_ne hji ..]
    by_cases hcc : c' = c
    · rw [if_pos hcc, hcc]
      exact iff_of_false hno fun hh => hji (Option.some.inj hh).symm
    · rw [if_neg hcc]

lemma SwtchInv.free (hh : s.holds c = some i) (j c' : Nat) :
    (s.setOwner i none).owner j = some c' ↔ if c' = c then (none : Option Nat) = some j
    else s.owner j = some c' := by
  have hown : s.owner i = some c := (h.own i c).mpr hh
  by_cases hji : j = i
  · subst hji
    rw [show (s.setOwner j none).owner j = none from update_self .., hown]
    by_cases hcc : c' = c
    · simp [hcc]
    · simp [hcc, Ne.symm hcc]
  · rw [show (s.setOwner i none).owner j = s.owner j from update_of_ne hji ..]
    by_cases hcc : c' = c
    · rw [if_pos hcc, hcc, h.own, hh]
      exact iff_of_false (fun hh => hji (Option.some.inj hh).symm) (by simp)
    · rw [if_neg hcc]

lemma SwtchInv.stay (hk : s.holds c = k) (j c' : Nat) :
    s.owner j = some c' ↔ if c' = c then k = some j else s.owner j = some c' := by
  by_cases hcc : c' = c
  · rw [if_pos hcc, hcc, h.own, hk]
  · rw [if_neg hcc]

lemma SwtchInv.next (hcpu : ∀ c' ≠ c, s'.cpu c' = s.cpu c')
    (hproc : ∀ c' ≠ c, s'.cproc c' = s.cproc c')
    (hown : ∀ i c', s'.owner i = some c' ↔ if c' = c then s'.holds c = some i
      else s.owner i = some c')
    (hlt : ∀ i, s'.holds c = some i → i < n)
    (htodo : ∀ q, s'.todo q = s.todo q ∨ s.cpu c = .runs q ∧ SwtchCode n q (s'.todo q))
    (hstate : ∀ q, s'.state q = s.state q ∨ s.holds c = some q ∧
      (s.cpu c = .runs q ∨ s.state q ≠ .running))
    (hruns : ∀ q, s'.cpu c = .runs q → s.cpu c = .runs q ∨ s.holds c = some q ∧ s.Away q)
    (hat : s'.At n c (s'.cpu c))
    (hpark : ∀ q, s'.Away q → s.cpu c = .runs q ∨ (s.cpu c = .assign q ∨ s.cpu c = .enter q) ∨
      s'.state q ≠ s.state q → Parked s' q) : SwtchInv n s' := by
  have htodo' : ∀ c' q, c' ≠ c → s.cpu c' = .runs q → s'.todo q = s.todo q := fun c' q hcc hq =>
    (htodo q).resolve_right fun hh => hcc (h.one c' c q hq hh.1)
  have hholds : ∀ c' ≠ c, s'.holds c' = s.holds c' := by
    intro c' hcc
    unfold SwtchSys.holds
    rw [hcpu c' hcc]
    cases hx : s.cpu c' with
    | runs q => exact congrArg (codeLock q) (htodo' c' q hcc hx)
    | _ => rfl
  have hstate' : ∀ c' q, c' ≠ c → s.holds c' = some q → s'.state q = s.state q :=
    fun c' q hcc hq => (hstate q).resolve_right fun hh => hcc (h.holds_inj hq hh.1)
  have haway : ∀ c' q, c' ≠ c → s.holds c' = some q → s.Away q → s'.Away q := by
    intro c' q hcc hq ha c'' hc''
    by_cases hcc' : c'' = c
    · rcases hruns q (hcc' ▸ hc'') with hr | ⟨hr, -⟩
      · exact ha c hr
      · exact hcc (h.holds_inj hq hr)
    · exact ha c'' ((hcpu c'' hcc').symm.trans hc'')
  have hone : ∀ c' q, c' ≠ c → s'.cpu c = .runs q → s'.cpu c' ≠ .runs q := by
    intro c' q hcc hq hq'
    rw [hcpu c' hcc] at hq'
    rcases hruns q hq with hr | ⟨-, hr⟩
    · exact hcc (h.one c' c q hq' hr)
    · exact hr c' hq'
  refine ⟨fun i c' => ?_, fun i c' hh => ?_, fun c1 c2 q h₁ h₂ => ?_, fun q => ?_, fun c' => ?_,
    fun q hq => ?_⟩
  · rw [hown]
    by_cases hcc : c' = c
    · rw [if_pos hcc, hcc]
    · rw [if_neg hcc, h.own, hholds c' hcc]
  · by_cases hcc : c' = c
    · exact hlt i (hcc ▸ hh)
    · exact h.lt i c' ((hholds c' hcc).symm.trans hh)
  · by_contra hne
    by_cases h1 : c1 = c
    · exact hone c2 q (fun h2 => hne (h1.trans h2.symm)) (h1 ▸ h₁) h₂
    · by_cases h2 : c2 = c
      · exact hone c1 q h1 (h2 ▸ h₂) h₁
      · rw [hcpu c1 h1] at h₁
        rw [hcpu c2 h2] at h₂
        exact hne (h.one c1 c2 q h₁ h₂)
  · rcases htodo q with he | ⟨-, he⟩
    · rw [he]
      exact h.code q
    · exact he
  · by_cases hcc : c' = c
    · rw [hcc]
      exact hat
    · have hp := hproc c' hcc
      rw [hcpu c' hcc]
      cases hx : s.cpu c' with
      | chosen i =>
        have hh := s.holds_of hx
        obtain ⟨h1, h2⟩ := h.at hx
        exact ⟨(hstate' c' i hcc hh).trans h1, hp.trans h2⟩
      | assign i | enter i =>
        have hh := s.holds_of hx
        obtain ⟨⟨h1, h2⟩, h3⟩ := h.at hx
        exact ⟨⟨(hstate' c' i hcc hh).trans h1, haway c' i hcc hh h2⟩, hp.trans h3⟩
      | runs q =>
        obtain ⟨⟨h1, h2⟩, h3⟩ := h.at hx
        refine ⟨⟨h1, ?_⟩, hp.trans h3⟩
        rw [htodo' c' q hcc hx]
        rcases hstate q with he | ⟨hh, hr | hr⟩
        · rwa [he]
        · exact absurd (h.one c' c q hx hr) hcc
        · -- it holds its lock, on `c'`
          exact absurd (h.holds_inj ((s.holds_of hx).trans (codeState_locked h2 hr)) hh) hcc
      | back i =>
        obtain ⟨h1, h2⟩ := h.at hx
        exact ⟨haway c' i hcc (s.holds_of hx) h1, hp.trans h2⟩
      | _ => exact hp.trans (h.at hx)
  · by_cases hc : s.cpu c = .runs q ∨ (s.cpu c = .assign q ∨ s.cpu c = .enter q) ∨
        s'.state q ≠ s.state q
    · exact hpark q hq hc
    · obtain ⟨hr, hae, hst⟩ : s.cpu c ≠ .runs q ∧ ¬ (s.cpu c = .assign q ∨ s.cpu c = .enter q) ∧
          s'.state q = s.state q := by
        push Not at hc
        exact ⟨hc.1, not_or.mpr hc.2.1, hc.2.2⟩
      have hold : s.Away q := fun c' hc' => by
        by_cases hcc : c' = c
        · exact hr (hcc ▸ hc')
        · exact hq c' ((hcpu c' hcc).trans hc')
      have ht := (htodo q).resolve_right fun hh => hr hh.1
      refine ⟨fun hs => ?_, fun hs => ?_⟩
      · rw [ht]
        exact (h.parked q hold).code (hst ▸ hs)
      · obtain ⟨c', hc'⟩ := (h.parked q hold).going (hst ▸ hs)
        have hcc : c' ≠ c := fun hh => hae (hh ▸ hc')
        exact ⟨c', by rwa [hcpu c' hcc]⟩

/-- A step of the process `p`, with `l` left to do. -/
lemma SwtchInv.work (hc : s.cpu c = .runs p) (hcpu : s'.cpu = s.cpu) (hproc : s'.cproc = s.cproc)
    (htodo : s'.todo = update s.todo p l)
    (hown : ∀ i c', s'.owner i = some c' ↔ if c' = c then codeLock p l = some i
      else s.owner i = some c')
    (hlt : ∀ i, codeLock p l = some i → i < n) (hcode : SwtchCode n p l)
    (hst : CodeState l (s'.state p))
    (hstate : ∀ q, s'.state q = s.state q ∨ s.holds c = some q ∧
      (q = p ∨ s.state q = .sleeping ∧ s'.state q = .runnable)) : SwtchInv n s' := by
  have htp : s'.todo p = l := by rw [htodo, update_self]
  have htq : ∀ q ≠ p, s'.todo q = s.todo q := fun q hq => by rw [htodo, update_of_ne hq]
  have hc' : s'.cpu c = .runs p := by rw [hcpu, hc]
  have hholds : s'.holds c = codeLock p l := by rw [SwtchSys.holds_of hc', SwtchCpu.lock, htp]
  refine h.next (c := c) (fun _ _ => by rw [hcpu]) (fun _ _ => by rw [hproc]) ?_ ?_ (fun q => ?_)
    (fun q => ?_) (fun q hq => .inl (by rwa [hcpu] at hq)) ?_ (fun q hq hwhy => ?_)
  · rwa [hholds]
  · rwa [hholds]
  · by_cases hqp : q = p
    · subst hqp
      exact .inr ⟨hc, by rwa [htp]⟩
    · exact .inl (htq q hqp)
  · refine (hstate q).imp_right fun ⟨hh, hq⟩ => ⟨hh, ?_⟩
    rcases hq with rfl | hq
    · exact .inl hc
    · rw [hq.1]
      exact .inr (by decide)
  · obtain ⟨⟨h1, -⟩, h3⟩ := h.at hc
    rw [hc']
    exact ⟨⟨h1, by rwa [htp]⟩, by rwa [hproc]⟩
  · have hqp : q ≠ p := fun hh => hq c (hh ▸ hc')
    have hold : s.Away q := fun c' hq' => hq c' (by rwa [hcpu])
    rw [hc] at hwhy
    have hne : s'.state q ≠ s.state q := by
      rcases hwhy with hw | (hw | hw) | hw
      · cases hw
        exact absurd rfl hqp
      · cases hw
      · cases hw
      · exact hw
    obtain ⟨-, hw⟩ := (hstate q).resolve_left hne
    obtain ⟨h1, h2⟩ := hw.resolve_left hqp
    refine ⟨fun _ => ?_, fun hs => ?_⟩
    · rw [htq q hqp]
      exact (h.parked q hold).code (.inr (.inl h1))
    · rw [h2] at hs
      cases hs

omit h

/-- What a step puts out and does to the set of running processes. -/
inductive SwtchOut (s s' : SwtchSys) : List SwtchEvent → Prop
  | quiet (hr : ∀ c q, s'.cpu c = .runs q ↔ s.cpu c = .runs q) : SwtchOut s s' []
  | entered (p c : Nat) (hno : ∀ c', s.cpu c' ≠ .runs p) (hp : s'.cpu c = .runs p)
      (hlock : s'.owner p = some c) (hproc : s'.cproc c = some p)
      (hr : ∀ c' q, s.cpu c' = .runs q → s'.cpu c' = .runs q) : SwtchOut s s' [.entered p c]
  | saved (p : Nat) (hr : ∀ c q, q ≠ p → s.cpu c = .runs q →
      s'.cpu c = .runs q) : SwtchOut s s' [.saved p]

lemma SwtchOut.of_cpu (h : s'.cpu = s.cpu) : SwtchOut s s' [] := .quiet fun c q => by rw [h]

include h

/-- A step inside `scheduler`, to `y`. -/
lemma SwtchInv.move (hx : ∀ q, s.cpu c ≠ .runs q) (hy : ∀ q, y ≠ .runs q)
    (hcpu : s'.cpu = update s.cpu c y) (htodo : s'.todo = s.todo)
    (hproc : ∀ c' ≠ c, s'.cproc c' = s.cproc c')
    (hown : ∀ i c', s'.owner i = some c' ↔ if c' = c then y.lock s.todo = some i
      else s.owner i = some c')
    (hlt : ∀ i, y.lock s.todo = some i → i < n) (hat : s'.At n c y)
    (hkeep : ∀ q, s.cpu c = .assign q ∨ s.cpu c = .enter q → y = .enter q)
    (hstate : ∀ q, s'.state q = s.state q ∨ s.holds c = some q ∧ s.state q = .runnable ∧
      s.Away q ∧ y = .assign q) : SwtchInv n s' ∧ SwtchOut s s' [] := by
  have hself : s'.cpu c = y := by rw [hcpu, update_self]
  have hother : ∀ c' ≠ c, s'.cpu c' = s.cpu c' := fun c' hc => by rw [hcpu, update_of_ne hc]
  have hholds : s'.holds c = y.lock s.todo := by rw [SwtchSys.holds_of hself, htodo]
  have hsame : ∀ c' q, s'.cpu c' = .runs q ↔ s.cpu c' = .runs q := by
    intro c' q
    by_cases hcc : c' = c
    · rw [hcc, hself]
      exact iff_of_false (hy q) (hx q)
    · rw [hother c' hcc]
  refine ⟨h.next (c := c) hother hproc ?_ ?_ (fun q => .inl (by rw [htodo])) (fun q => ?_)
    (fun q hq => .inl ((hsame c q).mp hq)) ?_ (fun q hq hwhy => ?_), .quiet hsame⟩
  · rwa [hholds]
  · rwa [hholds]
  · refine (hstate q).imp_right fun ⟨hh, hr, _⟩ => ⟨hh, .inr ?_⟩
    rw [hr]
    decide
  · rwa [hself]
  · rcases hstate q with he | ⟨-, hr, hold, rfl⟩
    · have hold : s.Away q := fun c' hc' => hq c' ((hsame c' q).mpr hc')
      have hyq := hkeep q ((hwhy.resolve_left (hx q)).resolve_right fun hne => hne he)
      refine ⟨fun hs => ?_, fun _ => ⟨c, .inr (hself.trans hyq)⟩⟩
      rw [htodo]
      exact (h.parked q hold).code (he ▸ hs)
    · refine ⟨fun _ => ?_, fun _ => ⟨c, .inl hself⟩⟩
      rw [htodo]
      exact (h.parked q hold).code (.inl hr)

lemma SwtchInv.enter (hc : s.cpu c = .enter i) :
    SwtchInv n (s.setCpu c (.runs i)) ∧ SwtchOut s (s.setCpu c (.runs i)) [.entered i c] := by
  obtain ⟨⟨hst, haway⟩, hproc⟩ := h.at hc
  obtain ⟨hlock, hcode⟩ := (h.parked i haway).code (.inr (.inr hst))
  have hheld := s.holds_of hc
  have hself : (s.setCpu c (.runs i)).cpu c = .runs i := update_self ..
  have hother : ∀ c' ≠ c, (s.setCpu c (.runs i)).cpu c' = s.cpu c' := fun c' hcc => update_of_ne hcc ..
  have hholds : (s.setCpu c (.runs i)).holds c = s.holds c := by
    rw [SwtchSys.holds_of hself, hheld]
    exact hlock
  refine ⟨h.next (c := c) hother (fun _ _ => rfl) ?_ ?_ (fun q => .inl rfl) (fun q => .inl rfl)
    (fun q hq => ?_) ?_ (fun q hq hwhy => ?_), .entered i c haway hself ((h.own i c).mpr hheld)
    hproc fun c' q hq => ?_⟩
  · rw [hholds]
    exact h.stay rfl
  · rw [hholds]
    exact fun j hj => h.lt j c hj
  · rw [hself] at hq
    cases hq
    exact .inr ⟨hheld, haway⟩
  · rw [hself]
    exact ⟨⟨h.lt i c hheld, by rw [show (s.setCpu c (.runs i)).state i = _ from hst]; exact hcode⟩,
      hproc⟩
  · rw [hc] at hwhy
    rcases hwhy with hw | (hw | hw) | hw
    · cases hw
    · cases hw
    · cases hw
      exact absurd hself (hq c)
    · exact absurd rfl hw
  · have hcc : c' ≠ c := by
      rintro rfl
      rw [hc] at hq
      cases hq
    exact (hother c' hcc).trans hq

lemma SwtchInv.sched (hc : s.cpu c = .runs p) (ht : s.todo p = .sched :: l) :
    s.SchedOk c p ∧ SwtchInv n ((s.setTodo p l).setCpu c (.back p)) := by
  have hheld : s.holds c = some p := by
    rw [s.holds_of hc, SwtchCpu.lock, ht]
    rfl
  obtain ⟨⟨hpn, hrun⟩, hproc⟩ := h.at hc
  have hcode := h.code p
  rw [ht] at hrun hcode
  obtain ⟨hrest, hl⟩ : SwtchCode n p l ∧ (l = [] ∨ Resumes p l) := by
    cases hcode with
    | sched h hl => exact ⟨h, hl⟩
  have hst : s.state p ≠ .running ∧ (l = [] → s.state p = .zombie) := by
    rcases codeState_iff.mp hrun with ⟨-, he⟩ | ⟨x, l', he, hx⟩ | ⟨he, -⟩
    · rw [he]
      exact ⟨by decide, fun _ => rfl⟩
    · cases he
      refine ⟨fun hh => ?_, fun hh => by cases hh⟩
      rw [hh] at hx
      rcases hx with hx | hx <;> cases hx
    · exact absurd rfl (he l)
  refine ⟨⟨hproc, (h.own p c).mpr hheld, hst.1⟩, ?_⟩
  have hself : ((s.setTodo p l).setCpu c (.back p)).cpu c = .back p := update_self ..
  have hother : ∀ c' ≠ c, ((s.setTodo p l).setCpu c (.back p)).cpu c' = s.cpu c' :=
    fun c' hcc => update_of_ne hcc ..
  have htp : ((s.setTodo p l).setCpu c (.back p)).todo p = l := update_self ..
  refine h.next (c := c) hother (fun _ _ => rfl) ?_ ?_ (fun q => ?_) (fun q => .inl rfl)
    (fun q hq => ?_) ?_ (fun q hq hwhy => ?_)
  · rw [SwtchSys.holds_of hself]
    exact h.stay hheld
  · rw [SwtchSys.holds_of hself]
    exact fun j hj => h.lt j c (hheld.trans hj)
  · by_cases hqp : q = p
    · subst hqp
      exact .inr ⟨hc, by rwa [htp]⟩
    · exact .inl (update_of_ne hqp ..)
  · rw [hself] at hq
    cases hq
  · rw [hself]
    refine ⟨fun c' hq => ?_, hproc⟩
    by_cases hcc : c' = c
    · rw [hcc, hself] at hq
      cases hq
    · exact hcc (h.one c' c p ((hother c' hcc).symm.trans hq) hc)
  · obtain rfl : q = p := by
      rw [hc] at hwhy
      rcases hwhy with hw | (hw | hw) | hw
      · cases hw
        rfl
      · cases hw
      · cases hw
      · exact absurd rfl hw
    refine ⟨fun hs => ?_, fun hs => absurd hs hst.1⟩
    rw [htp]
    refine hl.resolve_left fun hnil => ?_
    rw [show ((s.setTodo q l).setCpu c (.back q)).state q = _ from hst.2 hnil] at hs
    rcases hs with hs | hs | hs <;> cases hs

omit h

lemma SwtchSys.rouse_rest (s : SwtchSys) (i : Nat) (b : Bool) : (s.rouse i b).todo = s.todo ∧
    (s.rouse i b).cpu = s.cpu ∧ (s.rouse i b).cproc = s.cproc ∧ (s.rouse i b).owner = s.owner := by
  unfold rouse
  split
  · exact ⟨rfl, rfl, rfl, rfl⟩
  · exact ⟨rfl, rfl, rfl, rfl⟩

lemma SwtchInv.goOn (h : SwtchInv n s) (hc : s.cpu c = .runs p) (hst : s.state p = .running)
    (hheld : s.holds c = codeLock p l) (hcode : SwtchCode n p l) (hl : CodeState l .running) :
    SwtchInv n (s.setTodo p l) ∧ SwtchOut s (s.setTodo p l) [] :=
  ⟨h.work hc rfl rfl rfl (h.stay hheld) (fun i hi => h.lt i c (hheld.trans hi)) hcode
    (hst.symm ▸ hl : CodeState l (s.state p)) fun _ => .inl rfl, .of_cpu rfl⟩

lemma SwtchInv.lock (h : SwtchInv n s) (hc : s.cpu c = .runs p) (hst : s.state p = .running)
    (hheld : s.holds c = none) (ho : s.owner i = none) (hi : i < n) (hcode : SwtchCode n p l)
    (hlock : codeLock p l = some i) (hl : CodeState l .running) :
    SwtchInv n ((s.setOwner i (some c)).setTodo p l) ∧
    SwtchOut s ((s.setOwner i (some c)).setTodo p l) [] := by
  refine ⟨h.work hc rfl rfl rfl ?_ (fun j hj => ?_) hcode
    (hst.symm ▸ hl : CodeState l (s.state p)) fun _ => .inl rfl, .of_cpu rfl⟩
  · rw [hlock]
    exact h.take hheld ho
  · rw [hlock] at hj
    cases hj
    exact hi

lemma SwtchInv.roused {b : Bool} (h : SwtchInv n s) (hc : s.cpu c = .runs p)
    (hst : s.state p = .running) (hheld : s.holds c = some i) (hlock : codeLock p l = some i)
    (hcode : SwtchCode n p l) (hl : CodeState l .running) :
    SwtchInv n ((s.rouse i b).setTodo p l) ∧ SwtchOut s ((s.rouse i b).setTodo p l) [] := by
  obtain ⟨h1, h2, h3, h4⟩ := s.rouse_rest i b
  have hstate : ∀ q, (s.rouse i b).state q = s.state q ∨ s.holds c = some q ∧
      s.state q = .sleeping ∧ (s.rouse i b).state q = .runnable := by
    intro q
    unfold SwtchSys.rouse
    split
    next hs =>
      by_cases hqi : q = i
      · subst hqi
        exact .inr ⟨hheld, hs.1, update_self ..⟩
      · exact .inl (update_of_ne hqi ..)
    next => exact .inl rfl
  have hp : (s.rouse i b).state p = s.state p := by
    refine (hstate p).resolve_right fun hh => ?_
    rw [hst] at hh
    cases hh.2.1
  refine ⟨h.work hc h2 h3 ?_ (fun j c' => ?_) (fun j hj => h.lt j c ?_) hcode ?_
    fun q => (hstate q).imp_right fun hh => ⟨hh.1, .inr hh.2⟩, .of_cpu h2⟩
  · exact congrArg (fun f => update f p l) h1
  · change (s.rouse i b).owner j = some c' ↔ _
    rw [h4]
    exact h.stay (hheld.trans hlock.symm) j c'
  · rw [hheld, ← hlock, hj]
  · change CodeState l ((s.rouse i b).state p)
    rw [hp, hst]
    exact hl

lemma SwtchInv.exec (h : SwtchInv n s) (hc : s.cpu c = .runs p) (ht : s.todo p = x :: l)
    (he : s.exec c p l x = some (s', out)) : SwtchInv n s' ∧ SwtchOut s s' out := by
  have hheld : s.holds c = x.lock p := by
    rw [s.holds_of hc, SwtchCpu.lock, ht]
    rfl
  obtain ⟨⟨hpn, hst⟩, -⟩ := h.at hc
  have hcode := h.code p
  rw [ht] at hst hcode
  -- away from `sched` the process is `RUNNING`
  have hrunning : x ≠ .sched → s.state p = .running := by
    intro hx
    rcases codeState_iff.mp hst with ⟨hl, -⟩ | ⟨y, l', hl, -⟩ | ⟨-, hr⟩
    · cases hl
      exact absurd rfl hx
    · cases hl
      exact absurd rfl hx
    · exact hr
  cases hcode with
  | acquire hrest hl =>
    simp only [SwtchSys.exec] at he
    split at he
    next ho =>
      cases he
      exact h.lock hc (hrunning (by simp)) hheld ho hpn hrest hl.1 hl.2
    next => cases he
  | release i hrest hl =>
    simp only [SwtchSys.exec] at he
    split at he
    next ho =>
      cases he
      refine ⟨h.work hc rfl rfl rfl ?_ (by simp [hl]) hrest ?_ fun _ => .inl rfl, .of_cpu rfl⟩
      · rw [hl]
        exact h.free hheld
      · change CodeState l (s.state p)
        rw [hrunning (by simp)]
        exact codeState_unlocked hl
    next => cases he
  | chan ch hrest hl =>
    cases he
    have hheld' := hheld.trans hl.1.symm
    refine ⟨h.work hc rfl rfl rfl (h.stay hheld') (fun i hi => h.lt i c (hheld'.trans hi)) hrest ?_
      fun _ => .inl rfl, .of_cpu rfl⟩
    change CodeState l (s.state p)
    rw [hrunning (by simp)]
    exact hl.2
  | state y hrest hy =>
    cases he
    refine ⟨h.work hc rfl rfl rfl (h.stay hheld) (fun i hi => h.lt i c (hheld.trans hi)) hrest ?_
      fun q => ?_, .of_cpu rfl⟩
    · rw [show ((s.setState p y).setTodo p _).state p = y from update_self ..]
      exact hy
    · by_cases hq : q = p
      · exact .inr ⟨hq ▸ hheld, .inl hq⟩
      · exact .inl (update_of_ne hq ..)
  | sched hrest hl =>
    obtain ⟨hok, hinv⟩ := h.sched hc ht
    simp only [SwtchSys.exec, if_pos hok, Option.some.injEq, Prod.mk.injEq] at he
    obtain ⟨rfl, rfl⟩ := he
    refine ⟨hinv, .saved p fun c' q hq hr => ?_⟩
    have hcc : c' ≠ c := by
      rintro rfl
      rw [hc] at hr
      cases hr
      exact hq rfl
    exact (update_of_ne hcc ..).trans hr
  | wakeLoop ch is hrest hl hn =>
    cases is with
    | nil =>
      cases he
      exact h.goOn hc (hrunning (by simp)) (hheld.trans hl.symm) hrest (codeState_unlocked hl)
    | cons i is =>
      have hn' : ∀ j ∈ is, j < n := fun j hj => hn j (mem_cons_of_mem _ hj)
      simp only [SwtchSys.exec] at he
      split at he
      · cases he
        exact h.goOn hc (hrunning (by simp)) hheld (.wakeLoop ch is hrest hl hn') rfl
      · split at he
        next ho =>
          cases he
          exact h.lock hc (hrunning (by simp)) hheld ho (hn i mem_cons_self)
            (.wake ch i (.release i (.wakeLoop ch is hrest hl hn') rfl)) rfl rfl
        next => cases he
  | wake ch i hrest =>
    cases he
    exact h.roused hc (hrunning (by simp)) hheld rfl hrest rfl
  | killLoop pid is hrest hl hn =>
    cases is with
    | nil =>
      cases he
      exact h.goOn hc (hrunning (by simp)) (hheld.trans hl.symm) hrest (codeState_unlocked hl)
    | cons i is =>
      have hn' : ∀ j ∈ is, j < n := fun j hj => hn j (mem_cons_of_mem _ hj)
      simp only [SwtchSys.exec] at he
      split at he
      next ho =>
        cases he
        exact h.lock hc (hrunning (by simp)) hheld ho (hn i mem_cons_self)
          (.kill pid i is hrest hl hn') rfl rfl
      next => cases he
  | kill pid i is hrest hl hn =>
    cases he
    have hafter :
      ∀ l', l' = (if s.pid i = pid then .release i :: l else .release i :: .killLoop pid is :: l) →
        SwtchCode n p l' ∧ codeLock p l' = some i ∧ CodeState l' .running := by
      rintro l' rfl
      split
      · exact ⟨.release i hrest hl, rfl, rfl⟩
      · exact ⟨.release i (.killLoop pid is hrest hl hn) rfl, rfl, rfl⟩
    obtain ⟨ha, hb, hd⟩ := hafter _ rfl
    exact h.roused hc (hrunning (by simp)) hheld hb ha hd

lemma callCode_code (op : SwtchOp) (h : SwtchCode n p l) (hl : codeLock p l = none) :
    SwtchCode n p (SwtchSys.callCode n p l op) ∧ codeLock p (SwtchSys.callCode n p l op) = none := by
  have hrange : ∀ i ∈ List.range n, i < n := fun i hi => mem_range.mp hi
  have hrel : SwtchCode n p (.release p :: l) := .release p h hl
  cases op with
  | go => exact ⟨h, hl⟩
  | yield =>
    refine ⟨.acquire (.state .runnable (.sched hrel (.inr ⟨rfl, rfl⟩)) (.inl rfl)) ⟨rfl, rfl⟩, rfl⟩
  | sleep ch =>
    have hend : SwtchCode n p (.chan p 0 :: .release p :: l) := .chan 0 hrel ⟨rfl, rfl⟩
    exact ⟨.acquire (.chan ch (.state .sleeping (.sched hend (.inr ⟨rfl, rfl⟩)) (.inr rfl)) ⟨rfl,
      rfl⟩) ⟨rfl, rfl⟩, rfl⟩
  | exit parent =>
    exact ⟨.wakeLoop parent _ (.acquire (.state .zombie (.sched .nil (.inl rfl)) rfl) ⟨rfl,
      rfl⟩) rfl hrange, rfl⟩
  | wakeup ch => exact ⟨.wakeLoop ch _ h hl hrange, rfl⟩
  | kill pid => exact ⟨.killLoop pid _ h hl hrange, rfl⟩

lemma SwtchInv.call {op : SwtchOp} {q : Nat} (h : SwtchInv n s) (hc : s.cpu c = .runs p)
    (hq : s.cproc c = some q) (hu : s.Unlocked n c) :
    SwtchInv n (s.setTodo p (SwtchSys.callCode n q (s.todo p) op)) ∧
    SwtchOut s (s.setTodo p (SwtchSys.callCode n q (s.todo p) op)) [] := by
  obtain ⟨⟨-, hrun⟩, hproc⟩ := h.at hc
  obtain rfl : q = p := Option.some.inj (hq.symm.trans hproc)
  have hheld : s.holds c = codeLock q (s.todo q) := s.holds_of hc
  have hfree : codeLock q (s.todo q) = none := by
    rw [← hheld, Option.eq_none_iff_forall_ne_some]
    exact fun i hi => hu i (h.lt i c hi) ((h.own i c).mpr hi)
  obtain ⟨hcode, hlock⟩ := callCode_code op (h.code q) hfree
  have hst : s.state q = .running := by
    by_contra hne
    rw [codeState_locked hrun hne] at hfree
    cases hfree
  exact h.goOn hc hst (hheld.trans (hfree.trans hlock.symm)) hcode (codeState_unlocked hlock)

lemma SwtchInv.chosen_away (h : SwtchInv n s) (hx : s.cpu c = .chosen i) : s.Away i := by
  intro c' hc'
  obtain ⟨⟨-, hst⟩, -⟩ := h.at hc'
  obtain ⟨hr, -⟩ := h.at hx
  -- a process that runs and has set its state to `RUNNABLE` holds its lock
  have hh := (s.holds_of hc').trans (codeState_locked hst (by rw [hr]; decide))
  cases h.holds_inj (s.holds_of hx) hh
  rw [hx] at hc'
  cases hc'

lemma SwtchInv.schedStep (h : SwtchInv n s) (hs : s.schedStep n c (s.cpu c) = some (s', out)) :
    SwtchInv n s' ∧ SwtchOut s s' out := by
  have hlt : ∀ i, s.holds c = some i → i < n := fun i hi => h.lt i c hi
  cases hx : s.cpu c with
  | scan i =>
    have hheld := s.holds_of hx
    rw [hx] at hs
    simp only [SwtchSys.schedStep] at hs
    split at hs
    next hi =>
      split at hs
      next ho =>
        cases hs
        exact h.move (y := .look i) (by simp [hx]) (by simp) rfl rfl (fun _ _ => rfl)
          (h.take hheld ho) (fun j hj => by cases hj; exact hi) (h.at hx) (by simp [hx])
          fun _ => .inl rfl
      next => cases hs
    next =>
      cases hs
      exact h.move (y := .scan 0) (by simp [hx]) (by simp) rfl rfl (fun _ _ => rfl)
        (h.stay hheld) (fun j hj => by cases hj) (h.at hx) (by simp [hx]) fun _ => .inl rfl
  | look i =>
    have hheld := s.holds_of hx
    rw [hheld] at hlt
    rw [hx] at hs
    cases hs
    split
    next hr =>
      exact h.move (y := .chosen i) (by simp [hx]) (by simp) rfl rfl (fun _ _ => rfl)
        (h.stay hheld) hlt ⟨hr, h.at hx⟩ (by simp [hx]) fun _ => .inl rfl
    next =>
      exact h.move (y := .drop i) (by simp [hx]) (by simp) rfl rfl (fun _ _ => rfl)
        (h.stay hheld) hlt (h.at hx) (by simp [hx]) fun _ => .inl rfl
  | chosen i =>
    have hheld := s.holds_of hx
    have haway := h.chosen_away hx
    rw [hheld] at hlt
    rw [hx] at hs
    cases hs
    refine h.move (y := .assign i) (by simp [hx]) (by simp) rfl rfl (fun _ _ => rfl)
      (h.stay hheld) hlt ⟨⟨update_self .., fun c' hc' => ?_⟩, (h.at hx).2⟩
      (by simp [hx]) fun q => ?_
    · by_cases hcc : c' = c
      · rw [hcc, show ((s.setState i .running).setCpu c (.assign i)).cpu c = _ from
          update_self ..] at hc'
        cases hc'
      · exact haway c' ((update_of_ne hcc ..).symm.trans hc')
    · by_cases hqi : q = i
      · subst hqi
        exact .inr ⟨hheld, (h.at hx).1, haway, rfl⟩
      · exact .inl (update_of_ne hqi ..)
  | assign i =>
    have hheld := s.holds_of hx
    obtain ⟨⟨hst, haway⟩, -⟩ := h.at hx
    rw [hheld] at hlt
    rw [hx] at hs
    cases hs
    refine h.move (y := .enter i) (by simp [hx]) (by simp) rfl rfl
      (fun c' hcc => update_of_ne hcc ..) (h.stay hheld) hlt
      ⟨⟨hst, fun c' hc' => ?_⟩, update_self ..⟩ (by simp [hx]) fun _ => .inl rfl
    by_cases hcc : c' = c
    · rw [hcc, show ((s.setProc c (some i)).setCpu c (.enter i)).cpu c = _ from
        update_self ..] at hc'
      cases hc'
    · exact haway c' ((update_of_ne hcc ..).symm.trans hc')
  | enter i =>
    rw [hx] at hs
    cases hs
    exact h.enter hx
  | runs i =>
    rw [hx] at hs
    cases hs
  | back i =>
    have hheld := s.holds_of hx
    rw [hheld] at hlt
    rw [hx] at hs
    cases hs
    exact h.move (y := .drop i) (by simp [hx]) (by simp) rfl rfl
      (fun c' hcc => update_of_ne hcc ..) (h.stay hheld) hlt (update_self ..) (by simp [hx])
      fun _ => .inl rfl
  | drop i =>
    have hheld := s.holds_of hx
    rw [hx] at hs
    simp only [SwtchSys.schedStep] at hs
    split at hs
    next =>
      cases hs
      exact h.move (y := .scan (i + 1)) (by simp [hx]) (by simp) rfl rfl (fun _ _ => rfl)
        (h.free hheld) (fun j hj => by cases hj) (h.at hx) (by simp [hx]) fun _ => .inl rfl
    next => cases hs

/-- Each instruction keeps the locks around `swtch`. -/
lemma SwtchInv.step {a : SwtchAct} (h : SwtchInv n s) (hs : s.step n a = some (s', out)) :
    SwtchInv n s' ∧ SwtchOut s s' out := by
  obtain ⟨c, op⟩ := a
  cases hx : s.cpu c with
  | runs p =>
    cases op with
    | go =>
      simp only [SwtchSys.step, hx] at hs
      split at hs
      next => cases hs
      next x l ht => exact h.exec hx ht hs
    | _ =>
      simp only [SwtchSys.step, hx] at hs
      split at hs
      next => cases hs
      next q hq =>
        split at hs
        next hu =>
          cases hs
          exact h.call hx hq hu
        next => cases hs
  | _ =>
    cases op with
    | go =>
      simp only [SwtchSys.step, hx] at hs
      rw [← hx] at hs
      exact h.schedStep hs
    | _ =>
      simp only [SwtchSys.step, hx] at hs
      cases hs

/-- Between two entries of a context it was saved. -/
def EntersOnce (p : Nat) (hist : List SwtchEvent) : Prop :=
  ∀ l₁ c l₂ c' l₃, hist = l₁ ++ .entered p c :: l₂ ++ .entered p c' :: l₃ → .saved p ∈ l₂

def SavedLast (p : Nat) (hist : List SwtchEvent) : Prop :=
  ∀ l₁ c l₂, hist = l₁ ++ .entered p c :: l₂ → .saved p ∈ l₂

lemma SavedLast.saved : SavedLast p (hist ++ [.saved p]) := by
  intro l₁ c l₂ hh
  rcases Machine.split_concat hh with ⟨-, he⟩ | ⟨l, -, rfl⟩
  · cases he
  · exact mem_append_right _ (mem_singleton.mpr rfl)

lemma SavedLast.other (h : SavedLast p hist) (he : ∀ c, e ≠ .entered p c) :
    SavedLast p (hist ++ [e]) := by
  intro l₁ c l₂ hh
  rcases Machine.split_concat hh with ⟨-, hx⟩ | ⟨l, hx, rfl⟩
  · exact absurd hx (he c)
  · exact mem_append_left _ (h l₁ c l hx)

lemma EntersOnce.append (h : EntersOnce p hist)
    (he : (∀ c, e ≠ .entered p c) ∨ SavedLast p hist) : EntersOnce p (hist ++ [e]) := by
  intro l₁ c l₂ c' l₃ hh
  rcases Machine.split_concat hh with ⟨hx, hx'⟩ | ⟨l, hx, -⟩
  · exact he.elim (fun hno => absurd hx' (hno c')) fun hs => hs l₁ c l₂ hx
  · exact h l₁ c l₂ c' l hx

structure SwtchHist (s : SwtchSys) (hist : List SwtchEvent) : Prop where
  once : ∀ p, EntersOnce p hist
  saved : ∀ p, (∀ c, s.cpu c ≠ .runs p) → SavedLast p hist

lemma SwtchHist.step (h : SwtchHist s hist) (ho : SwtchOut s s' out) :
    SwtchHist s' (hist ++ out) := by
  cases ho with
  | quiet hr =>
    rw [append_nil]
    exact ⟨h.once, fun q hq => h.saved q fun c hc => hq c ((hr c q).mpr hc)⟩
  | entered p c hno hp hlock hproc hr =>
    refine ⟨fun q => (h.once q).append ?_, fun q hq => ?_⟩
    · by_cases hqp : q = p
      · exact .inr (hqp ▸ h.saved p hno)
      · exact .inl fun c' he => hqp (by cases he; rfl)
    · have hqp : q ≠ p := fun hh => hq c (hh ▸ hp)
      refine (h.saved q fun c' hc' => hq c' (hr c' q hc')).other fun c' he => hqp ?_
      cases he
      rfl
  | saved p hr =>
    refine ⟨fun q => (h.once q).append (.inl fun c he => by cases he), fun q hq => ?_⟩
    by_cases hqp : q = p
    · subst hqp
      exact SavedLast.saved
    · exact (h.saved q fun c hc => hq c (hr c q hqp hc)).other fun c he => by cases he

lemma swtch_init (h : (swtchMachine n).init s) : SwtchInv n s ∧ SwtchHist s [] := by
  obtain ⟨hcpu, hproc⟩ := h
  have hscan : ∀ c, s.cpu c = .scan 0 := fun c => (hcpu c).1
  have hheld : ∀ c, s.holds c = none := fun c => s.holds_of (hscan c)
  refine ⟨⟨fun i c => ?_, fun i c hi => ?_, ?_, fun p => ?_, fun c => ?_, fun p _ => ⟨fun _ => ?_,
    fun hs => ?_⟩⟩, ⟨fun p l₁ c l₂ c' l₃ hh => ?_, fun p _ l₁ c l₂ hh => ?_⟩⟩
  · rw [hheld, (hproc i).1]
    exact iff_of_false (by simp) (by simp)
  · rw [hheld] at hi
    cases hi
  · simp [hscan]
  · rw [(hproc p).2.1]
    exact .release p .nil rfl
  · rw [hscan]
    exact (hcpu c).2
  · rw [(hproc p).2.1]
    exact ⟨rfl, rfl⟩
  · rcases (hproc p).2.2 with he | he <;> rw [he] at hs <;> cases hs
  · simp at hh
  · simp at hh

lemma swtch_inv {ok : SwtchSys → SwtchAct → Prop} (h : (swtchMachine n).Reach ok s hist) :
    SwtchInv n s ∧ SwtchHist s hist := by
  refine h.invariant (I := fun s hist => SwtchInv n s ∧ SwtchHist s hist) (fun _ h0 => swtch_init h0) ?_
  rintro s s' hist out a - ⟨hi, hh⟩ - hs
  obtain ⟨hi', ho⟩ := hi.step hs
  exact ⟨hi', hh.step ho⟩

lemma SwtchInv.exclusive (h : SwtchInv n s) (ho : s.owner p = none) :
    (s.state p = .running → ∃ c, s.cproc c = some p ∧ ∀ c', s.cproc c' = some p → c' = c) ∧
    (s.state p ≠ .running → ∀ c, s.cproc c ≠ some p) := by
  have hfree : ∀ c, s.holds c ≠ some p := fun c hc => by
    rw [(h.own p c).mpr hc] at ho
    cases ho
  -- in `scheduler` a cpu with `c->proc = p` holds the lock
  have hruns : ∀ c, s.cproc c = some p → s.cpu c = .runs p := by
    intro c hc
    have hat := h.cpu c
    cases hx : s.cpu c with
    | runs q =>
      rw [hx] at hat
      cases hc.symm.trans hat.2
      rfl
    | enter q | back q =>
      rw [hx] at hat
      cases hc.symm.trans hat.2
      exact absurd (s.holds_of hx) (hfree c)
    | chosen q | assign q =>
      rw [hx] at hat
      cases hc.symm.trans hat.2
    | _ =>
      rw [hx] at hat
      cases hc.symm.trans hat
  constructor
  · intro hs
    by_cases hr : ∃ c, s.cpu c = .runs p
    · obtain ⟨c, hc⟩ := hr
      exact ⟨c, (h.at hc).2, fun c' hc' => h.one c' c p (hruns c' hc') hc⟩
    · obtain ⟨c, hc⟩ := (h.parked p (not_exists.mp hr)).going hs
      refine absurd ?_ (hfree c)
      rcases hc with hc | hc <;> exact s.holds_of hc
  · intro hs c hc
    have hrun := hruns c hc
    exact hfree c ((s.holds_of hrun).trans (codeState_locked (h.at hrun).1.2 hs))

/-- Scheduler exclusivity. While `p->lock` is free, `p->state` is `RUNNING` exactly when one
cpu has `c->proc = p`, and otherwise none has. A saved context is entered once. A process
that is entered holds its lock on its cpu, and `sched` does not panic. -/
theorem scheduler_exclusive {ok : SwtchSys → SwtchAct → Prop} {hist : List SwtchEvent}
    (h : (swtchMachine n).Reach ok s hist) : (∀ p, s.owner p = none →
      (s.state p = .running ↔ ∃ c, s.cproc c = some p ∧ ∀ c', s.cproc c' = some p → c' = c) ∧
      (s.state p ≠ .running → ∀ c, s.cproc c ≠ some p)) ∧ (∀ p, EntersOnce p hist) ∧
    (∀ a s' out p c, s.step n a = some (s', out) → .entered p c ∈ out →
      s'.cpu c = .runs p ∧ s'.owner p = some c ∧ s'.cproc c = some p) ∧
    (∀ c p l, s.cpu c = .runs p → s.todo p = .sched :: l →
      s.cproc c = some p ∧ s.owner p = some c ∧ s.state p ≠ .running) := by
  obtain ⟨hi, hh⟩ := swtch_inv h
  refine ⟨fun p ho => ?_, hh.once, fun a s' out p c hs he => ?_, fun c p l hc ht => (hi.sched hc ht).1⟩
  · obtain ⟨h1, h2⟩ := hi.exclusive ho
    refine ⟨⟨h1, ?_⟩, h2⟩
    rintro ⟨c, hc, -⟩
    by_contra hs
    exact h2 hs c hc
  · obtain ⟨-, ho⟩ := hi.step hs
    cases ho with
    | quiet hr => exact absurd he not_mem_nil
    | entered q c' hno hp hlock hproc hr =>
      cases mem_singleton.mp he
      exact ⟨hp, hlock, hproc⟩
    | saved q hr => exact absurd (mem_singleton.mp he) (by simp)

def oneRunnable : SwtchSys where
  state := fun p => if p = 0 then .runnable else .unused
  chan := fun _ => 0
  pid := fun _ => 0
  owner := fun _ => none
  cproc := fun _ => none
  cpu := fun _ => .scan 0
  todo := forkretCode

theorem scheduler_exclusive_forkret : ∃ s hist, (swtchMachine 1).Reach (fun _ _ => True) s hist ∧
    s.owner 0 = none ∧
    s.state 0 = .running ∧ ∃ c, s.cproc c = some 0 ∧ ∀ c', s.cproc c' = some 0 → c' = c := by
  have hinit : (swtchMachine 1).init oneRunnable := by
    refine ⟨fun c => ⟨rfl, rfl⟩, fun p => ⟨rfl, rfl, ?_⟩⟩
    by_cases hp : p = 0
    · exact .inr (if_pos hp)
    · exact .inl (if_neg hp)
  have hrun : ∃ s out, (swtchMachine 1).run oneRunnable (List.replicate 6 ⟨0, .go⟩) = some (s, out) ∧
      s.owner 0 = none ∧ s.state 0 = .running := ⟨_, _, rfl, rfl, rfl⟩
  obtain ⟨s, out, hr, ho, hs⟩ := hrun
  have hreach : (swtchMachine 1).Reach (fun _ _ => True) s _ :=
    (Machine.Reach.init hinit).run _ (fun _ _ => trivial) hr
  exact ⟨s, _, hreach, ho, hs, (((scheduler_exclusive hreach).1 0 ho).1).mp hs⟩

end

end Xv6
