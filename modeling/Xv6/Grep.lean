import Mathlib

/-! user/grep.c: the matcher, and the loop that reads the input through a buffer of 1024 bytes.
A string is the list of its characters before the NUL. -/

namespace Xv6

def matchstar (c : UInt8) (here : List UInt8 → Bool) : List UInt8 → Bool
  | [] => here []
  | t :: text => here (t :: text) || ((t == c || c == 46) && matchstar c here text)

def matchhere : List UInt8 → List UInt8 → Bool
  | [], _ => true
  | [c], text =>
    if c = 36 then text.isEmpty
    else
      match text with
      | [] => false
      | t :: _ => c == 46 || c == t
  | c :: d :: re, text =>
    if d = 42 then matchstar c (matchhere re) text
    else
      match text with
      | [] => false
      | t :: text => (c == 46 || c == t) && matchhere (d :: re) text

def matchLoop (here : List UInt8 → Bool) : List UInt8 → Bool
  | [] => here []
  | t :: text => here (t :: text) || matchLoop here text

def matchRe (re text : List UInt8) : Bool :=
  match re with
  | 94 :: re => matchhere re text
  | re => matchLoop (matchhere re) text

/-- A character, or a character with a `*` behind it. -/
inductive Item where
  | one (c : UInt8)
  | star (c : UInt8)

def StandsFor (c x : UInt8) : Prop := c = 46 ∨ c = x

def Item.Matches : Item → List UInt8 → Prop
  | one c, w => ∃ x, w = [x] ∧ StandsFor c x
  | star c, w => ∀ x ∈ w, StandsFor c x

def items : List UInt8 → List Item × Bool
  | [] => ([], false)
  | [c] => if c = 36 then ([], true) else ([.one c], false)
  | c :: d :: re =>
    if d = 42 then (.star c :: (items re).1, (items re).2) else (.one c :: (items (d :: re)).1,
      (items (d :: re)).2)

/-- The text is the pieces that the items match. -/
def Concat (its : List Item) (w : List UInt8) : Prop :=
  ∃ ws, List.Forall₂ Item.Matches its ws ∧ w = ws.flatten

/-- The items match at the start of the text, up to its end if the pattern is anchored there. -/
def Here (p : List Item × Bool) (text : List UInt8) : Prop :=
  ∃ mid post, text = mid ++ post ∧ Concat p.1 mid ∧ (p.2 = true → post = [])

section

variable {c x : UInt8} {its : List Item} {e : Bool} {re text w : List UInt8} {here : List UInt8 → Bool}

lemma concat_nil : Concat [] w ↔ w = [] := by
  constructor
  · rintro ⟨ws, h, rfl⟩
    cases h
    rfl
  · rintro rfl
    exact ⟨[], .nil, rfl⟩

lemma concat_cons {i : Item} : Concat (i :: its) w ↔ ∃ u v, w = u ++ v ∧ i.Matches u ∧
    Concat its v := by
  constructor
  · rintro ⟨_, _ | ⟨hi, h⟩, rfl⟩
    exact ⟨_, _, rfl, hi, _, h, rfl⟩
  · rintro ⟨u, v, rfl, hi, ws, h, rfl⟩
    exact ⟨u :: ws, .cons hi h, rfl⟩

lemma here_cons {i : Item} : Here (i :: its, e) text ↔ ∃ u v, text = u ++ v ∧ i.Matches u ∧
    Here (its, e) v := by
  constructor
  · rintro ⟨mid, post, rfl, hc, he⟩
    obtain ⟨u, v, rfl, hi, hv⟩ := concat_cons.mp hc
    exact ⟨u, v ++ post, List.append_assoc .., hi, v, post, rfl, hv, he⟩
  · rintro ⟨u, v, rfl, hi, mid, post, rfl, hc, he⟩
    exact ⟨u ++ mid, post, (List.append_assoc ..).symm, concat_cons.mpr ⟨u, mid, rfl, hi, hc⟩, he⟩

lemma here_one : Here (.one c :: its, e) text ↔ ∃ x v, text = x :: v ∧ StandsFor c x ∧
    Here (its, e) v := by
  rw [here_cons]
  constructor
  · rintro ⟨_, v, rfl, ⟨x, rfl, hx⟩, h⟩
    exact ⟨x, v, rfl, hx, h⟩
  · rintro ⟨x, v, rfl, hx, h⟩
    exact ⟨[x], v, rfl, ⟨x, rfl, hx⟩, h⟩

lemma here_nil : Here ([], e) text ↔ (e = true → text = []) := by
  constructor
  · rintro ⟨mid, post, rfl, hc, he⟩ h
    rw [concat_nil.mp hc, he h]
    rfl
  · intro h
    exact ⟨[], text, rfl, concat_nil.mpr rfl, h⟩

lemma standsFor_iff : (x == c || c == 46) = true ↔ StandsFor c x := by
  rw [Bool.or_eq_true, beq_iff_eq, beq_iff_eq]
  exact or_comm.trans (or_congr Iff.rfl eq_comm)

lemma matchstar_iff : matchstar c here text = true ↔
    ∃ u v, text = u ++ v ∧ (∀ x ∈ u, StandsFor c x) ∧ here v = true := by
  induction text with
  | nil =>
    constructor
    · exact fun h => ⟨[], [], rfl, nofun, h⟩
    · rintro ⟨u, v, h, -, hv⟩
      obtain ⟨rfl, rfl⟩ := List.append_eq_nil_iff.mp h.symm
      exact hv
  | cons t text ih =>
    rw [matchstar, Bool.or_eq_true, Bool.and_eq_true, standsFor_iff, ih]
    constructor
    · rintro (h | ⟨ht, u, v, rfl, hu, hv⟩)
      · exact ⟨[], _, rfl, nofun, h⟩
      · exact ⟨t :: u, v, rfl, List.forall_mem_cons.mpr ⟨ht, hu⟩, hv⟩
    · rintro ⟨_ | ⟨x, u⟩, v, h, hu, hv⟩
      · exact .inl (by rwa [h])
      · obtain ⟨rfl, rfl⟩ := List.cons_eq_cons.mp h
        obtain ⟨hx, hu⟩ := List.forall_mem_cons.mp hu
        exact .inr ⟨hx, u, v, rfl, hu, hv⟩

lemma matchhere_iff : ∀ re text : List UInt8, matchhere re text = true ↔ Here (items re) text
  | [], text => by simp [matchhere, items, here_nil]
  | [c], text => by
    by_cases hc : c = 36
    · simp [matchhere, items, hc, here_nil]
    · cases text with
      | nil => simp [matchhere, items, hc, here_one]
      | cons t text => simp [matchhere, items, hc, here_one, here_nil, StandsFor]
  | c :: d :: re, text => by
    by_cases hd : d = 42
    · simp only [matchhere, items, if_pos hd, matchstar_iff, matchhere_iff re, here_cons]
      rfl
    · cases text with
      | nil => simp [matchhere, items, hd, here_one]
      | cons t text => simp [matchhere, items, hd, here_one, matchhere_iff (d :: re), StandsFor]

lemma matchLoop_iff : matchLoop here text = true ↔ ∃ pre rest, text = pre ++ rest ∧
    here rest = true := by
  induction text with
  | nil =>
    constructor
    · exact fun h => ⟨[], [], rfl, h⟩
    · rintro ⟨u, v, h, hv⟩
      obtain ⟨rfl, rfl⟩ := List.append_eq_nil_iff.mp h.symm
      exact hv
  | cons t text ih =>
    rw [matchLoop, Bool.or_eq_true, ih]
    constructor
    · rintro (h | ⟨pre, rest, rfl, h⟩)
      · exact ⟨[], _, rfl, h⟩
      · exact ⟨t :: pre, rest, rfl, h⟩
    · rintro ⟨_ | ⟨x, pre⟩, rest, h, hr⟩
      · exact .inl (by rwa [h])
      · obtain ⟨rfl, rfl⟩ := List.cons_eq_cons.mp h
        exact .inr ⟨pre, rest, rfl, hr⟩

end

def unhat (re : List UInt8) : List UInt8 := if re.head? = some 94 then re.tail else re

/-- The matcher accepts a text exactly when some part of it is a concatenation of words for the
items: a first part if the pattern starts with `^`, a last part if it ends with the anchor `$`. -/
theorem match_iff_language (re text : List UInt8) : matchRe re text = true ↔ ∃ pre mid post,
    text = pre ++ mid ++ post ∧ Concat (items (unhat re)).1 mid ∧ (re.head? = some 94 → pre = []) ∧
    ((items (unhat re)).2 = true → post = []) := by
  unfold matchRe unhat
  split
  next re =>
    rw [matchhere_iff]
    constructor
    · rintro ⟨mid, post, rfl, hc, he⟩
      exact ⟨[], mid, post, rfl, hc, fun _ => rfl, he⟩
    · rintro ⟨pre, mid, post, rfl, hc, hp, he⟩
      rw [hp rfl]
      exact ⟨mid, post, rfl, hc, he⟩
  next hne =>
    have hhead : re.head? ≠ some 94 := fun h => by
      obtain ⟨t, ht⟩ := List.head?_eq_some_iff.mp h
      exact hne t ht
    rw [matchLoop_iff, if_neg hhead]
    constructor
    · rintro ⟨pre, rest, rfl, h⟩
      obtain ⟨mid, post, rfl, hc, he⟩ := (matchhere_iff _ _).mp h
      exact ⟨pre, mid, post, (List.append_assoc ..).symm, hc, fun h => absurd h hhead, he⟩
    · rintro ⟨pre, mid, post, rfl, hc, -, he⟩
      exact ⟨pre, mid ++ post, List.append_assoc .., (matchhere_iff _ _).mpr ⟨mid, post, rfl, hc, he⟩⟩

def strchr (c : UInt8) : List UInt8 → Option (List UInt8 × List UInt8)
  | [] => none
  | x :: s =>
    if x = 0 then none
    else if x = c then some ([], s)
    else (strchr c s).map fun r => (x :: r.1, r.2)

lemma strchr_length {c : UInt8} {s l r : List UInt8} (h : strchr c s = some (l, r)) :
    r.length < s.length := by
  induction s generalizing l with
  | nil => cases h
  | cons x s ih =>
    rw [strchr] at h
    split_ifs at h
    · cases h
      exact Nat.lt_succ_self _
    · obtain ⟨y, hy, he⟩ := Option.map_eq_some_iff.mp h
      cases he
      exact (ih hy).trans (Nat.lt_succ_self _)

/-- The inner loop of `grep`, on the bytes from `p` on: what it writes, and the bytes that are left.
The NUL that is stored over a newline is behind `p` afterwards and is not read again. -/
def grepLines (pattern p : List UInt8) : List UInt8 × List UInt8 :=
  match h : strchr 10 p with
  | none => ([], p)
  | some (l, r) =>
    ((if matchRe pattern l then l ++ [10] else []) ++ (grepLines pattern r).1,
      (grepLines pattern r).2)
termination_by p.length
decreasing_by all_goals exact strchr_length h

/-- The outer loop, with the bytes `buf` in the buffer and `fd` still to be read. The call number
`i` of `read` returns `pick i` bytes, or as many as there are and as were asked for, but not 0. -/
def grepFrom (pattern : List UInt8) (pick : Nat → Nat) (i : Nat) (buf fd : List UInt8) : List UInt8 :=
  let n := min (max 1 (pick i)) (min (1024 - buf.length - 1) fd.length)
  if n = 0 then []
  else
    let r := grepLines pattern (buf ++ fd.take n)
    r.1 ++ grepFrom pattern pick (i + 1) r.2 (fd.drop n)
termination_by fd.length
decreasing_by
  rw [List.length_drop]
  omega

def grep (pattern : List UInt8) (pick : Nat → Nat) (fd : List UInt8) : List UInt8 :=
  grepFrom pattern pick 0 [] fd

def unlines (lines : List (List UInt8)) : List UInt8 := lines.flatMap (· ++ [10])

def Fits (l : List UInt8) : Bool := l.length < 1023

section

variable {pattern l r buf rest : List UInt8} {lines : List (List UInt8)}

lemma unlines_cons : unlines (l :: lines) = l ++ 10 :: unlines lines := by simp [unlines]

lemma unlines_append (xs ys : List (List UInt8)) : unlines (xs ++ ys) = unlines xs ++ unlines ys :=
  List.flatMap_append

lemma strchr_none (h : 10 ∉ l) : strchr 10 l = none := by
  induction l with
  | nil => rfl
  | cons x l ih =>
    obtain ⟨hx, hl⟩ := not_or.mp (List.mem_cons.not.mp h)
    rw [strchr, if_neg (Ne.symm hx), ih hl, Option.map_none, ite_self]

lemma strchr_hit (h : 10 ∉ l ∧ 0 ∉ l) : strchr 10 (l ++ 10 :: r) = some (l, r) := by
  induction l with
  | nil => rfl
  | cons x l ih =>
    obtain ⟨hx, hl⟩ := not_or.mp (List.mem_cons.not.mp h.1)
    obtain ⟨hx0, hl0⟩ := not_or.mp (List.mem_cons.not.mp h.2)
    rw [List.cons_append, strchr, if_neg (Ne.symm hx0), if_neg (Ne.symm hx), ih ⟨hl, hl0⟩]
    rfl

lemma grepLines_none (h : 10 ∉ l) : grepLines pattern l = ([], l) := by
  rw [grepLines]
  split
  · rfl
  · next he =>
    rw [strchr_none h] at he
    cases he

lemma grepLines_hit (h : 10 ∉ l ∧ 0 ∉ l) : grepLines pattern (l ++ 10 :: r) =
    ((if matchRe pattern l then l ++ [10] else []) ++ (grepLines pattern r).1,
      (grepLines pattern r).2) := by
  rw [grepLines]
  split
  · next he =>
    rw [strchr_hit h] at he
    cases he
  · next he =>
    rw [strchr_hit h] at he
    cases he
    rfl

def LinesDone (pattern buf rest : List UInt8) (lines : List (List UInt8)) : Prop := ∃ done todo,
  lines = done ++ todo ∧ (grepLines pattern buf).1 = unlines (done.filter (matchRe pattern)) ∧
  (grepLines pattern buf).2 ++ rest = unlines todo ∧ 10 ∉ (grepLines pattern buf).2 ∧
  (grepLines pattern buf).2.length ≤ buf.length ∧ ∀ l ∈ done, l.length < buf.length

lemma linesDone_none (h : buf ++ rest = unlines lines) (hb : 10 ∉ buf) :
    LinesDone pattern buf rest lines := by
  refine ⟨[], lines, rfl, ?_⟩
  rw [grepLines_none hb]
  exact ⟨rfl, h, hb, le_rfl, nofun⟩

lemma grepLines_done (hl : ∀ l ∈ lines, 10 ∉ l ∧ 0 ∉ l) (h : buf ++ rest = unlines lines) :
    LinesDone pattern buf rest lines := by
  induction lines generalizing buf with
  | nil => exact linesDone_none h (by simp [(List.append_eq_nil_iff.mp h).1])
  | cons l lines ih =>
    obtain ⟨hline, hl⟩ := List.forall_mem_cons.mp hl
    have hsplit := h
    rw [unlines_cons] at hsplit
    rcases List.append_eq_append_iff.mp hsplit with ⟨a, rfl, -⟩ | ⟨c, rfl, hc⟩
    · exact linesDone_none h fun hin => hline.1 (List.mem_append_left _ hin)
    · cases c with
      | nil => exact linesDone_none h (by simpa using hline.1)
      | cons x r =>
        obtain ⟨rfl, hr⟩ := List.cons_eq_cons.mp hc
        obtain ⟨done, todo, rfl, ho, ht, hn, hlen, hd⟩ := ih hl hr.symm
        have hlt : (l ++ 10 :: r).length = l.length + (r.length + 1) := List.length_append
        refine ⟨l :: done, todo, rfl, ?_⟩
        rw [grepLines_hit hline, hlt]
        refine ⟨?_, ht, hn, hlen.trans (by omega), List.forall_mem_cons.mpr ⟨by omega, fun x hx => ?_⟩⟩
        · rw [ho, List.filter_cons]
          split
          · rw [unlines_cons, List.append_assoc]
            rfl
          · rfl
        · exact (hd x hx).trans (by omega)

variable {pick : Nat → Nat}

lemma grepFrom_eq {i : Nat} {fd : List UInt8} (hl : ∀ l ∈ lines, 10 ∉ l ∧ 0 ∉ l)
    (h : buf ++ fd = unlines lines) (hb : 10 ∉ buf) (hlen : buf.length ≤ 1023) :
    grepFrom pattern pick i buf fd = unlines ((lines.takeWhile Fits).filter (matchRe pattern)) := by
  induction hk : fd.length using Nat.strong_induction_on generalizing lines buf fd i with
  | h k ih =>
    rw [grepFrom]
    by_cases hn : min (max 1 (pick i)) (min (1024 - buf.length - 1) fd.length) = 0
    · -- the end of the input, or a full buffer without a newline
      rw [if_pos hn]
      cases lines with
      | nil => rfl
      | cons l lines =>
        have hge : 1023 ≤ l.length := by
          rw [unlines_cons] at h
          rcases List.append_eq_append_iff.mp h with ⟨a, rfl, ha⟩ | ⟨c, rfl, hc⟩
          · have hpos : fd.length ≠ 0 := fun h0 => by simp [List.length_eq_zero_iff.mp h0] at ha
            rw [List.length_append]
            omega
          · cases c with
            | nil =>
              have hpos : fd.length ≠ 0 := fun h0 => by simp [List.length_eq_zero_iff.mp h0] at hc
              rw [List.append_nil] at hlen hn
              omega
            | cons x r =>
              obtain ⟨rfl, -⟩ := List.cons_eq_cons.mp hc
              exact absurd (List.mem_append_right _ List.mem_cons_self) hb
        rw [List.takeWhile_cons_of_neg (by simpa [Fits] using hge)]
        rfl
    · rw [if_neg hn]
      generalize hm : min (max 1 (pick i)) (min (1024 - buf.length - 1) fd.length) = n at hn
      rw [← List.take_append_drop n fd, ← List.append_assoc] at h
      have hdone : LinesDone pattern _ _ lines := grepLines_done hl h
      obtain ⟨done, todo, rfl, ho, ht, hb', hlen', hd⟩ := hdone
      have hbuf : (buf ++ fd.take n).length ≤ 1023 := by
        rw [List.length_append, List.length_take]
        omega
      have hdrop : (fd.drop n).length < k := by
        rw [List.length_drop]
        omega
      have hfit : ∀ l ∈ done, Fits l = true := fun l hl => by
        have := hd l hl
        simpa [Fits] using by omega
      dsimp only
      rw [ho, ih _ hdrop (fun l hx => hl l (List.mem_append_right _ hx)) ht hb' (hlen'.trans hbuf) rfl,
        List.takeWhile_append_of_pos hfit, List.filter_append, unlines_append]

lemma grep_eq (hl : ∀ l ∈ lines, 10 ∉ l ∧ 0 ∉ l) :
    grep pattern pick (unlines lines) = unlines ((lines.takeWhile Fits).filter (matchRe pattern)) :=
  grepFrom_eq hl rfl List.not_mem_nil (Nat.zero_le _)

/-- However the input is split, `grep` writes the matching lines up to the first line that does not
fit into the buffer with its newline. So it writes all matching lines exactly when no line from
there on matches. -/
theorem grep_prints_iff {pick : Nat → Nat} (hl : ∀ l ∈ lines, 10 ∉ l ∧ 0 ∉ l) :
    grep pattern pick (unlines lines) = unlines ((lines.takeWhile Fits).filter (matchRe pattern)) ∧
    (grep pattern pick (unlines lines) = unlines (lines.filter (matchRe pattern)) ↔
      ∀ l ∈ lines.dropWhile Fits, matchRe pattern l = false) := by
  refine ⟨grep_eq hl, ?_⟩
  have hsplit : unlines (lines.filter (matchRe pattern)) = unlines
    ((lines.takeWhile Fits).filter (matchRe pattern)) ++
      unlines ((lines.dropWhile Fits).filter (matchRe pattern)) := by
    rw [← unlines_append, ← List.filter_append, List.takeWhile_append_dropWhile]
  rw [grep_eq hl, hsplit, List.self_eq_append_right]
  constructor
  · intro h l hl
    by_contra hm
    have hin : l ∈ (lines.dropWhile Fits).filter (matchRe pattern) :=
      List.mem_filter.mpr ⟨hl, by simpa using hm⟩
    have hmem : (10 : UInt8) ∈ unlines ((lines.dropWhile Fits).filter (matchRe pattern)) :=
      List.mem_flatMap.mpr ⟨l, hin, List.mem_append_right _ List.mem_cons_self⟩
    rw [h] at hmem
    cases hmem
  · intro h
    rw [List.filter_eq_nil_iff.mpr fun l hl => by simp [h l hl]]
    rfl

theorem grep_prints_iff_two : grep [98] (fun _ => 3) (unlines [[97], [98, 99]]) = [98, 99, 10] :=
  (grep_prints_iff (show ∀ l ∈ [[97], [98, 99]], (10 : UInt8) ∉ l ∧ (0 : UInt8) ∉ l by decide)).1

lemma grep_drops_long {n : Nat} (hn : 1022 ≤ n) : grep [97] pick (unlines [List.replicate (n + 1) 97]) ≠
    unlines ([List.replicate (n + 1) 97].filter (matchRe [97])) := by
  have hl : ∀ l ∈ [List.replicate (n + 1) (97 : UInt8)], 10 ∉ l ∧ 0 ∉ l := by simp
  rw [grep_eq hl, List.takeWhile_cons_of_neg (by simp [Fits, hn]), List.replicate_succ]
  exact fun h => List.cons_ne_nil _ _ h.symm

/-- A line of 1023 times `a`, with the pattern `a`. -/
theorem grep_drops_line : grep [97] (fun _ => 1) (unlines [List.replicate 1023 97]) ≠
    unlines ([List.replicate 1023 97].filter (matchRe [97])) := grep_drops_long le_rfl

end

end Xv6
