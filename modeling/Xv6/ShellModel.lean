import Xv6.FileModel

/-! The command parser of the shell, `user/sh.c`: a cursor that moves over the line, four
functions that call each other, and `nulterminate`, which cuts the words out of the line in
place. The line is the text before its NUL; a position in it is an index. -/

namespace Xv6.Sh

open List

def maxargs : Nat := 10

/-- What `gettoken` returns: 0, a symbol, `+` for `>>`, or `a` for a word. -/
inductive Tok
  | eof | bar | lpar | rpar | semi | amp | lt | gt | app | word
  deriving DecidableEq, Repr

structure Token where
  kind : Tok
  q : Nat
  e : Nat
  deriving DecidableEq, Repr

def isSpace (c : UInt8) : Bool := [32, 9, 13, 10, 11].contains c

def symbolTok (c : UInt8) : Option Tok :=
  if c = 124 then some .bar else if c = 40 then some .lpar else if c = 41 then some .rpar
  else if c = 59 then some .semi else if c = 38 then some .amp else if c = 60 then some .lt
  else if c = 62 then some .gt else none

def isWord (c : UInt8) : Bool := !isSpace c && (symbolTok c).isNone

def scan (P : UInt8 → Bool) (buf : List UInt8) (s : Nat) : Nat := s + ((buf.drop s).takeWhile P).length

def gettoken (buf : List UInt8) (s : Nat) : Token × Nat :=
  let q := scan isSpace buf s
  match buf[q]? with
  | none => (⟨.eof, q, q⟩, scan isSpace buf q)
  | some c =>
    match symbolTok c with
    | some .gt =>
      if buf[q + 1]? = some 62 then (⟨.app, q, q + 2⟩, scan isSpace buf (q + 2))
      else (⟨.gt, q, q + 1⟩, scan isSpace buf (q + 1))
    | some k => (⟨k, q, q + 1⟩, scan isSpace buf (q + 1))
    | none => (⟨.word, q, scan isWord buf q⟩, scan isSpace buf (scan isWord buf q))

def peek (buf : List UInt8) (s : Nat) (toks : List UInt8) : Bool × Nat :=
  let q := scan isSpace buf s
  (match buf[q]? with
    | none => false
    | some c => toks.contains c, q)

/-- A command; strings are given by `q` and `eq`. -/
inductive Cmd
  | exec (argv : List (Nat × Nat))
  | redir (cmd : Cmd) (file efile : Nat) (mode : UInt32) (fd : Nat)
  | pipe (left right : Cmd)
  | list (left right : Cmd)
  | back (cmd : Cmd)
  deriving DecidableEq, Repr

abbrev Parse (α : Type) := Except (Option String) α

def redircmd (tok : Tok) (w : Token) (cmd : Cmd) : Cmd :=
  match tok with
  | .lt => .redir cmd w.q w.e oRdonly 0
  | .gt => .redir cmd w.q w.e (oWronly ||| oCreate ||| oTrunc) 1
  | .app => .redir cmd w.q w.e (oWronly ||| oCreate) 1
  | _ => cmd

def parseredirs (buf : List UInt8) : Nat → Cmd → Nat → Parse (Cmd × Nat)
  | 0, _, _ => .error none
  | n + 1, cmd, s =>
    let p := peek buf s [60, 62]
    if p.1 then
      let tok := gettoken buf p.2
      let w := gettoken buf tok.2
      if w.1.kind = .word then parseredirs buf n (redircmd tok.1.kind w.1 cmd) w.2
      else .error (some "missing file for redirection")
    else .ok (cmd, p.2)

/-- `cmd->argv[argc] = q; cmd->eargv[argc] = eq` where `cmd` is the exec node below the
redirections that have been wrapped around it so far. -/
def Cmd.addArg (a : Nat × Nat) : Cmd → Cmd
  | .exec argv => .exec (argv ++ [a])
  | .redir cmd file efile mode fd => .redir (cmd.addArg a) file efile mode fd
  | cmd => cmd

def parseargs (buf : List UInt8) : Nat → Cmd → Nat → Nat → Parse (Cmd × Nat)
  | 0, _, _, _ => .error none
  | n + 1, ret, argc, s =>
    let p := peek buf s [124, 41, 38, 59]
    if p.1 then .ok (ret, p.2)
    else
      let t := gettoken buf p.2
      if t.1.kind = .eof then .ok (ret, t.2)
      else if t.1.kind = .word then
        if argc + 1 ≥ maxargs then .error (some "too many args")
        else do
          let r ← parseredirs buf n (ret.addArg (t.1.q, t.1.e)) t.2
          parseargs buf n r.1 (argc + 1) r.2
      else .error (some "syntax")

def parsebacks (buf : List UInt8) : Nat → Cmd → Nat → Parse (Cmd × Nat)
  | 0, _, _ => .error none
  | n + 1, cmd, s =>
    let p := peek buf s [38]
    if p.1 then parsebacks buf n (.back cmd) (gettoken buf p.2).2 else .ok (cmd, p.2)

mutual

def parseline (buf : List UInt8) : Nat → Nat → Parse (Cmd × Nat)
  | 0, _ => .error none
  | n + 1, s => do
    let c ← parsepipe buf n s
    let b ← parsebacks buf n c.1 c.2
    let p := peek buf b.2 [59]
    if p.1 then do
      let r ← parseline buf n (gettoken buf p.2).2
      .ok (.list b.1 r.1, r.2)
    else .ok (b.1, p.2)

def parsepipe (buf : List UInt8) : Nat → Nat → Parse (Cmd × Nat)
  | 0, _ => .error none
  | n + 1, s => do
    let c ← parseexec buf n s
    let p := peek buf c.2 [124]
    if p.1 then do
      let r ← parsepipe buf n (gettoken buf p.2).2
      .ok (.pipe c.1 r.1, r.2)
    else .ok (c.1, p.2)

def parseexec (buf : List UInt8) : Nat → Nat → Parse (Cmd × Nat)
  | 0, _ => .error none
  | n + 1, s =>
    let p := peek buf s [40]
    if p.1 then parseblock buf n p.2
    else do
      let r ← parseredirs buf n (.exec []) p.2
      parseargs buf n r.1 0 r.2

def parseblock (buf : List UInt8) : Nat → Nat → Parse (Cmd × Nat)
  | 0, _ => .error none
  | n + 1, s =>
    let p := peek buf s [40]
    if p.1 then do
      let c ← parseline buf n (gettoken buf p.2).2
      let p := peek buf c.2 [41]
      if p.1 then parseredirs buf n c.1 (gettoken buf p.2).2
      else .error (some "syntax - missing )")
    else .error (some "parseblock")

end

/-- Writes a NUL after each string of the command; `mem` is the line with its own NUL. -/
def nulterminate : Cmd → List UInt8 → List UInt8
  | .exec argv, mem => argv.foldl (fun m a => m.set a.2 0) mem
  | .redir cmd _ efile _ _, mem => (nulterminate cmd mem).set efile 0
  | .pipe left right, mem => nulterminate right (nulterminate left mem)
  | .list left right, mem => nulterminate right (nulterminate left mem)
  | .back cmd, mem => nulterminate cmd mem

/-- The command and the line as `nulterminate` leaves it. Calls and rounds that are nested
deeper than four for each byte do not occur. -/
def parsecmd (buf : List UInt8) : Parse (Cmd × List UInt8) := do
  let c ← parseline buf (4 * buf.length + 4) 0
  let p := peek buf c.2 []
  if p.2 ≠ buf.length then .error (some "syntax") else .ok (c.1, nulterminate c.1 (buf ++ [0]))

section

variable {P : UInt8 → Bool} {buf : List UInt8} {s e p : Nat} {c : UInt8}

variable {l : List UInt8}

lemma takeWhile_getElem? {i : Nat} (h : i < (l.takeWhile P).length) :
    ∃ c, l[i]? = some c ∧ P c = true := by
  induction l generalizing i with
  | nil => simp at h
  | cons a l ih =>
    by_cases ha : P a = true
    · rw [takeWhile_cons_of_pos ha] at h
      cases i with
      | zero => exact ⟨a, rfl, ha⟩
      | succ i => simpa using ih (by simpa using h)
    · rw [takeWhile_cons_of_neg ha] at h
      simp at h

lemma takeWhile_stop (h : l[(l.takeWhile P).length]? = some c) : P c = false := by
  induction l with
  | nil => simp at h
  | cons a l ih =>
    by_cases ha : P a = true
    · rw [takeWhile_cons_of_pos ha] at h
      exact ih (by simpa using h)
    · rw [takeWhile_cons_of_neg ha] at h
      obtain rfl : a = c := by simpa using h
      simpa using ha

lemma scan_ge : s ≤ scan P buf s := Nat.le_add_right _ _

lemma scan_inside (hs : s ≤ p) (hp : p < scan P buf s) : ∃ c, buf[p]? = some c ∧ P c = true := by
  obtain ⟨c, hc, h⟩ :=
    takeWhile_getElem? (P := P) (l := buf.drop s) (i := p - s) (by unfold scan at hp; omega)
  rw [List.getElem?_drop, show s + (p - s) = p by omega] at hc
  exact ⟨c, hc, h⟩

lemma scan_stop (h : buf[scan P buf s]? = some c) : P c = false := by
  refine takeWhile_stop (l := buf.drop s) ?_
  rw [List.getElem?_drop]
  exact h

lemma scan_eq (hs : s ≤ e) (hin : ∀ p, s ≤ p → p < e → ∃ c, buf[p]? = some c ∧ P c = true)
    (he : ∀ c, buf[e]? = some c → P c = false) : scan P buf s = e := by
  rcases Nat.lt_trichotomy (scan P buf s) e with h | h | h
  · obtain ⟨c, hc, hp⟩ := hin _ scan_ge h
    rw [scan_stop hc] at hp
    cases hp
  · exact h
  · obtain ⟨c, hc, hp⟩ := scan_inside hs h
    rw [he c hc] at hp
    cases hp

lemma scan_le (hs : s ≤ buf.length) : scan P buf s ≤ buf.length := by
  have h := ( takeWhile_prefix P (l := buf.drop s)).length_le
  rw [length_drop] at h
  unfold scan
  omega

end

section

variable {buf : List UInt8} {s : Nat} {t : Token} {ts : List Token}

def Tok.head : Tok → Option UInt8
  | .bar => some 124
  | .lpar => some 40
  | .rpar => some 41
  | .semi => some 59
  | .amp => some 38
  | .lt => some 60
  | .gt | .app => some 62
  | .eof | .word => none

/-- `t` stands in the line: a word is a run of word characters that cannot be made longer,
`>>` is one token, and every other symbol is a token by itself. -/
def TokenAt (buf : List UInt8) (t : Token) : Prop :=
  match t.kind with
  | .eof => False
  | .word => t.q < t.e ∧ (∀ p, t.q ≤ p → p < t.e → ∃ c, buf[p]? = some c ∧ isWord c = true) ∧
      ∀ c, buf[t.e]? = some c → isWord c = false
  | .app => buf[t.q]? = some 62 ∧ buf[t.q + 1]? = some 62 ∧ t.e = t.q + 2
  | .gt => buf[t.q]? = some 62 ∧ buf[t.q + 1]? ≠ some 62 ∧ t.e = t.q + 1
  | k => buf[t.q]? = k.head ∧ t.e = t.q + 1

/-- The tokens of the line from position `s` on, with only whitespace between them. -/
inductive Lexed (buf : List UInt8) : Nat → List Token → Prop
  | nil {s : Nat} (hs : s ≤ buf.length) (h : ∀ p, s ≤ p → p < buf.length → ∃ c, buf[p]? = some c ∧
      isSpace c = true) : Lexed buf s []
  | cons {s : Nat} {t : Token} {ts : List Token} (hs : s ≤ t.q)
      (h : ∀ p, s ≤ p → p < t.q → ∃ c, buf[p]? = some c ∧ isSpace c = true) (ht : TokenAt buf t)
      (hr : Lexed buf t.e ts) : Lexed buf s (t :: ts)

def Tok.sym : Tok → Option Tok
  | .eof | .word => none
  | .app => some .gt
  | k => some k

lemma TokenAt.first (h : TokenAt buf t) : ∃ c, buf[t.q]? = some c ∧ isSpace c = false ∧
    symbolTok c = t.kind.sym ∧ ∀ d, t.kind.head = some d → c = d := by
  obtain ⟨kind, q, e⟩ := t
  cases kind
  case eof => exact h.elim
  case word =>
    obtain ⟨hlt, hin, -⟩ := h
    obtain ⟨c, hc, hw⟩ := hin q (Nat.le_refl _) hlt
    simp only [isWord, Bool.and_eq_true, Bool.not_eq_true', Option.isNone_iff_eq_none] at hw
    exact ⟨c, hc, hw.1, hw.2, fun d hd => by cases hd⟩
  all_goals exact ⟨_, h.1, by decide, rfl, fun d hd => Option.some.inj hd⟩

lemma TokenAt.lt (h : TokenAt buf t) : t.q < t.e := by
  obtain ⟨kind, q, e⟩ := t
  cases kind
  case eof => exact h.elim
  case word => exact h.1
  case app => exact h.2.2 ▸ (by simp : q < q + 2)
  case gt => exact h.2.2 ▸ Nat.lt_succ_self q
  all_goals exact h.2 ▸ Nat.lt_succ_self q

lemma Lexed.le (h : Lexed buf s ts) : s + ts.length ≤ buf.length := by
  induction h with
  | nil hs => exact hs
  | cons hs h ht hr ih =>
    have := ht.lt
    rw [length_cons]
    omega

lemma Lexed.scan_nil (h : Lexed buf s []) : scan isSpace buf s = buf.length := by
  cases h with
  | nil hs h =>
    refine scan_eq hs h fun c hc => ?_
    rw [List.getElem?_eq_none (Nat.le_refl _)] at hc
    cases hc

lemma Lexed.scan_cons (h : Lexed buf s (t :: ts)) : scan isSpace buf s = t.q := by
  cases h with
  | cons hs h ht hr =>
    obtain ⟨c, hc, hsp, -⟩ := ht.first
    refine scan_eq hs h fun d hd => ?_
    rw [hc] at hd
    cases hd
    exact hsp

lemma Lexed.scan (h : Lexed buf s ts) : Lexed buf (scan isSpace buf s) ts := by
  cases ts with
  | nil =>
    rw [h.scan_nil]
    exact .nil (Nat.le_refl _) fun p h1 h2 => absurd h2 (Nat.not_lt.mpr h1)
  | cons t ts =>
    rw [h.scan_cons]
    cases h with
    | cons hs h ht hr =>
      exact .cons (Nat.le_refl _) (fun p h1 h2 => absurd h2 (Nat.not_lt.mpr h1)) ht hr

lemma Lexed.tail (h : Lexed buf s (t :: ts)) : Lexed buf (Sh.scan isSpace buf t.e) ts := by
  cases h with
  | cons hs h ht hr => exact hr.scan

lemma Lexed.head (h : Lexed buf s (t :: ts)) : TokenAt buf t := by
  cases h with
  | cons hs h ht hr => exact ht

lemma gettoken_nil (h : Lexed buf s []) :
    (gettoken buf s).1.kind = .eof ∧ Lexed buf (gettoken buf s).2 [] := by
  have hs := h.scan_nil
  have hn : buf[buf.length]? = none := List.getElem?_eq_none (Nat.le_refl _)
  have h' := h.scan.scan
  rw [hs] at h'
  simp only [gettoken, hs, hn]
  exact ⟨trivial, h'⟩

lemma gettoken_cons (h : Lexed buf s (t :: ts)) : gettoken buf s = (t, Sh.scan isSpace buf t.e) := by
  have hs := h.scan_cons
  have ht := h.head
  obtain ⟨c, hc, hsp, hsym, -⟩ := ht.first
  obtain ⟨kind, q, e⟩ := t
  simp only [gettoken, hs, hc, hsym]
  cases kind
  case eof => exact ht.elim
  case word =>
    obtain ⟨hlt, hin, hstop⟩ := ht
    have he : Sh.scan isWord buf q = e := scan_eq (Nat.le_of_lt hlt) hin hstop
    simp only [Tok.sym, he]
  case app =>
    obtain ⟨-, h2, he⟩ := ht
    have he' : e = q + 2 := he
    simp only [Tok.sym, h2, he', if_true]
  case gt =>
    obtain ⟨-, h2, he⟩ := ht
    have he' : e = q + 1 := he
    simp only [Tok.sym, if_neg h2, he']
  all_goals
    have he' : e = q + 1 := ht.2
    simp only [Tok.sym, he']

def Symbols (toks : List UInt8) : Prop := (toks.all fun k => (symbolTok k).isSome) = true

instance (toks : List UInt8) : Decidable (Symbols toks) := instDecidableEqBool _ _

variable {toks : List UInt8}

lemma peek_nil (h : Lexed buf s []) : peek buf s toks = (false, buf.length) := by
  have hn : buf[buf.length]? = none := List.getElem?_eq_none (Nat.le_refl _)
  simp only [peek, h.scan_nil, hn]

lemma peek_cons (hk : Symbols toks) (h : Lexed buf s (t :: ts)) :
    peek buf s toks = (toks.any fun k => t.kind.head == some k, t.q) := by
  obtain ⟨c, hc, -, hsym, hhead⟩ := h.head.first
  simp only [peek, h.scan_cons, hc]
  congr 1
  cases hd : t.kind.head with
  | some d => rw [hhead d hd, contains_eq_any_beq]; rfl
  | none =>
    have hn : symbolTok c = none := by
      rw [hsym]
      revert hd
      cases t.kind <;> simp [Tok.head, Tok.sym]
    have hm : c ∉ toks := by
      intro hm
      have hs := all_eq_true.mp hk c hm
      rw [hn] at hs
      cases hs
    simp [hm]

lemma symbolTok_some {c : UInt8} {k : Tok} (h : symbolTok c = some k) :
    k.head = some c ∧ k ≠ .eof ∧ k ≠ .word ∧ k ≠ .app := by
  unfold symbolTok at h
  split_ifs at h <;> cases h <;> subst_vars <;> exact ⟨rfl, by decide, by decide, by decide⟩

lemma Lexed.exists (hs : s ≤ buf.length) : ∃ ts, Lexed buf s ts := by
  induction hk : buf.length - s using Nat.strong_induction_on generalizing s with
  | _ k ih =>
    have hge : s ≤ Sh.scan isSpace buf s := scan_ge
    have hin : ∀ p, s ≤ p → p < Sh.scan isSpace buf s → ∃ c, buf[p]? = some c ∧ isSpace c = true :=
      fun p h1 h2 => scan_inside h1 h2
    have next : ∀ t : Token, t.q = Sh.scan isSpace buf s → TokenAt buf t → t.e ≤ buf.length → ∃ ts,
      Lexed buf s ts := by
      intro t hq ht he
      have hlt := ht.lt
      obtain ⟨ts, hts⟩ := ih (buf.length - t.e) (by omega) he rfl
      exact ⟨t :: ts, .cons (hq ▸ hge) (fun p h1 h2 => hin p h1 (hq ▸ h2)) ht hts⟩
    cases hc : buf[Sh.scan isSpace buf s]? with
    | none =>
      refine ⟨[], .nil hs fun p h1 h2 => hin p h1 ?_⟩
      exact Nat.lt_of_lt_of_le h2 (List.getElem?_eq_none_iff.mp hc)
    | some c =>
      have hlt := (List.getElem?_eq_some_iff.mp hc).1
      have hsp := scan_stop hc
      cases hk : symbolTok c with
      | none =>
        have hw : isWord c = true := by simp [isWord, hsp, hk]
        have hne : Sh.scan isSpace buf s ≠ Sh.scan isWord buf (Sh.scan isSpace buf s) := by
          intro he
          rw [he] at hc
          rw [scan_stop hc] at hw
          cases hw
        refine next ⟨.word, Sh.scan isSpace buf s, Sh.scan isWord buf (Sh.scan isSpace buf s)⟩ rfl
          ⟨lt_of_le_of_ne scan_ge hne, fun p h1 h2 => scan_inside h1 h2, fun c hc => scan_stop hc⟩
          (scan_le (Nat.le_of_lt hlt))
      | some k =>
        obtain ⟨hd, h1, h2, h3⟩ := symbolTok_some hk
        by_cases hg : k = .gt ∧ buf[Sh.scan isSpace buf s + 1]? = some 62
        · obtain ⟨rfl, hg⟩ := hg
          refine next ⟨.app, Sh.scan isSpace buf s, Sh.scan isSpace buf s + 2⟩ rfl
            ⟨hc.trans hd.symm, hg, rfl⟩ ?_
          exact (List.getElem?_eq_some_iff.mp hg).1
        · refine next ⟨k, Sh.scan isSpace buf s, Sh.scan isSpace buf s + 1⟩ rfl ?_ hlt
          have hq := hc.trans hd.symm
          cases k
          case gt => exact ⟨hq, fun h => hg ⟨rfl, h⟩, rfl⟩
          case eof => exact absurd rfl h1
          case word => exact absurd rfl h2
          case app => exact absurd rfl h3
          all_goals exact ⟨hq, rfl⟩

lemma Lexed.cursor_lt (h : Lexed buf s (t :: ts)) : Sh.scan isSpace buf s < buf.length := by
  obtain ⟨c, hc, -⟩ := h.head.first
  rw [h.scan_cons]
  exact (List.getElem?_eq_some_iff.mp hc).1

lemma Lexed.unique {ts' : List Token} (h : Lexed buf s ts) (h' : Lexed buf s ts') : ts' = ts := by
  induction h generalizing ts' with
  | nil hs h =>
    cases h' with
    | nil => rfl
    | cons hs' h' ht hr =>
      exact absurd (Lexed.nil hs h).scan_nil (Nat.ne_of_lt (Lexed.cons hs' h' ht hr).cursor_lt)
  | cons hs h ht hr ih =>
    have hg := gettoken_cons (.cons hs h ht hr)
    cases h' with
    | nil hs' h' =>
      exact absurd (Lexed.nil hs' h').scan_nil (Nat.ne_of_lt (Lexed.cons hs h ht hr).cursor_lt)
    | cons hs' h' ht' hr' =>
      rw [gettoken_cons (.cons hs' h' ht' hr')] at hg
      obtain rfl := (Prod.mk.inj hg).1
      rw [ih hr']

lemma Lexed.tokenAt (h : Lexed buf s ts) (hm : t ∈ ts) : TokenAt buf t := by
  induction h with
  | nil => cases hm
  | cons hs h ht hr ih =>
    rcases mem_cons.mp hm with rfl | hm
    · exact ht
    · exact ih hm

/-- No word goes on across `s`. -/
def Boundary (buf : List UInt8) (s : Nat) : Prop :=
  ∀ p c d, s = p + 1 → buf[p]? = some c → buf[s]? = some d → isWord d = true → isWord c = false

lemma TokenAt.boundary (h : TokenAt buf t) : Boundary buf t.e := by
  intro p c d hp hc hd hw
  obtain ⟨kind, q, e⟩ := t
  have hsym : ∀ r k, buf[r]? = some k → isWord k = false → e = r + 1 → isWord c = false := by
    intro r k hk hwk he
    obtain rfl : p = r := by simp only at hp; omega
    rw [hk] at hc
    cases hc
    exact hwk
  cases kind
  case eof => exact h.elim
  case word =>
    have hn := h.2.2 d hd
    rw [hw] at hn
    cases hn
  case app => exact hsym (q + 1) 62 h.2.1 (by decide) h.2.2
  case gt => exact hsym q 62 h.1 (by decide) h.2.2
  all_goals exact hsym q _ h.1 (by decide) h.2

lemma Lexed.boundary (h : Lexed buf s ts) (hb : Boundary buf s) (hm : t ∈ ts) : Boundary buf t.q := by
  induction h with
  | nil => cases hm
  | @cons s u us hs h ht hr ih =>
    rcases mem_cons.mp hm with rfl | hm
    · rcases Nat.eq_or_lt_of_le hs with he | hlt
      · exact he ▸ hb
      · intro p c d hp hc hd hw
        obtain ⟨c', hc', hsp⟩ := h p (by omega) (by omega)
        rw [hc] at hc'
        cases hc'
        simp [isWord, hsp]
    · exact ih ht.boundary hm

end

end Xv6.Sh
