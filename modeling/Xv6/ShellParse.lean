import Xv6.ShellModel

/-! The grammar of command lines, and that `parsecmd` accepts exactly its lines, returns
the tree of the derivation and leaves every word of it as a string of its own. -/

namespace Xv6.Sh

open List

variable {buf : List UInt8} {s n : Nat} {ts post : List Token} {cmd : Cmd}

section

inductive Rule
  | line | pipe | exec

/-- `redir*`, with the redirections in the order of the text. -/
inductive Redirs : List Token → List (Tok × Token) → Prop
  | nil : Redirs [] []
  | cons {t w : Token} {ts : List Token} {rs : List (Tok × Token)}
      (ht : t.kind = .lt ∨ t.kind = .gt ∨ t.kind = .app)
      (hw : w.kind = .word) (h : Redirs ts rs) : Redirs (t :: w :: ts) ((t.kind, w) :: rs)

/-- `(word redir*)*` -/
inductive Args : List Token → List (Nat × Nat) → List (Tok × Token) → Prop
  | nil : Args [] [] []
  | cons {w : Token} {ts us : List Token} {argv : List (Nat × Nat)} {rs qs : List (Tok × Token)}
      (hw : w.kind = .word) (hr : Redirs ts rs) (h : Args us argv qs) :
      Args (w :: (ts ++ us)) ((w.q, w.e) :: argv) (rs ++ qs)

def wrap (cmd : Cmd) (rs : List (Tok × Token)) : Cmd := rs.foldl (fun c r => redircmd r.1 r.2 c) cmd

/-- `'&'*`, with what it makes of the command before it. -/
inductive Backs : List Token → Cmd → Cmd → Prop
  | nil {c : Cmd} : Backs [] c c
  | cons {t : Token} {ts : List Token} {c d : Cmd} (ht : t.kind = .amp) (h : Backs ts (.back c) d) :
      Backs (t :: ts) c d

/-- The token sequence derives from the rule, and the command is the tree of the derivation. -/
inductive Derives : Rule → List Token → Cmd → Prop
  | block {l r : Token} {ts us : List Token} {c : Cmd} {rs : List (Tok × Token)}
      (hl : l.kind = .lpar) (h : Derives .line ts c) (hr : r.kind = .rpar) (hs : Redirs us rs) :
      Derives .exec (l :: (ts ++ r :: us)) (wrap c rs)
  | exec {ts us : List Token} {argv : List (Nat × Nat)} {rs qs : List (Tok × Token)}
      (hr : Redirs ts rs) (ha : Args us argv qs) (hn : argv.length ≤ maxargs - 1) :
      Derives .exec (ts ++ us) (wrap (.exec argv) (rs ++ qs))
  | pipeOne {ts : List Token} {c : Cmd} (h : Derives .exec ts c) : Derives .pipe ts c
  | pipe {b : Token} {ts us : List Token} {c d : Cmd} (h : Derives .exec ts c) (hb : b.kind = .bar)
      (hd : Derives .pipe us d) : Derives .pipe (ts ++ b :: us) (.pipe c d)
  | lineOne {ts us : List Token} {c d : Cmd} (h : Derives .pipe ts c) (hb : Backs us c d) :
      Derives .line (ts ++ us) d
  | line {b : Token} {ts us vs : List Token} {c d r : Cmd} (h : Derives .pipe ts c)
      (hb : Backs us c d) (hs : b.kind = .semi) (hr : Derives .line vs r) :
      Derives .line (ts ++ us ++ b :: vs) (.list d r)

lemma wrap_append (c : Cmd) (rs qs : List (Tok × Token)) : wrap c (rs ++ qs) = wrap (wrap c rs) qs :=
  foldl_append

lemma redircmd_addArg (k : Tok) (w : Token) (a : Nat × Nat) (c : Cmd) :
    (redircmd k w c).addArg a = redircmd k w (c.addArg a) := by
  cases k <;> rfl

lemma wrap_addArg (c : Cmd) (rs : List (Tok × Token)) (a : Nat × Nat) :
    (wrap c rs).addArg a = wrap (c.addArg a) rs := by
  induction rs generalizing c with
  | nil => rfl
  | cons r rs ih => exact (ih _).trans (congrArg (wrap · rs) (redircmd_addArg r.1 r.2 a c))

end

section

variable {α β : Type} {m : Parse α} {f : α → Parse β} {Q : α → Prop} {R : β → Prop}

def Ends (m : Parse α) (Q : α → Prop) : Prop :=
  match m with
  | .ok a => Q a
  | .error e => e ≠ none

lemma Ends.bind (h : Ends m Q) (hf : ∀ a, Q a → Ends (f a) R) : Ends (m >>= f) R := by
  cases m with
  | ok a => exact hf a h
  | error e => exact h

lemma Ends.imp {Q' : α → Prop} (h : Ends m Q) (hq : ∀ a, Q a → Q' a) : Ends m Q' := by
  cases m with
  | ok a => exact hq a h
  | error e => exact h

end

section

def Read (buf : List UInt8) (ts : List Token) (D : List Token → Cmd → Prop) (r : Cmd × Nat) : Prop :=
  ∃ pre post, ts = pre ++ post ∧ D pre r.1 ∧ Lexed buf r.2 post

lemma Lexed.peek (h : Lexed buf s ts) (toks : List UInt8) : Lexed buf (peek buf s toks).2 ts := h.scan

lemma peek_true {toks : List UInt8} (hk : Symbols toks) (h : Lexed buf s ts)
    (hp : (Sh.peek buf s toks).1 = true) :
    ∃ t us, ts = t :: us ∧ (toks.any fun k => t.kind.head == some k) = true := by
  cases ts with
  | nil =>
    rw [peek_nil h] at hp
    cases hp
  | cons t us =>
    rw [peek_cons hk h] at hp
    exact ⟨t, us, rfl, hp⟩

variable {t : Token}

lemma Lexed.next (h : Lexed buf s (t :: ts)) :
    (gettoken buf s).1 = t ∧ Lexed buf (gettoken buf s).2 ts := by
  rw [gettoken_cons h]
  exact ⟨rfl, h.tail⟩

lemma head_eq {c : UInt8} {k : Tok} (hc : symbolTok c = some k) (hk : k ≠ .gt)
    (h : ([c].any fun d => t.kind.head == some d) = true) : t.kind = k := by
  have hd : t.kind.head = some c := by simpa using h
  revert hd hc
  cases ht : t.kind <;> intro hc hd <;> cases hd <;> cases hc <;> first | rfl | exact absurd rfl hk

lemma parseredirs_ends (h : Lexed buf s ts) (hn : ts.length < n) :
    Ends (parseredirs buf n cmd s) (Read buf ts fun pre c => ∃ rs, Redirs pre rs ∧
      c = wrap cmd rs) := by
  induction n generalizing s ts cmd with
  | zero => omega
  | succ n ih =>
    unfold parseredirs
    have hp := h.peek [60, 62]
    by_cases hb : (peek buf s [60, 62]).1 = true
    · simp only [hb, if_true]
      obtain ⟨t, us, rfl, ht⟩ := peek_true (by decide) h hb
      obtain ⟨h1, h2⟩ := hp.next
      rw [h1]
      cases us with
      | nil =>
        rw [if_neg (by rw [(gettoken_nil h2).1]; decide)]
        exact Option.some_ne_none _
      | cons w us =>
        obtain ⟨h3, h4⟩ := h2.next
        rw [h3]
        by_cases hw : w.kind = .word
        · rw [if_pos hw]
          refine (ih h4 (by simp only [length_cons] at hn; omega)).imp ?_
          rintro r ⟨pre, post, rfl, ⟨rs, hr, hc⟩, hl⟩
          refine ⟨t :: w :: pre, post, rfl, ⟨(t.kind, w) :: rs, .cons ?_ hw hr, hc⟩, hl⟩
          revert ht
          cases t.kind <;> simp [Tok.head]
        · rw [if_neg hw]
          exact Option.some_ne_none _
    · rw [if_neg hb]
      exact ⟨[], ts, rfl, ⟨[], .nil, rfl⟩, hp⟩

lemma wrap_next (argv : List (Nat × Nat)) (rs qs : List (Tok × Token)) (a : Nat × Nat) :
    wrap ((wrap (.exec argv) rs).addArg a) qs = wrap (.exec (argv ++ [a])) (rs ++ qs) := by
  rw [wrap_addArg, wrap_append]
  rfl

lemma Lexed.ne_eof (h : Lexed buf s (t :: ts)) : t.kind ≠ .eof := by
  intro he
  have ht := h.head
  simp only [TokenAt, he] at ht

lemma parseargs_ends (argv : List (Nat × Nat)) (rs : List (Tok × Token)) (h : Lexed buf s ts)
    (hn : ts.length < n) (ha : argv.length ≤ maxargs - 1) :
    Ends (parseargs buf n (wrap (.exec argv) rs) argv.length s)
    (Read buf ts fun pre c => ∃ av qs, Args pre av qs ∧
      (argv ++ av).length ≤ maxargs - 1 ∧ c = wrap (.exec (argv ++ av)) (rs ++ qs)) := by
  induction n generalizing s ts argv rs with
  | zero => omega
  | succ n ih =>
    unfold parseargs
    have hp := h.peek [124, 41, 38, 59]
    have stop : ∀ s', Lexed buf s' ts → Ends (.ok (wrap (.exec argv) rs, s')) (Read buf ts fun pre c =>
        ∃ av qs, Args pre av qs ∧ (argv ++ av).length ≤ maxargs - 1 ∧ c = wrap (.exec (argv ++ av))
          (rs ++ qs)) :=
      fun s' hs =>
        ⟨[], ts, rfl, ⟨[], [], .nil, by rwa [append_nil], by rw [append_nil, append_nil]⟩, hs⟩
    by_cases hb : (peek buf s [124, 41, 38, 59]).1 = true
    · simp only [hb, if_true]
      exact stop _ hp
    · rw [if_neg hb]
      dsimp only
      cases ts with
      | nil =>
        rw [if_pos (gettoken_nil hp).1]
        exact stop _ (gettoken_nil hp).2
      | cons w us =>
        obtain ⟨h1, h2⟩ := hp.next
        rw [h1, if_neg h.ne_eof]
        by_cases hw : w.kind = .word
        · rw [if_pos hw]
          by_cases hm : argv.length + 1 ≥ maxargs
          · rw [if_pos hm]
            exact Option.some_ne_none _
          · rw [if_neg hm]
            rw [length_cons] at hn
            refine (parseredirs_ends h2 (by omega)).bind ?_
            rintro ⟨c, s'⟩ ⟨pre, post, rfl, ⟨ps, hr, rfl⟩, hl⟩
            rw [length_append] at hn
            have hlen : (argv ++ [(w.q, w.e)]).length = argv.length + 1 := length_append
            have hi := ih (argv ++ [(w.q, w.e)]) (rs ++ ps) hl (by omega) (by omega)
            rw [hlen] at hi
            rw [wrap_next]
            refine hi.imp ?_
            rintro ⟨c, s''⟩ ⟨pre', post', rfl, ⟨av, qs, hA, hle, rfl⟩, hl'⟩
            refine ⟨w :: (pre ++ pre'), post', by simp, ⟨_, _, .cons hw hr hA, ?_, ?_⟩, hl'⟩
            · simpa using hle
            · simp
        · rw [if_neg hw]
          exact Option.some_ne_none _

lemma parsebacks_ends (h : Lexed buf s ts) (hn : ts.length < n) :
    Ends (parsebacks buf n cmd s) (Read buf ts fun pre c => Backs pre cmd c) := by
  induction n generalizing s ts cmd with
  | zero => omega
  | succ n ih =>
    unfold parsebacks
    have hp := h.peek [38]
    by_cases hb : (peek buf s [38]).1 = true
    · simp only [hb, if_true]
      obtain ⟨t, us, rfl, ht⟩ := peek_true (by decide) h hb
      rw [length_cons] at hn
      refine (ih hp.next.2 (by omega)).imp ?_
      rintro r ⟨pre, post, rfl, hd, hl⟩
      exact ⟨t :: pre, post, rfl, .cons (head_eq rfl (by decide) ht) hd, hl⟩
    · rw [if_neg hb]
      exact ⟨[], ts, rfl, .nil, hp⟩

/-- With enough rounds for the tokens that are left, each of the four functions returns or
panics, and what it returns is the tree of the tokens that it has read. -/
structure Parses (buf : List UInt8) (n : Nat) : Prop where
  line : ∀ {s ts}, Lexed buf s ts → 4 * ts.length + 4 ≤ n → Ends (parseline buf n s)
    (Read buf ts (Derives .line))
  pipe : ∀ {s ts}, Lexed buf s ts → 4 * ts.length + 3 ≤ n → Ends (parsepipe buf n s)
    (Read buf ts (Derives .pipe))
  exec : ∀ {s ts}, Lexed buf s ts → 4 * ts.length + 2 ≤ n → Ends (parseexec buf n s)
    (Read buf ts (Derives .exec))
  block : ∀ {s ts}, Lexed buf s ts → 4 * ts.length + 1 ≤ n → Ends (parseblock buf n s)
    (Read buf ts (Derives .exec))

lemma Parses.line_succ (hP : Parses buf n) (h : Lexed buf s ts) (hn : 4 * ts.length + 4 ≤ n + 1) :
    Ends (parseline buf (n + 1) s) (Read buf ts (Derives .line)) := by
  rw [parseline]
  refine (hP.pipe h (by omega)).bind ?_
  rintro ⟨c, s1⟩ ⟨pre, post, rfl, hd, hl⟩
  rw [length_append] at hn
  refine (parsebacks_ends hl (by omega)).bind ?_
  rintro ⟨d, s2⟩ ⟨pre', post', rfl, hb, hl'⟩
  have hp := hl'.peek [59]
  by_cases hs : (peek buf s2 [59]).1 = true
  · simp only [hs, if_true]
    obtain ⟨t, us, rfl, ht⟩ := peek_true (by decide) hl' hs
    simp only [length_append, length_cons] at hn
    refine (hP.line hp.next.2 (by omega)).bind ?_
    rintro ⟨r, s3⟩ ⟨pre'', post'', rfl, hr, hl''⟩
    exact ⟨pre ++ pre' ++ t :: pre'', post'', by simp,
      .line hd hb (head_eq rfl (by decide) ht) hr, hl''⟩
  · rw [if_neg hs]
    exact ⟨pre ++ pre', post', by simp, .lineOne hd hb, hp⟩

lemma Parses.pipe_succ (hP : Parses buf n) (h : Lexed buf s ts) (hn : 4 * ts.length + 3 ≤ n + 1) :
    Ends (parsepipe buf (n + 1) s) (Read buf ts (Derives .pipe)) := by
  rw [parsepipe]
  refine (hP.exec h (by omega)).bind ?_
  rintro ⟨c, s1⟩ ⟨pre, post, rfl, hd, hl⟩
  have hp := hl.peek [124]
  by_cases hs : (peek buf s1 [124]).1 = true
  · simp only [hs, if_true]
    obtain ⟨t, us, rfl, ht⟩ := peek_true (by decide) hl hs
    simp only [length_append, length_cons] at hn
    refine (hP.pipe hp.next.2 (by omega)).bind ?_
    rintro ⟨r, s3⟩ ⟨pre', post', rfl, hr, hl'⟩
    exact ⟨pre ++ t :: pre', post', by simp, .pipe hd (head_eq rfl (by decide) ht) hr, hl'⟩
  · rw [if_neg hs]
    exact ⟨pre, post, rfl, .pipeOne hd, hp⟩

lemma Parses.exec_succ (hP : Parses buf n) (h : Lexed buf s ts) (hn : 4 * ts.length + 2 ≤ n + 1) :
    Ends (parseexec buf (n + 1) s) (Read buf ts (Derives .exec)) := by
  rw [parseexec]
  have hp := h.peek [40]
  by_cases hs : (peek buf s [40]).1 = true
  · simp only [hs, if_true]
    exact hP.block hp (by omega)
  · rw [if_neg hs]
    refine (parseredirs_ends hp (by omega)).bind ?_
    rintro ⟨c, s1⟩ ⟨pre, post, rfl, ⟨rs, hr, rfl⟩, hl⟩
    rw [length_append] at hn
    refine (parseargs_ends [] rs hl (by omega) (Nat.zero_le _)).imp ?_
    rintro ⟨c, s2⟩ ⟨pre', post', rfl, ⟨av, qs, hA, hle, rfl⟩, hl'⟩
    exact ⟨pre ++ pre', post', by simp, .exec hr hA hle, hl'⟩

lemma Parses.block_succ (hP : Parses buf n) (h : Lexed buf s ts) (hn : 4 * ts.length + 1 ≤ n + 1) :
    Ends (parseblock buf (n + 1) s) (Read buf ts (Derives .exec)) := by
  rw [parseblock]
  have hp := h.peek [40]
  by_cases hs : (peek buf s [40]).1 = true
  · simp only [hs, if_true]
    obtain ⟨t, us, rfl, ht⟩ := peek_true (by decide) h hs
    rw [length_cons] at hn
    refine (hP.line hp.next.2 (by omega)).bind ?_
    rintro ⟨c, s1⟩ ⟨pre, post, rfl, hd, hl⟩
    have hp' := hl.peek [41]
    by_cases hs' : (peek buf s1 [41]).1 = true
    · simp only [hs', if_true]
      obtain ⟨u, vs, rfl, hu⟩ := peek_true (by decide) hl hs'
      simp only [length_append, length_cons] at hn
      refine (parseredirs_ends hp'.next.2 (by omega)).imp ?_
      rintro ⟨c', s2⟩ ⟨pre', post', rfl, ⟨rs, hr, rfl⟩, hl'⟩
      exact ⟨t :: (pre ++ u :: pre'), post', by simp,
        .block (head_eq rfl (by decide) ht) hd (head_eq rfl (by decide) hu) hr, hl'⟩
    · rw [if_neg hs']
      exact Option.some_ne_none _
  · rw [if_neg hs]
    exact Option.some_ne_none _

lemma parses (buf : List UInt8) (n : Nat) : Parses buf n := by
  induction n with
  | zero => constructor <;> intros <;> omega
  | succ n ih => exact ⟨ih.line_succ, ih.pipe_succ, ih.exec_succ, ih.block_succ⟩

end

section

def Starts (ks : List Tok) (ts : List Token) : Prop := ∀ t ∈ ts.head?, t.kind ∈ ks

variable {ks : List Tok} {pre : List Token} {rs qs : List (Tok × Token)} {av : List (Nat × Nat)}
  {d c : Cmd}

lemma peek_starts {toks : List UInt8} (hk : Symbols toks) (h : Lexed buf s ts) (hs : Starts ks ts)
    (hd : ∀ k ∈ ks, (toks.any fun c => k.head == some c) = false) : (peek buf s toks).1 = false := by
  cases ts with
  | nil => rw [peek_nil h]
  | cons t us =>
    rw [peek_cons hk h]
    exact hd _ (hs t rfl)

lemma peek_kind (toks : List UInt8) {t : Token} {k : Tok} (hk : Symbols toks)
    (h : Lexed buf s (t :: ts)) (ht : t.kind = k)
    (hd : (toks.any fun c => k.head == some c) = true) : (peek buf s toks).1 = true := by
  rw [peek_cons hk h, ht]
  exact hd

lemma parseredirs_complete (cmd : Cmd) (hr : Redirs pre rs)
    (h : Lexed buf s (pre ++ post)) (hp : Starts [.bar, .rpar, .amp, .semi, .word] post)
    (hn : pre.length < n) :
    ∃ s', parseredirs buf n cmd s = .ok (wrap cmd rs, s') ∧ Lexed buf s' post := by
  induction hr generalizing s n cmd with
  | nil =>
    obtain ⟨n, rfl⟩ : ∃ m, n = m + 1 := ⟨n - 1, by omega⟩
    have hb : (peek buf s [60, 62]).1 = false := peek_starts (by decide) h hp (by decide)
    refine ⟨_, ?_, h.peek [60, 62]⟩
    rw [parseredirs, hb]
    rfl
  | @cons t w ts rs ht hw hr ih =>
    rw [length_cons, length_cons] at hn
    obtain ⟨n, rfl⟩ : ∃ m, n = m + 1 := ⟨n - 1, by omega⟩
    have hb : (peek buf s [60, 62]).1 = true := by
      rcases ht with ht | ht | ht <;> exact peek_kind _ (by decide) h ht (by decide)
    obtain ⟨h1, h2⟩ := (h.peek [60, 62]).next
    obtain ⟨h3, h4⟩ := h2.next
    obtain ⟨s', hs, hl⟩ := ih (n := n) (redircmd t.kind w cmd) h4 (by omega)
    refine ⟨s', ?_, hl⟩
    rw [parseredirs]
    simp only [hb, if_true, h1, h3, hw]
    exact hs

lemma Redirs.starts (hr : Redirs pre rs) (hp : Starts ks post) :
    Starts ([.lt, .gt, .app] ++ ks) (pre ++ post) := by
  cases hr with
  | nil => exact fun t ht => mem_append_right _ (hp t ht)
  | cons ht hw hr =>
    intro u hu
    obtain rfl := Option.some.inj hu
    rcases ht with ht | ht | ht <;> simp [ht]

lemma Args.starts (ha : Args pre av qs)
    (hp : Starts [.bar, .rpar, .amp, .semi] post) :
    Starts [.bar, .rpar, .amp, .semi, .word] (pre ++ post) := by
  cases ha with
  | nil =>
    intro t ht
    exact mem_append_left [Tok.word] (hp t ht)
  | cons hw hr ha =>
    intro u hu
    obtain rfl := Option.some.inj hu
    simp [hw]

lemma parseargs_complete (argv : List (Nat × Nat)) (rs : List (Tok × Token))
    (ha : Args pre av qs)
    (h : Lexed buf s (pre ++ post)) (hp : Starts [.bar, .rpar, .amp, .semi] post) (hn : pre.length < n)
    (hm : (argv ++ av).length ≤ maxargs - 1) :
    ∃ s', parseargs buf n (wrap (.exec argv) rs) argv.length s = .ok
    (wrap (.exec (argv ++ av)) (rs ++ qs), s') ∧ Lexed buf s' post := by
  induction ha generalizing s n argv rs with
  | nil =>
    obtain ⟨n, rfl⟩ : ∃ m, n = m + 1 := ⟨n - 1, by omega⟩
    rw [append_nil, append_nil, parseargs]
    have hl := h.peek [124, 41, 38, 59]
    cases post with
    | nil =>
      rw [if_neg (by rw [peek_nil h]; exact Bool.false_ne_true)]
      exact ⟨_, if_pos (gettoken_nil hl).1, (gettoken_nil hl).2⟩
    | cons t us =>
      refine ⟨_, if_pos ?_, hl⟩
      rw [peek_cons (by decide) h]
      have all : ∀ k ∈ [Tok.bar, .rpar, .amp, .semi],
        ([124, 41, 38, 59].any fun c => k.head == some c) = true := by decide
      exact all _ (hp t rfl)
  | @cons w ts us av ps qs hw hr ha ih =>
    rw [length_cons, length_append] at hn
    obtain ⟨n, rfl⟩ : ∃ m, n = m + 1 := ⟨n - 1, by omega⟩
    have hb : ¬ (peek buf s [124, 41, 38, 59]).1 = true := by
      rw [peek_cons (by decide) h, hw]
      exact Bool.false_ne_true
    rw [cons_append, append_assoc] at h
    obtain ⟨h1, h2⟩ := (h.peek [124, 41, 38, 59]).next
    obtain ⟨s1, hs1, hl1⟩ :=
      parseredirs_complete (n := n) ((wrap (.exec argv) rs).addArg (w.q, w.e)) hr h2
      (ha.starts hp) (by omega)
    obtain ⟨s2, hs2, hl2⟩ :=
      ih (n := n) (argv ++ [(w.q, w.e)]) (rs ++ ps) hl1 (by omega) (by simpa using hm)
    refine ⟨s2, ?_, hl2⟩
    rw [length_append, length_cons] at hm
    have hlt : ¬ argv.length + 1 ≥ maxargs := by unfold maxargs at hm ⊢; omega
    rw [parseargs, if_neg hb]
    simp only [h1, hw, hlt, if_false, if_true, reduceCtorEq]
    rw [hs1]
    simp only [wrap_next, length_append, length_singleton, append_assoc, singleton_append] at hs2 ⊢
    exact hs2

lemma parsebacks_complete (hb : Backs pre cmd d) (h : Lexed buf s (pre ++ post))
    (hp : Starts [.rpar, .semi] post) (hn : pre.length < n) :
    ∃ s', parsebacks buf n cmd s = .ok (d, s') ∧ Lexed buf s' post := by
  induction hb generalizing s n with
  | nil =>
    obtain ⟨n, rfl⟩ : ∃ m, n = m + 1 := ⟨n - 1, by omega⟩
    have hk : (peek buf s [38]).1 = false := peek_starts (by decide) h hp (by decide)
    refine ⟨_, ?_, h.peek [38]⟩
    rw [parsebacks, hk]
    rfl
  | cons ht hb ih =>
    rw [length_cons] at hn
    obtain ⟨n, rfl⟩ : ∃ m, n = m + 1 := ⟨n - 1, by omega⟩
    obtain ⟨s', hs, hl⟩ := ih (n := n) (h.peek [38]).next.2 (by omega)
    refine ⟨s', ?_, hl⟩
    rw [parsebacks, if_pos (peek_kind _ (by decide) h ht (by decide))]
    exact hs

def Rule.parse (buf : List UInt8) : Rule → Nat → Nat → Parse (Cmd × Nat)
  | .line => parseline buf
  | .pipe => parsepipe buf
  | .exec => parseexec buf

def Rule.follow : Rule → List Tok
  | .line => [.rpar]
  | .pipe => [.rpar, .amp, .semi]
  | .exec => [.rpar, .amp, .semi, .bar]

def Rule.depth : Rule → Nat
  | .line => 4
  | .pipe => 3
  | .exec => 2

lemma Starts.mono {ls : List Tok} (h : Starts ks ts) (hs : ks ⊆ ls) : Starts ls ts :=
  fun t ht => hs (h t ht)

lemma starts_cons {t : Token} (h : t.kind ∈ ks) : Starts ks (t :: ts) := by
  intro u hu
  obtain rfl := Option.some.inj hu
  exact h

lemma Backs.starts (hb : Backs pre c d) (hp : Starts [.rpar, .semi] post) :
    Starts [.rpar, .amp, .semi] (pre ++ post) := by
  cases hb with
  | nil => exact hp.mono (by decide)
  | cons ht hb => exact starts_cons (by simp [ht])

lemma parseblock_complete {l r : Token} {us : List Token} {s₁ : Nat}
    (h : Lexed buf s (l :: ts)) (hl : l.kind = .lpar)
    (hline : parseline buf n (gettoken buf (peek buf s [40]).2).2 = .ok (c, s₁))
    (hl₁ : Lexed buf s₁ (r :: us ++ post))
    (hr : r.kind = .rpar) (hs : Redirs us rs) (hp : Starts [.bar, .rpar, .amp, .semi, .word] post)
    (hn : us.length < n) :
    ∃ s', parseblock buf (n + 1) s = .ok (wrap c rs, s') ∧ Lexed buf s' post := by
  have hb := peek_kind [40] (by decide) h hl (by decide)
  have hb1 := peek_kind [41] (by decide) hl₁ hr (by decide)
  obtain ⟨s', hs', hl'⟩ := parseredirs_complete (n := n) c hs (hl₁.peek [41]).next.2 hp hn
  refine ⟨s', ?_, hl'⟩
  rw [parseblock]
  simp only [hb, if_true]
  rw [hline]
  simp only [bind, Except.bind, hb1, if_true]
  exact hs'

lemma Derives.complete {rule : Rule} (hd : Derives rule ts cmd) :
    ∀ {n s post}, Lexed buf s (ts ++ post) →
    Starts rule.follow post → 4 * ts.length + rule.depth ≤ n →
    ∃ s', rule.parse buf n s = .ok (cmd, s') ∧ Lexed buf s' post := by
  induction hd with
  | @block l r ts us c rs hl hd hr hs ih =>
    intro n s post h hp hn
    simp only [length_cons, length_append, Rule.depth] at hn
    obtain ⟨n, rfl⟩ : ∃ m, n = m + 1 + 1 := ⟨n - 2, by omega⟩
    rw [cons_append, append_assoc] at h
    have hb := peek_kind [40] (by decide) h hl (by decide)
    have h' := h.peek [40]
    obtain ⟨s1, hs1, hl1⟩ := ih (n := n) (h'.peek [40]).next.2 (starts_cons (by simp [hr, Rule.follow]))
      (by simp only [Rule.depth]; omega)
    obtain ⟨s2, hs2, hl2⟩ := parseblock_complete h' hl hs1 hl1 hr hs (hp.mono (by decide)) (by omega)
    refine ⟨s2, ?_, hl2⟩
    simp only [Rule.parse]
    rw [parseexec]
    simp only [hb, if_true]
    exact hs2
  | @exec ts us argv rs qs hr ha hm =>
    intro n s post h hp hn
    simp only [length_append, Rule.depth] at hn
    obtain ⟨n, rfl⟩ : ∃ m, n = m + 1 := ⟨n - 1, by omega⟩
    rw [append_assoc] at h
    have hp' : Starts [.bar, .rpar, .amp, .semi] post := hp.mono (by decide)
    have hb : (peek buf s [40]).1 = false :=
      peek_starts (by decide) h (hr.starts (ha.starts hp')) (by decide)
    obtain ⟨s1, hs1, hl1⟩ :=
      parseredirs_complete (n := n) (.exec []) hr (h.peek [40]) (ha.starts hp') (by omega)
    obtain ⟨s2, hs2, hl2⟩ := parseargs_complete (n := n) [] rs ha hl1 hp' (by omega) hm
    refine ⟨s2, ?_, hl2⟩
    simp only [Rule.parse]
    rw [parseexec]
    simp only [hb]
    rw [if_neg (by decide), hs1]
    exact hs2
  | @pipeOne ts c hd ih =>
    intro n s post h hp hn
    simp only [Rule.depth] at hn ih
    obtain ⟨n, rfl⟩ : ∃ m, n = m + 1 := ⟨n - 1, by omega⟩
    obtain ⟨s1, hs1, hl1⟩ := ih (n := n) h (hp.mono (by decide)) (by omega)
    have hb : (peek buf s1 [124]).1 = false := peek_starts (by decide) hl1 hp (by decide)
    refine ⟨_, ?_, hl1.peek [124]⟩
    simp only [Rule.parse] at hs1 ⊢
    rw [parsepipe, hs1]
    simp only [bind, Except.bind, hb]
    rfl
  | @pipe b ts us c d hc hb hd ihc ihd =>
    intro n s post h hp hn
    simp only [length_cons, length_append, Rule.depth] at hn ihc ihd
    obtain ⟨n, rfl⟩ : ∃ m, n = m + 1 := ⟨n - 1, by omega⟩
    rw [append_assoc] at h
    obtain ⟨s1, hs1, hl1⟩ := ihc (n := n) h (starts_cons (by simp [hb, Rule.follow])) (by omega)
    have hk := peek_kind [124] (by decide) hl1 hb (by decide)
    obtain ⟨s2, hs2, hl2⟩ := ihd (n := n) (hl1.peek [124]).next.2 hp (by omega)
    refine ⟨s2, ?_, hl2⟩
    simp only [Rule.parse] at hs1 hs2 ⊢
    rw [parsepipe, hs1]
    simp only [bind, Except.bind, hk, if_true, hs2]
  | @lineOne ts us c d hc hb ih =>
    intro n s post h hp hn
    simp only [length_append, Rule.depth] at hn ih
    obtain ⟨n, rfl⟩ : ∃ m, n = m + 1 := ⟨n - 1, by omega⟩
    rw [append_assoc] at h
    have hp' : Starts [.rpar, .semi] post := hp.mono (by decide)
    obtain ⟨s1, hs1, hl1⟩ := ih (n := n) h (hb.starts hp') (by omega)
    obtain ⟨s2, hs2, hl2⟩ := parsebacks_complete (n := n) hb hl1 hp' (by omega)
    have hk : (peek buf s2 [59]).1 = false := peek_starts (by decide) hl2 hp (by decide)
    refine ⟨_, ?_, hl2.peek [59]⟩
    simp only [Rule.parse] at hs1 ⊢
    rw [parseline, hs1]
    simp only [bind, Except.bind, hs2, hk]
    rfl
  | @line b ts us vs c d r hc hb hs hr ihc ihr =>
    intro n s post h hp hn
    simp only [length_cons, length_append, Rule.depth] at hn ihc ihr
    obtain ⟨n, rfl⟩ : ∃ m, n = m + 1 := ⟨n - 1, by omega⟩
    rw [append_assoc, append_assoc] at h
    have hp' : Starts [.rpar, .semi] (b :: (vs ++ post)) := starts_cons (by simp [hs])
    obtain ⟨s1, hs1, hl1⟩ := ihc (n := n) h (hb.starts hp') (by omega)
    obtain ⟨s2, hs2, hl2⟩ := parsebacks_complete (n := n) hb hl1 hp' (by omega)
    have hk := peek_kind [59] (by decide) hl2 hs (by decide)
    obtain ⟨s3, hs3, hl3⟩ := ihr (n := n) (hl2.peek [59]).next.2 hp (by omega)
    refine ⟨s3, ?_, hl3⟩
    simp only [Rule.parse] at hs1 hs3 ⊢
    rw [parseline, hs1]
    simp only [bind, Except.bind, hs2, hk, if_true, hs3]

end

section

def Cmd.strings : Cmd → List (Nat × Nat)
  | .exec argv => argv
  | .redir cmd file efile _ _ => cmd.strings ++ [(file, efile)]
  | .pipe left right => left.strings ++ right.strings
  | .list left right => left.strings ++ right.strings
  | .back cmd => cmd.strings

def stringAt (mem : List UInt8) (q : Nat) : List UInt8 := (mem.drop q).takeWhile (· != 0)

def Token.text (buf : List UInt8) (t : Token) : List UInt8 := (buf.drop t.q).take (t.e - t.q)

def cut (ws : List (Nat × Nat)) (mem : List UInt8) : List UInt8 := ws.foldl (fun m a => m.set a.2 0) mem

variable {mem : List UInt8} {ws : List (Nat × Nat)} {p : Nat}

lemma nulterminate_eq (cmd : Cmd) (mem : List UInt8) : nulterminate cmd mem = cut cmd.strings mem := by
  induction cmd generalizing mem with
  | exec argv => rfl
  | redir cmd file efile mode fd ih =>
    rw [nulterminate, ih, Cmd.strings, cut, cut, foldl_append]
    rfl
  | pipe left right ihl ihr => rw [nulterminate, ihl, ihr, Cmd.strings, cut, cut, cut, foldl_append]
  | list left right ihl ihr => rw [nulterminate, ihl, ihr, Cmd.strings, cut, cut, cut, foldl_append]
  | back cmd ih => exact ih mem

lemma cut_other (h : ∀ w ∈ ws, w.2 ≠ p) : (cut ws mem)[p]? = mem[p]? := by
  induction ws generalizing mem with
  | nil => rfl
  | cons w ws ih =>
    refine (ih fun v hv => h v (mem_cons_of_mem _ hv)).trans ?_
    exact List.getElem?_set_ne (h w mem_cons_self)

lemma cut_end (hw : ∃ w ∈ ws, w.2 = p) (hlt : p < mem.length) : (cut ws mem)[p]? = some 0 := by
  induction ws generalizing mem with
  | nil =>
    obtain ⟨w, hw, -⟩ := hw
    cases hw
  | cons v ws ih =>
    by_cases hin : ∃ u ∈ ws, u.2 = p
    · exact ih hin (by rwa [length_set])
    · obtain ⟨w, hm, he⟩ := hw
      rcases mem_cons.mp hm with rfl | hm
      · refine (cut_other fun u hu hp => hin ⟨u, hu, hp⟩).trans ?_
        subst he
        exact List.getElem?_set_self hlt
      · exact absurd ⟨w, hm, he⟩ hin

lemma takeWhile_eq_take {P : UInt8 → Bool} {l : List UInt8} {k : Nat}
    (hin : ∀ i < k, ∃ c, l[i]? = some c ∧ P c = true)
    (hk : ∃ c, l[k]? = some c ∧ P c = false) : l.takeWhile P = l.take k := by
  induction k generalizing l with
  | zero =>
    obtain ⟨c, hc, hp⟩ := hk
    cases l with
    | nil => cases hc
    | cons a l =>
      obtain rfl := Option.some.inj hc
      rw [takeWhile_cons_of_neg (by rw [hp]; exact Bool.false_ne_true), take_zero]
  | succ k ih =>
    obtain ⟨c, hc, hp⟩ := hin 0 (Nat.succ_pos k)
    cases l with
    | nil => cases hc
    | cons a l =>
      obtain rfl := Option.some.inj hc
      rw [takeWhile_cons_of_pos hp, take_succ_cons, ih (fun i hi => hin (i + 1) (by omega)) hk]

lemma isWord_ne_zero {c : UInt8} (h0 : (0 : UInt8) ∉ buf) (hc : buf[p]? = some c) :
    (c != 0) = true := by
  refine bne_iff_ne.mpr ?_
  rintro rfl
  exact h0 (mem_of_getElem? hc)

lemma stringAt_cut {t : Token} (h0 : (0 : UInt8) ∉ buf) (ht : TokenAt buf t) (hk : t.kind = .word)
    (hm : (t.q, t.e) ∈ ws) (hws : ∀ w ∈ ws, ∃ u, TokenAt buf u ∧ u.kind = .word ∧ w = (u.q, u.e)) :
    stringAt (cut ws (buf ++ [0])) t.q = t.text buf := by
  simp only [TokenAt, hk] at ht
  obtain ⟨hlt, hin, hstop⟩ := ht
  have hkeep : ∀ p, t.q ≤ p → p < t.e → (cut ws (buf ++ [0]))[p]? = buf[p]? := by
    intro p h1 h2
    obtain ⟨c, hc, hw⟩ := hin p h1 h2
    rw [cut_other, List.getElem?_append_left (List.getElem?_eq_some_iff.mp hc).1]
    rintro w hm he
    obtain ⟨u, hu, huk, rfl⟩ := hws w hm
    simp only [TokenAt, huk] at hu
    obtain rfl : u.e = p := he
    rw [hu.2.2 c hc] at hw
    cases hw
  have hend : (cut ws (buf ++ [0]))[t.e]? = some 0 := by
    refine cut_end ⟨_, hm, rfl⟩ ?_
    obtain ⟨c, hc, -⟩ := hin (t.e - 1) (by omega) (by omega)
    have := (List.getElem?_eq_some_iff.mp hc).1
    rw [length_append, length_singleton]
    omega
  unfold stringAt Token.text
  rw [takeWhile_eq_take (k := t.e - t.q)]
  · refine ext_getElem? fun i => ?_
    by_cases hi : i < t.e - t.q
    · rw [List.getElem?_take_of_lt hi, List.getElem?_take_of_lt hi, List.getElem?_drop,
        List.getElem?_drop, hkeep _ (by omega) (by omega)]
    · rw [List.getElem?_take_eq_none (by omega), List.getElem?_take_eq_none (by omega)]
  · intro i hi
    obtain ⟨c, hc, -⟩ := hin (t.q + i) (by omega) (by omega)
    refine ⟨c, ?_, isWord_ne_zero h0 hc⟩
    rw [List.getElem?_drop, hkeep _ (by omega) (by omega), hc]
  · refine ⟨0, ?_, rfl⟩
    rw [List.getElem?_drop, show t.q + (t.e - t.q) = t.e by omega, hend]

variable {w : Nat × Nat} {rs : List (Tok × Token)}

lemma redircmd_strings {k : Tok} {t : Token} {c : Cmd} (h : w ∈ (redircmd k t c).strings) :
    w ∈ c.strings ∨ w = (t.q, t.e) := by
  cases k
  case lt | gt | app => simpa [redircmd, Cmd.strings] using h
  all_goals exact .inl h

lemma wrap_strings {c : Cmd} (h : w ∈ (wrap c rs).strings) :
    w ∈ c.strings ∨ ∃ r ∈ rs, w = (r.2.q, r.2.e) := by
  induction rs generalizing c with
  | nil => exact .inl h
  | cons r rs ih =>
    rcases ih h with h | ⟨r', hr, hw⟩
    · rcases redircmd_strings h with h | h
      · exact .inl h
      · exact .inr ⟨r, mem_cons_self, h⟩
    · exact .inr ⟨r', mem_cons_of_mem _ hr, hw⟩

/-- The place is that of a word. -/
def WordOf (ts : List Token) (w : Nat × Nat) : Prop := ∃ t ∈ ts, t.kind = .word ∧ w = (t.q, t.e)

lemma WordOf.mono {us : List Token} (h : WordOf ts w) (hs : ts ⊆ us) : WordOf us w := by
  obtain ⟨t, ht, hk, hw⟩ := h
  exact ⟨t, hs ht, hk, hw⟩

lemma Redirs.words (h : Redirs ts rs) : ∀ r ∈ rs, WordOf ts (r.2.q, r.2.e) := by
  induction h with
  | nil =>
    intro r hr
    cases hr
  | cons ht hw h ih =>
    intro r hr
    rcases mem_cons.mp hr with rfl | hr
    · exact ⟨_, mem_cons_of_mem _ mem_cons_self, hw, rfl⟩
    · exact (ih r hr).mono fun u hu => mem_cons_of_mem _ (mem_cons_of_mem _ hu)

lemma Args.words {av : List (Nat × Nat)} {qs : List (Tok × Token)} (h : Args ts av qs) :
    (∀ a ∈ av, WordOf ts a) ∧ ∀ r ∈ qs, WordOf ts (r.2.q, r.2.e) := by
  induction h with
  | nil => exact ⟨fun a ha => (nomatch ha), fun r hr => (nomatch hr)⟩
  | cons hw hr h ih =>
    constructor
    · intro a ha
      rcases mem_cons.mp ha with rfl | ha
      · exact ⟨_, mem_cons_self, hw, rfl⟩
      · exact (ih.1 a ha).mono fun u hu => mem_cons_of_mem _ (mem_append_right _ hu)
    · intro r hm
      rcases mem_append.mp hm with hm | hm
      · exact (hr.words r hm).mono fun u hu => mem_cons_of_mem _ (mem_append_left _ hu)
      · exact (ih.2 r hm).mono fun u hu => mem_cons_of_mem _ (mem_append_right _ hu)

lemma Backs.strings {c d : Cmd} (h : Backs ts c d) : d.strings = c.strings := by
  induction h with
  | nil => rfl
  | cons ht h ih => exact ih

lemma Derives.words {rule : Rule} (h : Derives rule ts cmd) : ∀ w ∈ cmd.strings, WordOf ts w := by
  induction h with
  | block hl h hr hs ih =>
    intro w hw
    rcases wrap_strings hw with hw | ⟨r, hr, rfl⟩
    · exact (ih w hw).mono fun u hu => mem_cons_of_mem _ (mem_append_left _ hu)
    · exact (hs.words r hr).mono fun u hu =>
        mem_cons_of_mem _ (mem_append_right _ (mem_cons_of_mem _ hu))
  | exec hr ha hn =>
    intro w hw
    rcases wrap_strings hw with hw | ⟨r, hm, rfl⟩
    · exact (ha.words.1 w hw).mono fun u hu => mem_append_right _ hu
    · rcases mem_append.mp hm with hm | hm
      · exact (hr.words r hm).mono fun u hu => mem_append_left _ hu
      · exact (ha.words.2 r hm).mono fun u hu => mem_append_right _ hu
  | pipeOne h ih => exact ih
  | pipe h hb hd ihc ihd =>
    intro w hw
    rcases mem_append.mp hw with hw | hw
    · exact (ihc w hw).mono fun u hu => mem_append_left _ hu
    · exact (ihd w hw).mono fun u hu => mem_append_right _ (mem_cons_of_mem _ hu)
  | lineOne h hb ih =>
    intro w hw
    rw [hb.strings] at hw
    exact (ih w hw).mono fun u hu => mem_append_left _ hu
  | line h hb hs hr ihc ihr =>
    intro w hw
    rcases mem_append.mp hw with hw | hw
    · rw [hb.strings] at hw
      exact (ihc w hw).mono fun u hu => mem_append_left _ (mem_append_left _ hu)
    · exact (ihr w hw).mono fun u hu => mem_append_right _ (mem_cons_of_mem _ hu)

end

section

lemma parsecmd_ends (h : Lexed buf 0 ts) :
    Ends (parsecmd buf) fun r => Derives .line ts r.1 ∧ r.2 = nulterminate r.1 (buf ++ [0]) := by
  have hle := h.le
  refine ((parses buf _).line h (by omega)).bind ?_
  rintro ⟨c, s⟩ ⟨pre, post, rfl, hd, hl⟩
  cases post with
  | nil =>
    rw [peek_nil hl, if_neg (fun h => h rfl)]
    rw [append_nil]
    exact ⟨hd, rfl⟩
  | cons t us =>
    have hp : (peek buf s []).2 ≠ buf.length := Nat.ne_of_lt hl.cursor_lt
    simp only [hp, ne_eq, not_false_eq_true, if_true]
    exact Option.some_ne_none _

lemma parsecmd_complete (h : Lexed buf 0 ts) (hd : Derives .line ts cmd) :
    parsecmd buf = .ok (cmd, nulterminate cmd (buf ++ [0])) := by
  have hle := h.le
  have h' : Lexed buf 0 (ts ++ []) := by rwa [append_nil]
  obtain ⟨s, hs, hl⟩ := hd.complete (n := 4 * buf.length + 4) h' (fun t ht => by cases ht)
    (by simp only [Rule.depth]; omega)
  simp only [Rule.parse] at hs
  rw [parsecmd, hs]
  simp only [bind, Except.bind, peek_nil hl]
  exact if_neg fun h => h rfl

/-- The tokens of the line are unique and its words are maximal runs. `parsecmd` always
comes to an end. It returns exactly when the tokens derive from the grammar, with the tree
of the one derivation, and each string of the tree, read up to its NUL, is its token. -/
theorem parsecmd_grammar (buf : List UInt8) (h0 : (0 : UInt8) ∉ buf) :
    ∃ ts, Lexed buf 0 ts ∧ (∀ us, Lexed buf 0 us → us = ts) ∧ (∀ t ∈ ts, Boundary buf t.q) ∧
      parsecmd buf ≠ .error none ∧
      ((∃ r, parsecmd buf = .ok r) ↔ ∃ cmd, Derives .line ts cmd) ∧
      ∀ cmd mem, parsecmd buf = .ok (cmd, mem) →
        Derives .line ts cmd ∧ (∀ d, Derives .line ts d → d = cmd) ∧
        ∀ w ∈ cmd.strings, ∃ t ∈ ts, t.kind = .word ∧ w = (t.q, t.e) ∧
        stringAt mem w.1 = t.text buf := by
  obtain ⟨ts, h⟩ := Lexed.exists (Nat.zero_le buf.length)
  have hends := parsecmd_ends h
  refine ⟨ts, h, fun us hu => h.unique hu, fun t ht =>
    h.boundary (fun p c d hp => by cases hp) ht, ?_, ?_, ?_⟩
  · intro he
    rw [he] at hends
    exact hends rfl
  · constructor
    · rintro ⟨r, hr⟩
      rw [hr] at hends
      exact ⟨r.1, hends.1⟩
    · rintro ⟨cmd, hd⟩
      exact ⟨_, parsecmd_complete h hd⟩
  · intro cmd mem hr
    rw [hr] at hends
    obtain ⟨hd, hm⟩ := hends
    refine ⟨hd, fun d hd' => ?_, fun w hw => ?_⟩
    · rw [parsecmd_complete h hd'] at hr
      exact (Prod.mk.inj (Except.ok.inj hr)).1
    · obtain ⟨t, ht, hk, rfl⟩ := hd.words w hw
      refine ⟨t, ht, hk, rfl, ?_⟩
      rw [show mem = _ from hm, nulterminate_eq]
      refine stringAt_cut h0 (h.tokenAt ht) hk hw fun v hv => ?_
      obtain ⟨u, hu, huk, hv⟩ := hd.words v hv
      exact ⟨u, h.tokenAt hu, huk, hv⟩

def blockLine : List UInt8 := [40, 97, 59, 98, 62, 99, 41, 38]

theorem parsecmd_grammar_block : (0 : UInt8) ∉ blockLine ∧
    ∃ ts, Lexed blockLine 0 ts ∧ (∀ us, Lexed blockLine 0 us → us = ts) ∧
    (∀ t ∈ ts, Boundary blockLine t.q) ∧ parsecmd blockLine ≠ .error none ∧
      ((∃ r, parsecmd blockLine = .ok r) ↔ ∃ cmd, Derives .line ts cmd) ∧
      ∀ cmd mem, parsecmd blockLine = .ok (cmd, mem) →
        Derives .line ts cmd ∧ (∀ d, Derives .line ts d → d = cmd) ∧
        ∀ w ∈ cmd.strings, ∃ t ∈ ts, t.kind = .word ∧ w = (t.q, t.e) ∧
        stringAt mem w.1 = t.text blockLine :=
  ⟨by decide, parsecmd_grammar blockLine (by decide)⟩

example : (parsecmd blockLine).toOption = some (.back (.list (.exec [(1, 2)])
    (.redir (.exec [(3, 4)]) 5 6 (oWronly ||| oCreate ||| oTrunc) 1)),
    [40, 97, 0, 98, 0, 99, 0, 38, 0]) := by decide +kernel

end

end Xv6.Sh
