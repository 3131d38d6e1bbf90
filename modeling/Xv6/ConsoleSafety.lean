import Xv6.Lib.Ring
import Xv6.ConsoleModel

/-! The line discipline of the console. `LineEdit` says what it is for: what was typed is a
list of committed bytes and a line that can still be edited. The ring buffer with its three
indices represents it, in every interleaving of the interrupt handler with the readers. -/

namespace Xv6

open List
open Function (update update_of_ne update_self)

open ConsSys

structure LineEdit where
  committed : List UInt8
  pending : List UInt8
  /-- How many of the committed bytes readers have taken. -/
  taken : Nat

namespace LineEdit

def inUse (l : LineEdit) : Nat := l.committed.length + l.pending.length - l.taken

def commit (l : LineEdit) : LineEdit := { l with committed := l.committed ++ l.pending, pending := [] }

def append (l : LineEdit) (c : UInt8) : LineEdit := { l with pending := l.pending ++ [c] }

def type (l : LineEdit) (c : UInt8) : LineEdit :=
  if c = 0 ∨ c = ctrlP then l
  else if c = ctrlU then { l with pending := [] }
  else if c = ctrlH ∨ c = deleteKey then { l with pending := l.pending.dropLast }
  else if l.inUse = inputBufSize then l
  else
    let c := if c = carriageReturn then newline else c
    let l := l.append c
    if c = newline ∨ c = ctrlD ∨ l.inUse = inputBufSize then l.commit else l

def see (l : LineEdit) : ConsEvent → LineEdit
  | .typed c => l.type c
  | .taken _ _ => { l with taken := l.taken + 1 }
  | _ => l

end LineEdit

/-- The lines that the keys of a history amount to. -/
def lineEdited (h : List ConsEvent) : LineEdit := h.foldl LineEdit.see ⟨[], [], 0⟩

/-- What readers have taken from the buffer. -/
def takenBytes (h : List ConsEvent) : List UInt8 :=
  h.filterMap fun | .taken _ c => some c | _ => none

def callSee (p : Nat) (l : List UInt8) : ConsEvent → List UInt8
  | .called q _ => if q = p then [] else l
  | .taken q c => if q = p then l ++ [c] else l
  | _ => l

def callBytes (p : Nat) (h : List ConsEvent) : List UInt8 := h.foldl (callSee p) []

/-- The steps of the console, one constructor for each way through the code. -/
inductive ConsStep (s : ConsSys) : ConsAct → ConsSys → List ConsEvent → Prop
  | intr {c : UInt8} (hl : s.lock = none) :
      ConsStep s (.intr c) (if (s.cons.intr c).2 then (s.setCons (s.cons.intr c).1).wakeReaders
        else s.setCons (s.cons.intr c).1) [.typed c]
  | read {p : Nat} {c : ConsCall} (hp : s.pc p = .out) :
      ConsStep s (.read p c) (s.setPc p (.enter c)) [.called p c]
  | lockEnter {p : Nat} {c : ConsCall} (hl : s.lock = none) (hp : s.pc p = .enter c) :
      ConsStep s (.acquire p) { s.setPc p (.loop c []) with lock := some p } []
  | lockWoken {p : Nat} {c : ConsCall} {got : List UInt8} (hl : s.lock = none)
      (hp : s.pc p = .woken c got) :
      ConsStep s (.acquire p) { s.setPc p (.wait c got) with lock := some p } []
  | go {p : Nat} {c : ConsCall} {got : List UInt8} (hp : s.pc p = .loop c got)
      (hn : (got.length : Int) < c.n) : ConsStep s (.run p) (s.setPc p (.wait c got)) []
  | done {p : Nat} {c : ConsCall} {got : List UInt8} (hp : s.pc p = .loop c got)
      (hn : ¬ (got.length : Int) < c.n) :
      ConsStep s (.run p) (s.leave p .out) [.returned p c got got.length]
  | stop {p : Nat} {c : ConsCall} {got : List UInt8} (hp : s.pc p = .wait c got)
      (he : s.cons.r = s.cons.w)
      (hk : s.killed p = true) : ConsStep s (.run p) (s.leave p .out) [.returned p c got (-1)]
  | rest {p : Nat} {c : ConsCall} {got : List UInt8} (hp : s.pc p = .wait c got)
      (he : s.cons.r = s.cons.w)
      (hk : s.killed p = false) : ConsStep s (.run p) (s.setPc p (.doze c got)) []
  | keep {p : Nat} {c : ConsCall} {got : List UInt8} (hp : s.pc p = .wait c got)
      (he : s.cons.r ≠ s.cons.w) (hc : s.cons.buf (s.cons.r % inputBufSize) = ctrlD)
      (hg : got ≠ []) :
      ConsStep s (.run p) ((s.setCons s.cons.rSucc.rPred).leave p .out) [.returned p c got got.length]
  | eof {p : Nat} {c : ConsCall} (hp : s.pc p = .wait c []) (he : s.cons.r ≠ s.cons.w)
      (hc : s.cons.buf (s.cons.r % inputBufSize) = ctrlD) :
      ConsStep s (.run p) ((s.setCons s.cons.rSucc).leave p .out) [.taken p ctrlD, .returned p c [] 0]
  | line {p : Nat} {c : ConsCall} {got : List UInt8} (hp : s.pc p = .wait c got)
      (he : s.cons.r ≠ s.cons.w)
      (hc : s.cons.buf (s.cons.r % inputBufSize) = newline) (hd : c.dst got.length = true) :
      ConsStep s (.run p) ((s.setCons s.cons.rSucc).leave p .out)
        [.taken p newline, .returned p c (got ++ [newline]) (got ++ [newline]).length]
  | take {p : Nat} {c : ConsCall} {got : List UInt8} {ch : UInt8} (hp : s.pc p = .wait c got)
      (he : s.cons.r ≠ s.cons.w) (hc : s.cons.buf (s.cons.r % inputBufSize) = ch) (h4 : ch ≠ ctrlD)
      (hnl : ch ≠ newline) (hd : c.dst got.length = true) :
      ConsStep s (.run p) ((s.setCons s.cons.rSucc).setPc p (.loop c (got ++ [ch]))) [.taken p ch]
  | fault {p : Nat} {c : ConsCall} {got : List UInt8} {ch : UInt8} (hp : s.pc p = .wait c got)
      (he : s.cons.r ≠ s.cons.w) (hc : s.cons.buf (s.cons.r % inputBufSize) = ch) (h4 : ch ≠ ctrlD)
      (hd : c.dst got.length = false) :
      ConsStep s (.run p) ((s.setCons s.cons.rSucc).leave p .out)
      [.taken p ch, .returned p c got got.length]
  | sleep {p : Nat} {c : ConsCall} {got : List UInt8} (hp : s.pc p = .doze c got) :
      ConsStep s (.run p) (s.leave p (.asleep c got)) []
  | kill {p : Nat} : ConsStep s (.kill p)
      { s.setPc p (s.pc p).wake with killed := update s.killed p true } []

variable {s s' : ConsSys} {out : List ConsEvent}

lemma runCons_cases {p : Nat} (h : runCons s p = some (s', out)) :
    ConsStep s (.run p) s' out := by
  unfold runCons at h
  split at h
  next c got hp =>
    split_ifs at h with hn <;> cases h
    · exact .go hp hn
    · exact .done hp hn
  next c got hp =>
    dsimp only at h
    split_ifs at h with he hk hc hg hd hnl
    · cases h
      exact .stop hp he hk
    · cases h
      exact .rest hp he (by simpa using hk)
    · cases h
      exact .keep hp he hc (length_pos_iff.mp hg)
    · have hnil : got = [] := length_eq_zero_iff.mp (by omega)
      subst hnil
      cases h
      rw [hc]
      exact .eof hp he hc
    · cases h
      rw [hnl]
      exact .line hp he hnl hd
    · cases h
      exact .take hp he rfl hc hnl hd
    · cases h
      exact .fault hp he rfl hc (by simpa using hd)
  next c got hp =>
    cases h
    exact .sleep hp
  next => cases h

lemma cons_step_cases {a : ConsAct} (h : s.step a = some (s', out)) :
    ConsStep s a s' out := by
  cases a with
  | intr c =>
    obtain ⟨s1, hi, he⟩ := Option.map_eq_some_iff.mp h
    cases he
    unfold consoleintr at hi
    split_ifs at hi with hl
    have hs := Option.some.inj hi
    dsimp only at hs
    rw [← hs]
    exact .intr hl
  | read p c =>
    cases hp : s.pc p <;> simp only [ConsSys.step, hp, Option.some.injEq, Prod.mk.injEq,
      reduceCtorEq] at h
    obtain ⟨rfl, rfl⟩ := h
    exact .read hp
  | acquire p =>
    obtain ⟨s1, hi, he⟩ := Option.map_eq_some_iff.mp h
    cases he
    unfold acquireCons at hi
    split_ifs at hi with hl
    cases hp : s.pc p <;> simp only [hp, Option.some.injEq, reduceCtorEq] at hi
    · subst hi
      exact .lockEnter hl hp
    · subst hi
      exact .lockWoken hl hp
  | run p => exact runCons_cases h
  | kill p =>
    cases h
    exact .kill

structure ConsRep (k : Cons) (l : LineEdit) (tk : List UInt8) : Prop where
  ring : RingRep inputBufSize (2 ^ 32) k.buf k.r k.e (l.committed ++ l.pending) tk
  w : k.w = l.committed.length % 2 ^ 32
  taken : l.taken = tk.length
  done : tk <+: l.committed
  plain : newline ∉ l.pending

namespace ConsRep

variable {k : Cons} {l : LineEdit} {tk : List UInt8} {c : UInt8}

variable (h : ConsRep k l tk)
include h

lemma length_le : tk.length ≤ l.committed.length := h.done.length_le

lemma count_le : l.committed.length + l.pending.length ≤ tk.length + inputBufSize := by
  have hc := h.ring.count_le
  rwa [length_append] at hc

lemma count_eq : k.count = l.inUse := by
  have hd := h.ring.diff_eq (by decide)
  rw [length_append] at hd
  rw [Cons.count, hd, LineEdit.inUse, h.taken]

lemma committed : RingRep inputBufSize (2 ^ 32) k.buf k.r k.w l.committed tk where
  head_eq := h.ring.head_eq
  tail_eq := h.w
  count_le := by
    have hc := h.count_le
    omega
  taken := h.done
  slot := by
    intro j hj x hx
    obtain ⟨hlt, -⟩ := List.getElem?_eq_some_iff.mp hx
    exact h.ring.slot j hj x (by rwa [List.getElem?_append_left hlt])

lemma e_eq_w_iff : k.e = k.w ↔ l.pending = [] := by
  rw [h.ring.tail_eq, h.w, length_append]
  constructor
  · intro he
    have hc := h.count_le
    have hl := h.length_le
    have heq := RingRep.eq_of_mod_eq (Nat.le_add_right l.committed.length l.pending.length)
      (by simp only [inputBufSize] at hc; omega) he.symm
    exact length_eq_zero_iff.mp (by omega)
  · intro he
    rw [he]
    rfl

lemma r_eq_w_iff : k.r = k.w ↔ tk = l.committed := h.committed.empty_iff (by decide)

lemma erase {pend : List UInt8} (hp : l.pending = pend ++ [c]) :
    k.buf (k.ePred % inputBufSize) = c ∧ ConsRep (k.setE k.ePred) { l with pending := pend } tk := by
  have hring := h.ring
  rw [hp, ← append_assoc] at hring
  obtain ⟨hlast, hring⟩ :=
    hring.retract (by decide) (Nat.two_pow_pos 32) (h.done.trans (prefix_append ..))
  have hset : ∀ e, RingRep inputBufSize (2 ^ 32) k.buf k.r e (l.committed ++ pend) tk →
      ConsRep (k.setE e) { l with pending := pend } tk := by
    refine fun e hr => ⟨hr, h.w, h.taken, h.done, fun hm => h.plain ?_⟩
    rw [hp]
    exact mem_append_left _ hm
  exact ⟨hlast, hset _ hring⟩

omit h

lemma killLine (n : Nat) (h : ConsRep k l tk) (hn : l.pending.length ≤ n) :
    ConsRep (k.killLine n) { l with pending := [] } tk := by
  induction n generalizing k l with
  | zero =>
    have hnil : l.pending = [] := length_eq_zero_iff.mp (by omega)
    rw [← hnil]
    exact h
  | succ n ih =>
    rcases eq_nil_or_concat l.pending with hnil | ⟨pend, c, hp⟩
    · have hew : k.e = k.w := h.e_eq_w_iff.mpr hnil
      rw [Cons.killLine, if_neg (fun hh => hh.1 hew), ← hnil]
      exact h
    · rw [concat_eq_append] at hp
      have hew : k.e ≠ k.w := by
        rw [Ne, h.e_eq_w_iff, hp]
        simp
      obtain ⟨hlast, he⟩ := h.erase hp
      have hc : c ≠ newline := by
        rintro rfl
        exact h.plain (by rw [hp]; simp)
      rw [Cons.killLine, if_pos ⟨hew, by rw [hlast]; exact hc⟩]
      refine ih (l := { l with pending := pend }) he ?_
      have hlen := congrArg List.length hp
      simp only [length_append, length_singleton] at hlen
      dsimp only
      omega

include h

lemma put (hroom : l.inUse < inputBufSize) (c : UInt8) :
    RingRep inputBufSize (2 ^ 32)
    (k.put c).buf (k.put c).r (k.put c).e (l.committed ++ (l.append c).pending) tk := by
  have hpush := h.ring.push (by decide) (by
    rw [length_append]
    rw [LineEdit.inUse, h.taken] at hroom
    have hl := h.length_le
    omega) c
  rwa [append_assoc] at hpush

lemma store (h0 : c ≠ 0) (hP : c ≠ ctrlP) (hU : c ≠ ctrlU) (hH : ¬ (c = ctrlH ∨ c = deleteKey)) :
    ConsRep (k.store c).1 (l.type c) tk := by
  have hle := h.count_le
  have hlen := h.length_le
  unfold LineEdit.type
  rw [if_neg (by simp [h0, hP]), if_neg hU, if_neg hH]
  unfold Cons.store
  rw [h.count_eq]
  by_cases hfull : l.inUse = inputBufSize
  · rw [if_neg (by omega), if_pos hfull]
    exact h
  · have hroom : l.inUse < inputBufSize := by
      have hu : l.inUse = l.committed.length + l.pending.length - tk.length := by
        rw [LineEdit.inUse, h.taken]
      omega
    rw [if_pos ⟨h0, hroom⟩, if_neg hfull]
    dsimp only
    set d := if c = carriageReturn then newline else c
    have hput := h.put hroom d
    have hcount : (k.put d).count = (l.append d).inUse := by
      have hd := hput.diff_eq (by decide)
      rw [length_append] at hd
      rw [Cons.count, hd, LineEdit.inUse, ← h.taken]
      rfl
    rw [hcount]
    by_cases hcommit : d = newline ∨ d = ctrlD ∨ (l.append d).inUse = inputBufSize
    · rw [if_pos hcommit, if_pos hcommit]
      refine ⟨?_, ?_, h.taken, h.done.trans (prefix_append ..), not_mem_nil⟩
      · change RingRep _ _ _ _ _ (l.committed ++ (l.append d).pending ++ []) tk
        rw [append_nil]
        exact hput
      · exact hput.tail_eq
    · rw [if_neg hcommit, if_neg hcommit]
      refine ⟨hput, h.w, h.taken, h.done, fun hm => ?_⟩
      rcases mem_append.mp hm with hm | hm
      · exact h.plain hm
      · exact hcommit (.inl (mem_singleton.mp hm).symm)

lemma intr (c : UInt8) : ConsRep (k.intr c).1 (l.type c) tk := by
  unfold Cons.intr
  by_cases hP : c = ctrlP
  · rw [if_pos hP, LineEdit.type, if_pos (Or.inr hP)]
    exact h
  · rw [if_neg hP]
    by_cases hU : c = ctrlU
    · rw [if_pos hU, LineEdit.type, if_neg (by subst hU; decide), if_pos hU]
      have hcount := (h.ring.tail_eq)
      refine h.killLine _ ?_
      have hc := h.count_le
      have hl := h.length_le
      rw [hcount, h.w, length_append]
      simp only [inputBufSize] at hc
      omega
    · rw [if_neg hU]
      by_cases hH : c = ctrlH ∨ c = deleteKey
      · have htype : l.type c = { l with pending := l.pending.dropLast } := by
          rw [LineEdit.type, if_neg (by rcases hH with rfl | rfl <;> decide), if_neg hU, if_pos hH]
        rw [if_pos hH, htype]
        rcases eq_nil_or_concat l.pending with hnil | ⟨pend, d, hp⟩
        · have hew : k.e = k.w := h.e_eq_w_iff.mpr hnil
          rw [if_neg (by simpa using hew), hnil, dropLast_nil, ← hnil]
          exact h
        · rw [concat_eq_append] at hp
          have hew : k.e ≠ k.w := by
            rw [Ne, h.e_eq_w_iff, hp]
            simp
          rw [if_pos hew, hp, dropLast_concat]
          exact (h.erase hp).2
      · rw [if_neg hH]
        by_cases h0 : c = 0
        · rw [Cons.store, if_neg (by simp [h0]), LineEdit.type, if_pos (Or.inl h0)]
          exact h
        · exact h.store h0 hP hU hH

lemma take (hne : k.r ≠ k.w) :
    ConsRep k.rSucc { l with taken := l.taken + 1 } (tk ++ [k.buf (k.r % inputBufSize)]) := by
  have hne' : tk ≠ l.committed := fun he => hne (h.r_eq_w_iff.mpr he)
  obtain ⟨-, hpop⟩ := h.committed.pop (by decide) hne'
  have hall : tk ≠ l.committed ++ l.pending := by
    intro he
    have hlen := congrArg List.length he
    have hle := h.length_le
    rw [length_append] at hlen
    exact hne' (h.done.eq_of_length (by omega))
  obtain ⟨-, hring⟩ := h.ring.pop (by decide) hall
  refine ⟨hring, h.w, ?_, hpop.taken, h.plain⟩
  rw [length_append, ← h.taken]
  rfl

lemma r_lt : k.r < 2 ^ 32 := by
  rw [h.ring.head_eq]
  exact Nat.mod_lt _ (by decide)

lemma rSucc_rPred : k.rSucc.rPred = k := by
  have hlt := h.r_lt
  have hr : ((k.r + 1) % 2 ^ 32 + 2 ^ 32 - 1) % 2 ^ 32 = k.r := by omega
  unfold Cons.rPred Cons.rSucc
  dsimp only
  rw [hr]

omit h

end ConsRep

/-- Bytes of a line that is not finished. -/
def PlainBytes (got : List UInt8) : Prop := newline ∉ got ∧ ctrlD ∉ got

/-- What a call has stored fits its buffer, and none of it ends the call; `ok` is known of the
arguments. -/
def ConsPc.Sound (ok : ConsCall → Prop) : ConsPc → Prop
  | .out => True
  | .enter c => ok c
  | .loop c got => ok c ∧ PlainBytes got ∧ (got.length : Int) ≤ max c.n 0
  | .wait c got | .doze c got | .asleep c got | .woken c got =>
    ok c ∧ PlainBytes got ∧ (got.length : Int) < c.n

def ConsPc.got : ConsPc → Option (List UInt8)
  | .out => none
  | .enter _ => some []
  | .loop _ got | .wait _ got | .doze _ got | .asleep _ got | .woken _ got => some got

/-- Only calls that are `ok` are made. -/
def CallsOk (ok : ConsCall → Prop) (_ : ConsSys) (a : ConsAct) : Prop := ∀ p c, a = .read p c → ok c

structure ConsInv (ok : ConsCall → Prop) (s : ConsSys) (h : List ConsEvent) : Prop where
  rep : ConsRep s.cons (lineEdited h) (takenBytes h)
  pcs : ∀ p, (s.pc p).Sound ok
  calls : ∀ p got, (s.pc p).got = some got → callBytes p h = got

section

variable {s s' : ConsSys} {h out : List ConsEvent} {a : ConsAct} {p q : Nat} {c : ConsCall}
  {got : List UInt8} {ok : ConsCall → Prop}

@[simp] lemma takenBytes_append : takenBytes (h ++ out) = takenBytes h ++ takenBytes out :=
  filterMap_append

@[simp] lemma lineEdited_append : lineEdited (h ++ out) = out.foldl LineEdit.see (lineEdited h) :=
  foldl_append

@[simp] lemma callBytes_append : callBytes p (h ++ out) = out.foldl (callSee p) (callBytes p h) :=
  foldl_append

variable {d : ConsPc}

lemma ConsPc.sound_wake : d.wake.Sound ok ↔ d.Sound ok := by
  cases d <;> rfl

lemma ConsPc.got_wake : d.wake.got = d.got := by
  cases d <;> rfl

lemma PlainBytes.nil : PlainBytes [] := ⟨not_mem_nil, not_mem_nil⟩

lemma PlainBytes.concat {ch : UInt8} (hg : PlainBytes got) (h4 : ch ≠ ctrlD) (hnl : ch ≠ newline) :
    PlainBytes (got ++ [ch]) := by
  refine ⟨fun hm => ?_, fun hm => ?_⟩
  · rcases mem_append.mp hm with hm | hm
    · exact hg.1 hm
    · exact hnl (mem_singleton.mp hm).symm
  · rcases mem_append.mp hm with hm | hm
    · exact hg.2 hm
    · exact h4 (mem_singleton.mp hm).symm

lemma ConsRep.quiet (hr : ConsRep s.cons (lineEdited h) (takenBytes h)) (hc : s'.cons = s.cons)
    (hl : ∀ l, out.foldl LineEdit.see l = l) (ht : takenBytes out = []) :
    ConsRep s'.cons (lineEdited (h ++ out)) (takenBytes (h ++ out)) := by
  rw [hc, lineEdited_append, takenBytes_append, hl, ht, append_nil]
  exact hr

lemma ConsRep.step (hr : ConsRep s.cons (lineEdited h) (takenBytes h)) (hs : ConsStep s a s' out) :
    ConsRep s'.cons (lineEdited (h ++ out)) (takenBytes (h ++ out)) := by
  cases hs with
  | @intr c hl =>
    have hcons : (if (s.cons.intr c).2 then (s.setCons (s.cons.intr c).1).wakeReaders
        else s.setCons (s.cons.intr c).1).cons = (s.cons.intr c).1 := by
      split <;> rfl
    rw [hcons, lineEdited_append, takenBytes_append]
    have hi := hr.intr c
    rw [← append_nil (takenBytes h)] at hi
    exact hi
  | keep hp he hc hg =>
    refine hr.quiet ?_ (fun _ => rfl) rfl
    exact hr.rSucc_rPred
  | eof hp he hc =>
    have ht := hr.take he
    rw [hc] at ht
    rw [lineEdited_append, takenBytes_append]
    exact ht
  | line hp he hc hd =>
    have ht := hr.take he
    rw [hc] at ht
    rw [lineEdited_append, takenBytes_append]
    exact ht
  | take hp he hc h4 hnl hd =>
    have ht := hr.take he
    rw [hc] at ht
    rw [lineEdited_append, takenBytes_append]
    exact ht
  | fault hp he hc h4 hd =>
    have ht := hr.take he
    rw [hc] at ht
    rw [lineEdited_append, takenBytes_append]
    exact ht
  | _ => exact hr.quiet rfl (fun _ => rfl) rfl

lemma ConsInv.move (hi : ConsInv ok s h) (hs : ConsStep s a s' out)
    (hpc : s'.pc = update s.pc p d) (hd : d.Sound ok)
    (hother : ∀ q, q ≠ p → callBytes q (h ++ out) = callBytes q h)
    (hself : ∀ got, d.got = some got → callBytes p (h ++ out) = got) : ConsInv ok s' (h ++ out) where
  rep := hi.rep.step hs
  pcs := by
    intro q
    rw [hpc]
    by_cases hq : q = p
    · subst hq
      rwa [update_self]
    · rw [update_of_ne hq]
      exact hi.pcs q
  calls := by
    intro q got hg
    rw [hpc] at hg
    by_cases hq : q = p
    · subst hq
      rw [update_self] at hg
      exact hself got hg
    · rw [update_of_ne hq] at hg
      rw [hother q hq]
      exact hi.calls q got hg

lemma ConsInv.at (hi : ConsInv ok s h) (hp : s.pc p = d) : d.Sound ok := by
  rw [← hp]
  exact hi.pcs p

lemma ConsInv.callBytes_eq (hi : ConsInv ok s h) (hp : s.pc p = d) (hg : d.got = some got) :
    callBytes p h = got :=
  hi.calls p got (by rw [hp]; exact hg)

lemma ConsInv.stay (hi : ConsInv ok s h) (hs : ConsStep s a s' [])
    (hpc : s'.pc = update s.pc p d) (hd : d.Sound ok) (hg : d.got = (s.pc p).got) :
    ConsInv ok s' (h ++ []) := by
  refine hi.move hs hpc hd (fun q _ => by rw [append_nil]) fun got hgot => ?_
  rw [append_nil]
  exact hi.calls p got (by rw [← hg]; exact hgot)

lemma setCons_leave_pc (k : Cons) (d : ConsPc) : ((s.setCons k).leave p d).pc = update s.pc p d := rfl

/-- Each way through the code keeps the invariant. -/
lemma ConsInv.step (hi : ConsInv ok s h) (hok : CallsOk ok s a) (hs : ConsStep s a s' out) :
    ConsInv ok s' (h ++ out) := by
  have hs' := hs
  cases hs with
  | @intr ch hl =>
    have hpcs : ∀ q, (if (s.cons.intr ch).2 then (s.setCons (s.cons.intr ch).1).wakeReaders
        else s.setCons (s.cons.intr ch).1).pc q = s.pc q ∨ (if (s.cons.intr ch).2 then
        (s.setCons (s.cons.intr ch).1).wakeReaders else s.setCons (s.cons.intr ch).1).pc q =
          (s.pc q).wake := by
      intro q
      split
      · exact .inr rfl
      · exact .inl rfl
    refine ⟨hi.rep.step hs', fun q => ?_, fun q got hg => ?_⟩
    · rcases hpcs q with he | he
      · rw [he]
        exact hi.pcs q
      · rw [he, ConsPc.sound_wake]
        exact hi.pcs q
    · rw [callBytes_append]
      rcases hpcs q with he | he
      · exact hi.calls q got (by rw [← he]; exact hg)
      · exact hi.calls q got (by rw [← ConsPc.got_wake, ← he]; exact hg)
  | @read p c hp =>
    refine hi.move hs' rfl (hok p c rfl) (fun q hq => ?_) fun got hg => ?_
    · rw [callBytes_append]
      exact if_neg (Ne.symm hq)
    · cases hg
      rw [callBytes_append]
      exact if_pos rfl
  | lockEnter hl hp =>
    have ha := hi.at hp
    exact hi.stay hs' rfl ⟨ha, .nil, by simp⟩ (by rw [hp]; rfl)
  | lockWoken hl hp =>
    have ha := hi.at hp
    exact hi.stay hs' rfl ha (by rw [hp]; rfl)
  | go hp hn =>
    have ha := hi.at hp
    exact hi.stay hs' rfl ⟨ha.1, ha.2.1, hn⟩ (by rw [hp]; rfl)
  | done hp hn => exact hi.move hs' rfl trivial (fun q hq => by rw [callBytes_append]; rfl) nofun
  | stop hp he hk => exact hi.move hs' rfl trivial (fun q hq => by rw [callBytes_append]; rfl) nofun
  | rest hp he hk =>
    have ha := hi.at hp
    exact hi.stay hs' rfl ha (by rw [hp]; rfl)
  | keep hp he hc hg =>
    exact hi.move hs' (setCons_leave_pc ..) trivial (fun q hq => by rw [callBytes_append]; rfl) nofun
  | eof hp he hc =>
    exact hi.move hs' rfl trivial
      (fun q hq => by rw [callBytes_append]; exact if_neg (Ne.symm hq)) nofun
  | line hp he hc hd =>
    exact hi.move hs' rfl trivial
      (fun q hq => by rw [callBytes_append]; exact if_neg (Ne.symm hq)) nofun
  | @take p c got ch hp he hc h4 hnl hd =>
    obtain ⟨hcall, hplain, hlt⟩ := hi.at hp
    refine hi.move hs' rfl ⟨hcall, hplain.concat h4 hnl, ?_⟩ (fun q hq => ?_) fun g hg => ?_
    · rw [length_append, length_singleton]
      omega
    · rw [callBytes_append]
      exact if_neg (Ne.symm hq)
    · cases hg
      rw [callBytes_append, hi.callBytes_eq hp rfl]
      exact if_pos rfl
  | fault hp he hc h4 hd =>
    exact hi.move hs' rfl trivial
      (fun q hq => by rw [callBytes_append]; exact if_neg (Ne.symm hq)) nofun
  | sleep hp =>
    have ha := hi.at hp
    exact hi.stay hs' rfl ha (by rw [hp]; rfl)
  | @kill p => exact hi.stay hs' rfl (ConsPc.sound_wake.mpr (hi.pcs p)) ConsPc.got_wake

lemma ConsInv.init (hf : s.Fresh) : ConsInv ok s [] := by
  refine ⟨⟨?_, ?_, rfl, prefix_refl _, not_mem_nil⟩, fun p => ?_, fun p got hg => ?_⟩
  · rw [hf.r, hf.e]
    exact RingRep.nil ..
  · rw [hf.w]
    rfl
  · rw [hf.pc]
    trivial
  · rw [hf.pc] at hg
    cases hg

lemma ConsInv.reach (hr : consMachine.Reach (CallsOk ok) s h) : ConsInv ok s h := by
  refine hr.invariant (fun s hs => ConsInv.init hs) ?_
  intro s s' h out a _ hi hok hs
  exact hi.step hok (cons_step_cases hs)

lemma LineEdit.committed_grows (l : LineEdit) (c : UInt8) : l.committed <+: (l.type c).committed := by
  unfold LineEdit.type
  split
  · exact prefix_refl _
  · split
    · exact prefix_refl _
    · split
      · exact prefix_refl _
      · split
        · exact prefix_refl _
        · dsimp only
          generalize (if c = carriageReturn then newline else c) = d
          split
          · exact prefix_append ..
          · exact prefix_refl _

lemma ConsRep.kept {k k' : Cons} {l l' : LineEdit} {tk : List UInt8} (hr : ConsRep k l tk)
    (hr' : ConsRep k' l' tk) (hp : l.committed <+: l'.committed) : k'.r = k.r ∧
      (k.w + 2 ^ 32 - k.r) % 2 ^ 32 ≤ (k'.w + 2 ^ 32 - k'.r) % 2 ^ 32 ∧
      ∀ j < (k.w + 2 ^ 32 - k.r) % 2 ^ 32,
        k'.buf ((k.r + j) % 2 ^ 32 % inputBufSize) = k.buf ((k.r + j) % 2 ^ 32 % inputBufSize) := by
  rw [hr.committed.diff_eq (by decide), hr'.committed.diff_eq (by decide)]
  refine ⟨by rw [hr'.ring.head_eq, hr.ring.head_eq], Nat.sub_le_sub_right hp.length_le _,
    fun j hj => ?_⟩
  have hidx : (k.r + j) % 2 ^ 32 % inputBufSize = (tk.length + j) % inputBufSize := by
    rw [hr.ring.head_eq, Nat.mod_add_mod, Nat.mod_mod_of_dvd _ (by decide)]
  have hlt : tk.length + j < l.committed.length := by omega
  have hget : l.committed[tk.length + j]? = some l.committed[tk.length + j] :=
    List.getElem?_eq_getElem hlt
  have hget' : l'.committed[tk.length + j]? = some l.committed[tk.length + j] := by
    obtain ⟨t, ht⟩ := hp
    rw [← ht, List.getElem?_append_left hlt, hget]
  rw [hidx, hr.committed.slot _ (Nat.le_add_right ..) _ hget,
    hr'.committed.slot _ (Nat.le_add_right ..) _ hget']

def ConsCall.Writable (c : ConsCall) : Prop := 0 < c.n ∧ ∀ i : Nat, (i : Int) < c.n → c.dst i = true

lemma filter_plain (hg : PlainBytes got) : got.filter (· ≠ ctrlD) = got := by
  rw [filter_eq_self]
  intro x hx
  have hne : x ≠ ctrlD := fun he => hg.2 (he ▸ hx)
  simpa using hne

lemma ConsInv.returned {r : Int} (hi : ConsInv ConsCall.Writable s h) (hs : ConsStep s a s' out)
    (hout : .returned p c got r ∈ out) : newline ∉ got.dropLast ∧ (r = -1 ∨ r = got.length) ∧
      (callBytes p (h ++ out)).filter (· ≠ ctrlD) = got := by
  have hplain : ∀ {g : List UInt8}, PlainBytes g → newline ∉ g.dropLast :=
    fun hg hm => hg.1 (dropLast_subset _ hm)
  rw [callBytes_append]
  cases hs with
  | done hp hn =>
    simp only [mem_singleton, ConsEvent.returned.injEq] at hout
    obtain ⟨rfl, rfl, rfl, rfl⟩ := hout
    have hpl := (hi.at hp).2.1
    refine ⟨hplain hpl, .inr rfl, ?_⟩
    rw [hi.callBytes_eq hp rfl]
    exact filter_plain hpl
  | stop hp he hk =>
    simp only [mem_singleton, ConsEvent.returned.injEq] at hout
    obtain ⟨rfl, rfl, rfl, rfl⟩ := hout
    have hpl := (hi.at hp).2.1
    refine ⟨hplain hpl, .inl rfl, ?_⟩
    rw [hi.callBytes_eq hp rfl]
    exact filter_plain hpl
  | keep hp he hc hg =>
    simp only [mem_singleton, ConsEvent.returned.injEq] at hout
    obtain ⟨rfl, rfl, rfl, rfl⟩ := hout
    have hpl := (hi.at hp).2.1
    refine ⟨hplain hpl, .inr rfl, ?_⟩
    rw [hi.callBytes_eq hp rfl]
    exact filter_plain hpl
  | eof hp he hc =>
    simp only [mem_cons, reduceCtorEq, ConsEvent.returned.injEq, not_mem_nil, or_false,
      false_or] at hout
    obtain ⟨rfl, rfl, rfl, rfl⟩ := hout
    refine ⟨not_mem_nil, .inr rfl, ?_⟩
    rw [hi.callBytes_eq hp rfl]
    simp [callSee]
  | line hp he hc hd =>
    simp only [mem_cons, reduceCtorEq, ConsEvent.returned.injEq, not_mem_nil, or_false,
      false_or] at hout
    obtain ⟨rfl, rfl, rfl, rfl⟩ := hout
    have hpl := (hi.at hp).2.1
    refine ⟨by rw [dropLast_concat]; exact hpl.1, .inr rfl, ?_⟩
    rw [hi.callBytes_eq hp rfl]
    simp only [foldl_cons, foldl_nil, callSee, if_pos]
    rw [filter_append, filter_plain hpl]
    rfl
  | fault hp he hc h4 hd =>
    obtain ⟨hw, -, hlt⟩ := hi.at hp
    rw [hw.2 _ hlt] at hd
    cases hd
  | _ => simp at hout

/-- The buffer is a queue of the finished lines and the line that is edited. Keys do not touch
finished lines; readers take them in order, a call returns at most one line, and ^D ends a call
without being part of its result. -/
theorem console_line_discipline (hr : consMachine.Reach (CallsOk ConsCall.Writable) s h) :
    ((s.cons.w + 2 ^ 32 - s.cons.r) % 2 ^ 32 ≤ s.cons.count ∧ s.cons.count ≤ inputBufSize) ∧
      takenBytes h <+: (lineEdited h).committed ∧
      (s.cons.w + 2 ^ 32 - s.cons.r) % 2 ^ 32 =
      (lineEdited h).committed.length - (takenBytes h).length ∧
      (∀ j x, (takenBytes h).length ≤ j →
        ((lineEdited h).committed ++ (lineEdited h).pending)[j]? = some x →
        s.cons.buf (j % inputBufSize) = x) ∧
      ∀ a s' out, s.step a = some (s', out) →
        (∀ c, a = .intr c → s'.cons.r = s.cons.r ∧
          (s.cons.w + 2 ^ 32 - s.cons.r) % 2 ^ 32 ≤ (s'.cons.w + 2 ^ 32 - s'.cons.r) % 2 ^ 32 ∧
          ∀ j < (s.cons.w + 2 ^ 32 - s.cons.r) % 2 ^ 32,
          s'.cons.buf ((s.cons.r + j) % 2 ^ 32 % inputBufSize) =
            s.cons.buf ((s.cons.r + j) % 2 ^ 32 % inputBufSize)) ∧
        (∀ p c got r, .returned p c got r ∈ out → newline ∉ got.dropLast ∧
          (r = -1 ∨ r = got.length) ∧ (callBytes p (h ++ out)).filter (· ≠ ctrlD) = got) ∧
        (∀ p, .taken p ctrlD ∈ out → ∃ c, out = [.taken p ctrlD, .returned p c [] 0]) ∧
        ∀ p c got, a = .run p → s.pc p = .wait c got → s.cons.r ≠ s.cons.w →
          s.cons.buf (s.cons.r % inputBufSize) = ctrlD → got ≠ [] →
          s'.cons = s.cons ∧ out = [.returned p c got got.length] := by
  have hi := ConsInv.reach hr
  have hcount := hi.rep.count_eq
  have hdiff := hi.rep.committed.diff_eq (by decide)
  have hle := hi.rep.count_le
  have htk := hi.rep.taken
  refine ⟨⟨?_, ?_⟩, hi.rep.done, hdiff, fun j x hj => hi.rep.ring.slot j hj x, fun a s' out hstep => ?_⟩
  · rw [hdiff, hcount, LineEdit.inUse, htk]
    omega
  · rw [hcount, LineEdit.inUse, htk]
    omega
  have hs := cons_step_cases hstep
  refine ⟨fun c ha => ?_, fun p c got r hout => hi.returned hs hout, fun p hout => ?_, ?_⟩
  · subst ha
    have hrep := hi.rep.step hs
    have hev : out = [.typed c] := by
      cases hs
      rfl
    rw [hev, takenBytes_append, lineEdited_append] at hrep
    have hnil : takenBytes h ++ takenBytes [.typed c] = takenBytes h := append_nil _
    rw [hnil] at hrep
    exact hi.rep.kept hrep ((lineEdited h).committed_grows c)
  · cases hs with
    | eof hp he hc =>
      simp only [mem_cons, reduceCtorEq, ConsEvent.taken.injEq, not_mem_nil, or_false, and_true] at hout
      subst hout
      exact ⟨_, rfl⟩
    | line hp he hc hd =>
      simp only [mem_cons, reduceCtorEq, ConsEvent.taken.injEq, not_mem_nil, or_false] at hout
      exact absurd hout.2 (by decide)
    | take hp he hc h4 hnl hd =>
      simp only [mem_singleton, ConsEvent.taken.injEq] at hout
      exact absurd hout.2.symm h4
    | fault hp he hc h4 hd =>
      simp only [mem_cons, reduceCtorEq, ConsEvent.taken.injEq, not_mem_nil, or_false] at hout
      exact absurd hout.2.symm h4
    | _ => simp at hout
  · intro p c got ha hp hne hc hg
    subst ha
    have hpc : ∀ {d : ConsPc}, s.pc p = d → d = .wait c got := fun hd => hd.symm.trans hp
    cases hs with
    | keep hp' he' hc' hg' =>
      cases hpc hp'
      exact ⟨hi.rep.rSucc_rPred, rfl⟩
    | go hp' | done hp' | sleep hp' => cases hpc hp'
    | stop hp' he' | rest hp' he' => exact absurd he' hne
    | eof hp' =>
      cases hpc hp'
      exact absurd rfl hg
    | line hp' he' hc' =>
      rw [hc] at hc'
      exact absurd hc' (by decide)
    | take hp' he' hc' h4 | fault hp' he' hc' h4 => exact absurd (hc'.symm.trans hc) h4

/-- A call `c` of `consoleread` returns `r`, after it has stored `got`, in some run of the console. -/
def ConsolereadReturns (c : ConsCall) (r : Int) (got : List UInt8) : Prop :=
  ∃ s h s' out p, consMachine.Reach (fun _ _ => True) s h ∧ s.step (.run p) = some (s', out) ∧
    .returned p c got r ∈ out

lemma ConsolereadReturns.bounded {r : Int} (hc : ConsolereadReturns c r got) :
    r ≤ max c.n 0 ∧ (got.length : Int) ≤ max c.n 0 := by
  obtain ⟨s, h, s', out, p, hr, hstep, hout⟩ := hc
  have hi : ConsInv (fun _ => True) s h := ConsInv.reach (hr.mono fun _ _ _ _ _ _ => trivial)
  cases cons_step_cases hstep with
  | done hp hn =>
    simp only [mem_singleton, ConsEvent.returned.injEq] at hout
    obtain ⟨-, rfl, rfl, rfl⟩ := hout
    have hle := (hi.at hp).2.2
    exact ⟨hle, hle⟩
  | stop hp he hk =>
    simp only [mem_singleton, ConsEvent.returned.injEq] at hout
    obtain ⟨-, rfl, rfl, rfl⟩ := hout
    have hlt := (hi.at hp).2.2
    exact ⟨by omega, by omega⟩
  | keep hp he hc hg =>
    simp only [mem_singleton, ConsEvent.returned.injEq] at hout
    obtain ⟨-, rfl, rfl, rfl⟩ := hout
    have hlt := (hi.at hp).2.2
    exact ⟨by omega, by omega⟩
  | eof hp he hc =>
    simp only [mem_cons, reduceCtorEq, ConsEvent.returned.injEq, not_mem_nil, or_false,
      false_or] at hout
    obtain ⟨-, rfl, rfl, rfl⟩ := hout
    exact ⟨le_max_right _ _, le_max_right _ _⟩
  | line hp he hc hd =>
    simp only [mem_cons, reduceCtorEq, ConsEvent.returned.injEq, not_mem_nil, or_false,
      false_or] at hout
    obtain ⟨-, rfl, rfl, rfl⟩ := hout
    have hlt := (hi.at hp).2.2
    rw [length_append, length_singleton]
    exact ⟨by omega, by omega⟩
  | fault hp he hc h4 hd =>
    simp only [mem_cons, reduceCtorEq, ConsEvent.returned.injEq, not_mem_nil, or_false,
      false_or] at hout
    obtain ⟨-, rfl, rfl, rfl⟩ := hout
    have hlt := (hi.at hp).2.2
    exact ⟨by omega, by omega⟩
  | _ => simp at hout

end

def bootCons : ConsSys where
  cons := ⟨fun _ => 0, 0, 0, 0⟩
  lock := none
  pc := fun _ => .out
  killed := fun _ => false

lemma bootCons_fresh : bootCons.Fresh := ⟨rfl, rfl, rfl, rfl, fun _ => rfl⟩

lemma callsOk_of_not_read {ok : ConsCall → Prop} {a : ConsAct} (h : ∀ p c, a ≠ .read p c) :
    CallsOk ok s a := fun p c ha => absurd ha (h p c)

theorem console_line_discipline_edit : ∃ s h, consMachine.Reach (CallsOk ConsCall.Writable) s h ∧
    (lineEdited h).committed = [98, 10] ∧ takenBytes h = [98] ∧
    takenBytes h <+: (lineEdited h).committed := by
  have h0 : consMachine.Reach (CallsOk ConsCall.Writable) bootCons [] := .init bootCons_fresh
  have h1 := h0.step (a := .intr 97) (callsOk_of_not_read nofun) rfl
  have h2 := h1.step (a := .intr 8) (callsOk_of_not_read nofun) rfl
  have h3 := h2.step (a := .intr 98) (callsOk_of_not_read nofun) rfl
  have h4 := h3.step (a := .intr 13) (callsOk_of_not_read nofun) rfl
  have h5 := h4.step (a := .read 1 ⟨fun _ => true, 5⟩)
    (fun p c ha => by cases ha; exact ⟨by decide, fun _ _ => rfl⟩) rfl
  have h6 := h5.step (a := .acquire 1) (callsOk_of_not_read nofun) rfl
  have h7 := h6.step (a := .run 1) (callsOk_of_not_read nofun) rfl
  have h8 := h7.step (a := .run 1) (callsOk_of_not_read nofun) rfl
  exact ⟨_, _, h8, by decide, by decide, (console_line_discipline h8).2.1⟩

end Xv6
