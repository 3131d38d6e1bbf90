import Mathlib

/-! `printf` of the user library (`printf.c`): the digits of `printint` and `printptr`, and the scan
of the format in `vprintf`, which takes the arguments of the conversions from a list. -/

namespace Xv6

open List

def digitChar (d : Nat) : UInt8 := .ofNat (if d < 10 then 48 + d else 55 + d)

/-- The loop of `printint` for the base `b + 2`. -/
def digitLoop (b x : Nat) : List UInt8 :=
  digitChar (x % (b + 2)) :: if h : x / (b + 2) = 0 then [] else digitLoop b (x / (b + 2))
termination_by x
decreasing_by
  exact Nat.div_lt_self (Nat.pos_of_ne_zero fun h0 => h (by rw [h0, Nat.zero_div])) (by omega)

/-- `buf` when the loop that prints it begins. -/
def printintBuf (xx : BitVec 32) (b : Nat) (sgn : Bool) : List UInt8 :=
  if sgn = true ∧ xx.toInt < 0 then digitLoop b (-xx).toNat ++ [45] else digitLoop b xx.toNat

/-- What `printint` prints. -/
def printint (xx : BitVec 32) (b : Nat) (sgn : Bool) : List UInt8 := (printintBuf xx b sgn).reverse

def printptr (x : BitVec 64) : List UInt8 :=
  48 :: 120 :: (range 16).map fun i => digitChar ((x <<< (4 * i)) >>> 60).toNat

inductive PrintArg where
  | int (v : BitVec 32) | long (v : BitVec 64) | str (s : Option (List UInt8)) | chr (c : UInt8)

/-- What one conversion, or one byte of text, prints. -/
inductive PrintItem where
  | text (l : List UInt8) | dec (v : BitVec 32) | hex (v : BitVec 32) | ptr (v : BitVec 64) | long
      (v : BitVec 64)

/-- The byte after `%`; `none`: the next argument does not match. -/
def convert (c : UInt8) (ap : List PrintArg) : Option (PrintItem × List PrintArg) :=
  if c = 100 then match ap with | .int v :: ap => some (.dec v, ap) | _ => none
  else if c = 108 then match ap with | .long v :: ap => some (.long v, ap) | _ => none
  else if c = 120 then match ap with | .int v :: ap => some (.hex v, ap) | _ => none
  else if c = 112 then match ap with | .long v :: ap => some (.ptr v, ap) | _ => none
  else if c = 115 then
    match ap with
    | .str s :: ap => some (.text (s.getD [40, 110, 117, 108, 108, 41]), ap)
    | _ => none
  else if c = 99 then match ap with | .chr c :: ap => some (.text [c], ap) | _ => none
  else if c = 37 then some (.text [37], ap)
  else some (.text [37, c], ap)

/-- `%l` gives a `uint64` to the `int` of `printint`. -/
def PrintItem.put : PrintItem → List UInt8
  | .text l => l
  | .dec v => printint v 8 true
  | .hex v => printint v 14 false
  | .ptr v => printptr v
  | .long v => printint (v.setWidth 32) 8 false

/-- The loop over the format; `state` is whether a `%` has been read. -/
def vprintf (state : Bool) : List UInt8 → List PrintArg → Option (List UInt8)
  | [], _ => some []
  | c :: fmt, ap =>
    if state then (convert c ap).bind fun r => (vprintf false fmt r.2).map (r.1.put ++ ·)
    else if c = 37 then vprintf true fmt ap
    else (vprintf false fmt ap).map (c :: ·)

/-- The format as a list of what it asks for. A `%` at the end asks for nothing. -/
def printItems : List UInt8 → List PrintArg → Option (List PrintItem)
  | [], _ => some []
  | [c], _ => some (if c = 37 then [] else [.text [c]])
  | c :: d :: fmt, ap =>
    if c = 37 then (convert d ap).bind fun r => (printItems fmt r.2).map (r.1 :: ·)
    else (printItems (d :: fmt) ap).map (.text [c] :: ·)

def numeral (b n : Nat) : List UInt8 := ((if n = 0 then [0] else Nat.digits b n).map digitChar).reverse

def PrintItem.rendering : PrintItem → List UInt8
  | .text l => l
  | .dec v => if v.toInt < 0 then 45 :: numeral 10 v.toInt.natAbs else numeral 10 v.toInt.natAbs
  | .hex v => numeral 16 v.toNat
  | .ptr v => 48 :: 120 :: (range 16).map fun i => digitChar (v.toNat / 16 ^ (15 - i) % 16)
  | .long v => numeral 10 v.toNat

/-- The number that a numeral stands for. -/
def readBack (b : Nat) (l : List UInt8) : Nat :=
  l.foldl (fun a c => b * a + if c.toNat < 58 then c.toNat - 48 else c.toNat - 55) 0

open PrintItem

lemma digitLoop_eq (b x : Nat) : (digitLoop b x).reverse = numeral (b + 2) x := by
  rw [numeral]
  congr 1
  induction x using Nat.strong_induction_on with
  | _ x ih =>
    rw [digitLoop]
    by_cases h0 : x = 0
    · simp [h0]
    · rw [if_neg h0, Nat.digits_def' (by omega) (Nat.pos_of_ne_zero h0), map_cons]
      split
      · next h => simp [h]
      · next h => rw [ih _ (Nat.div_lt_self (Nat.pos_of_ne_zero h0) (by omega)), if_neg h]

lemma vprintf_eq (fmt : List UInt8) (ap : List PrintArg) :
    vprintf false fmt ap = (printItems fmt ap).map (·.flatMap put) := by
  fun_induction printItems fmt ap with
  | case1 => rfl
  | case2 c ap => by_cases hc : c = 37 <;> simp [vprintf, hc, put]
  | case3 d fmt ap ih =>
    cases hr : convert d ap with
    | none => simp [vprintf, hr]
    | some r => simp [vprintf, hr, ih, Function.comp_def]
  | case4 c d fmt ap hc ih =>
    have hstep : vprintf false (c :: d :: fmt) ap = (vprintf false (d :: fmt) ap).map (c :: ·) := by
      rw [vprintf]
      simp [hc]
    simp [hstep, ih, Function.comp_def, put]

variable {b : Nat}

lemma readBack_digits {l : List Nat} (h : ∀ d ∈ l, d < 16) : readBack b (l.map digitChar).reverse =
    Nat.ofDigits b l := by
  induction l with
  | nil => rfl
  | cons d l ih =>
    have hd : ∀ d < 16,
      (if (digitChar d).toNat < 58 then (digitChar d).toNat - 48 else (digitChar d).toNat - 55) =
      d := by decide
    have ih := ih fun e he => h e (mem_cons_of_mem _ he)
    rw [readBack] at ih ⊢
    simp only [map_cons, reverse_cons, foldl_append, ih, foldl_cons, foldl_nil,
      hd d (h d mem_cons_self), Nat.ofDigits_cons]
    omega

lemma readBack_numeral (hb : 1 < b) (hb' : b ≤ 16) (n : Nat) : readBack b (numeral b n) = n := by
  rw [numeral, readBack_digits]
  · split
    · next h => simp [h]
    · exact Nat.ofDigits_digits b n
  · intro d hd
    split at hd
    · simp_all
    · exact (Nat.digits_lt_base hb hd).trans_le hb'

lemma numeral_length_le {m n : Nat} (h : m ≤ n) : (numeral b m).length ≤ (numeral b n).length := by
  simp only [numeral, length_reverse, length_map]
  split <;> split
  · rfl
  · next hn => exact length_pos_iff.mpr (Nat.digits_ne_nil_iff_ne_zero.mpr hn)
  · omega
  · exact Nat.le_length_digits_le b m n h

lemma flatMap_eq_iff {α β : Type} {f g : α → List β} {l : List α}
    (h : ∀ a, (f a).length ≤ (g a).length) : l.flatMap f = l.flatMap g ↔ ∀ a ∈ l, f a = g a := by
  induction l with
  | nil => simp
  | cons a l ih =>
    have hl : (l.flatMap f).length ≤ (l.flatMap g).length := by
      simp only [length_flatMap]
      exact sum_le_sum fun a _ => h a
    rw [flatMap_cons, flatMap_cons, forall_mem_cons, ← ih]
    constructor
    · intro he
      have hlen := congrArg length he
      rw [length_append, length_append] at hlen
      have := h a
      exact append_inj he (by omega)
    · rintro ⟨h1, h2⟩
      rw [h1, h2]

lemma put_long (v : BitVec 64) : (long v).put = numeral 10 (v.toNat % 2 ^ 32) := by
  simp [put, printint, printintBuf, digitLoop_eq]

lemma put_eq_iff (x : PrintItem) : x.put = x.rendering ↔ ∀ v, x = .long v → v.toNat < 2 ^ 32 := by
  cases x with
  | text l => simp [put, rendering]
  | dec v =>
    have hcond := BitVec.toInt_eq_toNat_cond v
    simp only [put, rendering, printint, printintBuf, true_and, reduceCtorEq, false_imp_iff,
      implies_true, iff_true]
    split
    · have hneg : (-v).toNat = v.toInt.natAbs := by
        rw [BitVec.toNat_neg]
        split at hcond <;> omega
      rw [reverse_append, digitLoop_eq, hneg]
      rfl
    · have hpos : v.toNat = v.toInt.natAbs := by split at hcond <;> omega
      rw [digitLoop_eq, hpos]
  | hex v => simp [put, rendering, printint, printintBuf, digitLoop_eq]
  | ptr v =>
    simp only [put, rendering, printptr, reduceCtorEq, false_imp_iff, implies_true, iff_true]
    congr 2
    refine map_congr_left fun i hi => congrArg digitChar ?_
    have hv := v.isLt
    rw [mem_range] at hi
    simp only [BitVec.toNat_ushiftRight, BitVec.toNat_shiftLeft, Nat.shiftLeft_eq,
      Nat.shiftRight_eq_div_pow]
    interval_cases i <;> omega
  | long v =>
    simp only [put_long, rendering, long.injEq, forall_eq']
    constructor
    · intro h
      have hr := congrArg (readBack 10) h
      rw [readBack_numeral (by decide) (by decide), readBack_numeral (by decide) (by decide)] at hr
      rw [← hr]
      exact Nat.mod_lt _ (by decide)
    · intro h
      rw [Nat.mod_eq_of_lt h]

lemma put_length_le (x : PrintItem) : x.put.length ≤ x.rendering.length := by
  by_cases h : ∃ v, x = .long v
  · obtain ⟨v, rfl⟩ := h
    rw [put_long]
    exact numeral_length_le (Nat.mod_le _ _)
  · rw [(put_eq_iff x).mpr fun v hv => absurd ⟨v, hv⟩ h]

lemma printintBuf_length (hb : b = 8 ∨ b = 14) (xx : BitVec 32) (sgn : Bool) :
    (printintBuf xx b sgn).length ≤ 16 := by
  have hloop (x : BitVec 32) : (digitLoop b x.toNat).length ≤ 10 := by
    have hx := x.isLt
    rw [← length_reverse, digitLoop_eq, numeral, length_reverse, length_map]
    split
    · decide
    · refine (Nat.digits_length_le_iff (by omega) _).mpr (hx.trans ?_)
      rcases hb with rfl | rfl <;> decide
  rw [printintBuf]
  split
  · rw [length_append]
    have := hloop (-xx)
    simp only [length_cons, length_nil]
    omega
  · have := hloop xx
    omega

lemma ofDigits_range (n k : Nat) :
    Nat.ofDigits 16 ((range k).map fun i => n / 16 ^ i % 16) = n % 16 ^ k := by
  induction k with
  | zero => simp [Nat.mod_one]
  | succ k ih =>
    rw [range_succ, map_append, Nat.ofDigits_append, ih, Nat.mod_pow_succ]
    simp

/-- With matching arguments `vprintf` prints every number as its numeral if and only if every
argument of a `%l` is below 2^32. The numerals are read back, and `buf` is large enough. -/
theorem printf_faithful_iff {fmt : List UInt8} {ap : List PrintArg} {items : List PrintItem}
    (h : printItems fmt ap = some items) : vprintf false fmt ap = some (items.flatMap put) ∧
    (vprintf false fmt ap = some (items.flatMap rendering) ↔ ∀ v, .long v ∈ items → v.toNat < 2 ^ 32) ∧
    (∀ n, readBack 10 (numeral 10 n) = n ∧ readBack 16 (numeral 16 n) = n) ∧
    (∀ v, readBack 16 ((ptr v).rendering.drop 2) = v.toNat) ∧
    ∀ xx b sgn, b = 8 ∨ b = 14 → (printintBuf xx b sgn).length ≤ 16 := by
  have hput := vprintf_eq fmt ap
  rw [h, Option.map_some] at hput
  refine ⟨hput, ?_, fun n => ⟨readBack_numeral (by decide) (by decide) n,
    readBack_numeral (by decide) (by decide) n⟩, fun v => ?_,
    fun xx b sgn hb => printintBuf_length hb xx sgn⟩
  · rw [hput, Option.some.injEq, flatMap_eq_iff put_length_le]
    refine ⟨fun hall v hv => (put_eq_iff _).mp (hall _ hv) v rfl, fun hall x hx =>
      (put_eq_iff x).mpr ?_⟩
    rintro v rfl
    exact hall v hx
  · have hl : (ptr v).rendering.drop 2 =
      (((range 16).map fun i => v.toNat / 16 ^ i % 16).map digitChar).reverse := by
      simp [rendering, range_succ]
    rw [hl, readBack_digits, ofDigits_range, Nat.mod_eq_of_lt (by have := v.isLt; omega)]
    intro d hd
    obtain ⟨i, -, rfl⟩ := mem_map.mp hd
    exact Nat.mod_lt _ (by decide)

/-- `printf("%d", INT_MIN)`. -/
theorem printf_faithful_iff_min : vprintf false [37, 100] [.int (.intMin 32)] =
    some ([.dec (.intMin 32)].flatMap rendering) := (printf_faithful_iff rfl).2.1.mpr (by simp)

/-- `printf("%l", 1L << 32)` prints `0`. -/
theorem printf_truncates : vprintf false [37, 108] [.long (.ofNat 64 (2 ^ 32))] = some [48] ∧
    readBack 10 [48] ≠ 2 ^ 32 := by
  refine ⟨?_, by decide⟩
  rw [vprintf_eq]
  show some ((digitLoop 8 0).reverse ++ []) = _
  rw [digitLoop_eq]
  rfl

end Xv6
