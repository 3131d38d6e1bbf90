import Xv6.LogModel

/-! Crash atomicity of the log. The disk is always either clean (header count 0,
home locations untouched) or pending (header and log blocks hold the whole
transaction, home locations partly installed), and recovery turns both into a
clean disk, however often it is itself interrupted. -/

namespace Xv6

open List
open Function (update update_of_ne update_self)

open DiskProg

lemma headN_putHeadBlocks (hb : Block) (i : Nat) (lh : List Nat) :
    headN (putHeadBlocks hb i lh) = headN hb := by
  induction lh generalizing hb i with
  | nil => rfl
  | cons b bs ih =>
    rw [putHeadBlocks, ih]
    exact Bytes.field_setField_of_disjoint hb b (by omega)

variable {lh : List Nat} {i j : Nat} {sb : Superblock} {m : LogMem} {d : Disk}

lemma headN_putHead (hb : Block) (h : lh.length ≤ logSize) : headN (putHead hb lh) = lh.length := by
  have hl : lh.length < 256 ^ 4 := by simp [logSize, maxOpBlocks] at h; omega
  rw [putHead, headN_putHeadBlocks, headN,
    Bytes.field_setField_self hb lh.length (by decide), Nat.mod_eq_of_lt hl]

lemma headBlock_putHeadBlocks_of_lt (hb : Block) (lh : List Nat) (h : j < i) :
    headBlock (putHeadBlocks hb i lh) j = headBlock hb j := by
  induction lh generalizing hb i with
  | nil => rfl
  | cons b bs ih =>
    rw [putHeadBlocks, ih _ (by omega)]
    exact Bytes.field_setField_of_disjoint hb b (by omega)

lemma headBlock_putHeadBlocks (hb : Block)
    (hsmall : ∀ b ∈ lh, b < 2 ^ 32) (hroom : 4 + 4 * (i + lh.length) ≤ bsize) (hj : j < lh.length) :
    headBlock (putHeadBlocks hb i lh) (i + j) = lh.getD j 0 := by
  induction lh generalizing hb i j with
  | nil => simp at hj
  | cons b bs ih =>
    rw [length_cons] at hroom hj
    cases j with
    | zero =>
      have hb' : b < 256 ^ 4 := hsmall b (by simp)
      have hself := Bytes.field_setField_self hb b (show 4 + 4 * i + 4 ≤ bsize by omega)
      rw [putHeadBlocks, headBlock_putHeadBlocks_of_lt _ bs (by omega), headBlock,
        Nat.add_zero, hself, Nat.mod_eq_of_lt hb']
      rfl
    | succ j =>
      have hh := ih (hb.setField (4 + 4 * i) 4 b) (fun x hx => hsmall x (by simp [hx])) (i := i + 1)
        (by omega) (show j < bs.length by omega)
      rw [show i + (j + 1) = i + 1 + j by omega]
      simpa [putHeadBlocks] using hh

lemma getHead_putHead (hb : Block) (hsmall : ∀ b ∈ lh, b < 2 ^ 32)
    (h : lh.length ≤ logSize) : getHead (putHead hb lh) = lh := by
  have hl : lh.length ≤ 30 := h
  have hn : (toInt32 (headN (putHead hb lh))).toNat = lh.length := by
    rw [headN_putHead hb h, toInt32, if_pos (by omega)]
    rfl
  rw [getHead, hn]
  apply ext_getElem (by simp)
  intro i hi hl'
  have hh := headBlock_putHeadBlocks (hb.setField 0 4 lh.length) hsmall (i := 0)
    (by simp [bsize]; omega) hl'
  rw [Nat.zero_add] at hh
  simp only [getElem_map, getElem_range, putHead, hh]
  simp [getD_eq_getElem?_getD, hl']

lemma getHead_eq_nil {hb : Block} (h : headN hb = 0) : getHead hb = [] := by
  simp [getHead, h, toInt32]

/-- What one `commit()` is given: the blocks logged and their cached contents. The
bounds are those of `lh.block[LOGSIZE]` and of the log region behind the header. -/
structure Txn (sb : Superblock) where
  block : List Nat
  data : Nat → Block
  nodup : block.Nodup
  outside : ∀ b ∈ block, b < sb.logstart ∨ sb.logstart + sb.nlog ≤ b
  small : ∀ b ∈ block, b < 2 ^ 32
  fits : block.length ≤ sb.nlog - 1
  room : block.length ≤ logSize

/-- The blocks of the log area. -/
def InLog (sb : Superblock) (b : Nat) : Prop := sb.logstart ≤ b ∧ b < sb.logstart + sb.nlog

def Txn.apply {sb : Superblock} (t : Txn sb) (d : Disk) : Disk :=
  fun b => if b ∈ t.block then t.data b else d b

def Txn.logWrites {sb : Superblock} (t : Txn sb) : List (Nat × Block) :=
  (List.range t.block.length).map fun i => (sb.logstart + i + 1, t.data (t.block.getD i 0))

def Txn.homeWrites {sb : Superblock} (t : Txn sb) : List (Nat × Block) :=
  (List.range t.block.length).map fun i => (t.block.getD i 0, t.data (t.block.getD i 0))

lemma Txn.getD_mem (t : Txn sb) (h : i < t.block.length) :
    t.block.getD i 0 ∈ t.block := by
  simp [getD_eq_getElem?_getD, h]

lemma Txn.homeWrites_eq (t : Txn sb) : t.homeWrites = t.block.map fun b => (b, t.data b) := by
  apply ext_getElem (by simp [Txn.homeWrites])
  intro i hi hb
  have hl : i < t.block.length := by simpa using hb
  simp [Txn.homeWrites, getD_eq_getElem?_getD, hl]

def LogMem.load (m : LogMem) (b : Nat) (d : Disk) : LogMem :=
  match m.cache b with
  | some _ => m
  | none => m.setCache b (d b)

@[simp] lemma LogMem.load_log (m : LogMem) (b : Nat) (d : Disk) : (m.load b d).log = m.log := by
  unfold LogMem.load
  split <;> rfl

lemma LogMem.load_cache (m : LogMem) (b x : Nat) (d : Disk) :
    (m.load b d).cache x = if x = b then some ((m.cache b).getD (d b)) else m.cache x := by
  unfold LogMem.load
  by_cases hx : x = b
  · subst hx
    cases hc : m.cache x <;> simp [hc, LogMem.setCache]
  · cases hc : m.cache b <;> simp [LogMem.setCache, hx]

lemma does_bread (b : Nat) (m : LogMem) (d : Disk) :
    Does (bread b) m d [] ((m.cache b).getD (d b)) (m.load b d) := by
  constructor <;> cases hc : m.cache b <;> simp [bread, trace_bind, run_bind, hc, LogMem.load]

lemma does_bwrite (b : Nat) (v : Block) (m : LogMem) (d : Disk) :
    Does (bwrite b v) m d [(b, v)] () (m.setCache b v) :=
  (does_modifyMem _ m d).bind (does_writeDisk b v _ d)

def CacheOk (sb : Superblock) (m : LogMem) (d : Disk) : Prop :=
  ∀ b v, InLog sb b → m.cache b = some v → d b = v

lemma CacheOk.getD (h : CacheOk sb m d) {b : Nat}
    (hb : InLog sb b) : (m.cache b).getD (d b) = d b := by
  cases hc : m.cache b with
  | none => rfl
  | some v => exact (h b v hb hc).symm

lemma CacheOk.load (h : CacheOk sb m d) (b : Nat) :
    CacheOk sb (m.load b d) d := by
  intro x v hx hv
  rw [LogMem.load_cache] at hv
  by_cases he : x = b
  · subst he
    rw [if_pos rfl, h.getD hx] at hv
    exact Option.some.inj hv
  · rw [if_neg he] at hv
    exact h x v hx hv

lemma CacheOk.write (h : CacheOk sb m d) (b : Nat)
    (v : Block) : CacheOk sb (m.setCache b v) (update d b v) := by
  intro x u hx hu
  by_cases he : x = b
  · subst he
    simpa [LogMem.setCache] using hu
  · rw [update_of_ne he]
    exact h x u hx (by simpa [LogMem.setCache, he] using hu)

lemma CacheOk.setLh (h : CacheOk sb m d) (lh : List Nat) :
    CacheOk sb (m.setLh lh) d := h

section

variable {sb : Superblock} (t : Txn sb)

/-- Memory while a transaction is being written: its header is in `log.lh` and
the log region of the cache agrees with the disk. -/
structure Logging (m : LogMem) (d : Disk) : Prop where
  start : m.log.start = sb.logstart
  lh : m.log.lh = t.block
  cache : CacheOk sb m d

variable {i b n : Nat} {m : LogMem} {d base : Disk} {w : Nat × Block} {ws : List (Nat × Block)}

lemma Txn.slot_inLog (h : i < t.block.length) : InLog sb (sb.logstart + i + 1) := by
  have hf := t.fits
  constructor <;> omega

lemma Txn.slot_ne (h : i < t.block.length) (hb : b ∈ t.block) : b ≠ sb.logstart + i + 1 := by
  have hf := t.fits
  have ho := t.outside b hb
  omega

/-- The blocks of the transaction are in the cache. -/
def Cached (m : LogMem) : Prop := ∀ b ∈ t.block, m.cache b = some (t.data b)

lemma writeLogTail_does (hi : i < t.block.length) (h : Logging t m d ∧ Cached t m) :
    ∃ m', Does (writeLogTail i) m d [(sb.logstart + i + 1, t.data (t.block.getD i 0))] () m' ∧
      Logging t m' (applyWrites d [(sb.logstart + i + 1, t.data (t.block.getD i 0))]) ∧
      Cached t m' := by
  obtain ⟨hl, hcache⟩ := h
  have hmem := t.getD_mem hi
  have hne := t.slot_ne hi hmem
  have hfrom : ((m.load (sb.logstart + i + 1) d).cache (t.block.getD i 0)).getD (d (t.block.getD i 0)) =
      t.data (t.block.getD i 0) := by
    rw [LogMem.load_cache, if_neg hne, hcache _ hmem]
    rfl
  refine ⟨((m.load (sb.logstart + i + 1) d).load (t.block.getD i 0) d).setCache (sb.logstart + i + 1)
    (t.data (t.block.getD i 0)), ?_, ⟨by simpa using hl.start, by simpa using hl.lh, ?_⟩, ?_⟩
  · refine (does_getMem m d).bind ?_
    rw [hl.start, hl.lh]
    refine (does_bread _ m d).bind ((does_bread _ _ d).bind ?_)
    rw [hfrom]
    exact does_bwrite _ _ _ d
  · exact ((hl.cache.load _).load _).write _ _
  · intro b hb
    have hbs := t.slot_ne hi hb
    simp only [LogMem.setCache, update_of_ne hbs, LogMem.load_cache, if_neg hbs, if_neg hne,
      hcache b hb, hcache _ hmem, Option.getD_some]
    split
    · rename_i he
      rw [he]
    · rfl

lemma writeLog_does (h : Logging t m d) (hc : Cached t m) :
    ∃ m', Does writeLog m d t.logWrites () m' ∧ Logging t m' (applyWrites d t.logWrites) := by
  have hbound : ∀ (m : LogMem) (d : Disk), Logging t m d ∧ Cached t m →
      m.log.lh.length = t.block.length := fun m d hi => by rw [hi.1.lh]
  obtain ⟨m', hdo, hinv⟩ :=
    forBelow_does hbound (fun i m d hi hh => writeLogTail_does t hi hh) logSize 0
    (Nat.zero_le _) (by simpa using t.room) m d ⟨h, hc⟩
  rw [Nat.sub_zero, ← range_eq_range'] at hdo hinv
  exact ⟨m', hdo, hinv.1⟩

lemma writeHead_does (hn : 0 < sb.nlog) (hs : m.log.start = sb.logstart)
    (hc : CacheOk sb m d) :
    ∃ m', Does writeHead m d [(sb.logstart, putHead (d sb.logstart) m.log.lh)] () m' ∧
    m'.log = m.log ∧
    CacheOk sb m' (applyWrites d [(sb.logstart, putHead (d sb.logstart) m.log.lh)]) := by
  have hin : InLog sb sb.logstart := ⟨Nat.le_refl _, by omega⟩
  refine ⟨(m.load sb.logstart d).setCache sb.logstart (putHead (d sb.logstart) m.log.lh), ?_,
    by simp, (hc.load _).write _ _⟩
  refine (does_getMem m d).bind ?_
  have hb := does_bread sb.logstart m d
  rw [hc.getD hin] at hb
  rw [hs]
  exact hb.bind (does_bwrite _ _ _ d)

/-- The log area has the data of the transaction. -/
def Filled (d : Disk) : Prop :=
  ∀ i < t.block.length, d (sb.logstart + i + 1) = t.data (t.block.getD i 0)

lemma installTail_does (hi : i < t.block.length) (h : Logging t m d ∧ Filled t d) :
    ∃ m', Does (installTail i) m d [(t.block.getD i 0, t.data (t.block.getD i 0))] () m' ∧
      Logging t m' (applyWrites d [(t.block.getD i 0, t.data (t.block.getD i 0))]) ∧
      Filled t (applyWrites d [(t.block.getD i 0, t.data (t.block.getD i 0))]) := by
  obtain ⟨hl, hf⟩ := h
  have hlbuf : (m.cache (sb.logstart + i + 1)).getD (d (sb.logstart + i + 1)) =
      t.data (t.block.getD i 0) := by
    rw [hl.cache.getD (t.slot_inLog hi), hf i hi]
  refine ⟨((m.load (sb.logstart + i + 1) d).load (t.block.getD i 0) d).setCache (t.block.getD i 0)
    (t.data (t.block.getD i 0)), ?_, ⟨by simpa using hl.start, by simpa using hl.lh, ?_⟩, ?_⟩
  · refine (does_getMem m d).bind ?_
    rw [hl.start, hl.lh]
    have hb := does_bread (sb.logstart + i + 1) m d
    rw [hlbuf] at hb
    exact hb.bind ((does_bread _ _ d).bind (does_bwrite _ _ _ d))
  · exact ((hl.cache.load _).load _).write _ _
  · intro j hj
    simp only [applyWrites]
    rw [update_of_ne (t.slot_ne hj (t.getD_mem hi)).symm]
    exact hf j hj

/-- The home writes of the blocks in the header. -/
lemma installTrans_does (h : Logging t m d) (hf : Filled t d) :
    ∃ m', Does installTrans m d t.homeWrites () m' ∧ Logging t m' (applyWrites d t.homeWrites) := by
  have hbound : ∀ (m : LogMem) (d : Disk), Logging t m d ∧ Filled t d →
      m.log.lh.length = t.block.length := fun m d hi => by rw [hi.1.lh]
  obtain ⟨m', hdo, hinv⟩ := forBelow_does hbound (fun i m d hi hh => installTail_does t hi hh) logSize 0
    (Nat.zero_le _) (by simpa using t.room) m d ⟨h, hf⟩
  rw [Nat.sub_zero, ← range_eq_range'] at hdo hinv
  exact ⟨m', hdo, hinv.1⟩

lemma Txn.logWrites_addr (h : w ∈ t.logWrites) :
    ∃ i < t.block.length, w = (sb.logstart + i + 1, t.data (t.block.getD i 0)) := by
  obtain ⟨i, hi, rfl⟩ := mem_map.mp h
  exact ⟨i, mem_range.mp hi, rfl⟩

lemma Txn.homeWrites_addr (h : w ∈ t.homeWrites) : w.1 ∈ t.block ∧ w.2 = t.data w.1 := by
  rw [Txn.homeWrites_eq] at h
  obtain ⟨b, hb, rfl⟩ := mem_map.mp h
  exact ⟨hb, rfl⟩

lemma filled_of_logWrites (d : Disk) : Filled t (applyWrites d t.logWrites) := by
  intro i hi
  apply applyWrites_of_mem
  · exact ⟨(sb.logstart + i + 1, _), mem_map.mpr ⟨i, mem_range.mpr hi, rfl⟩, rfl⟩
  · intro w hw he
    obtain ⟨j, _, rfl⟩ := t.logWrites_addr hw
    have hij : j = i := by simpa using he
    rw [hij]

def Txn.headWrite (d : Disk) : Nat × Block := (sb.logstart, putHead (d sb.logstart) t.block)

def Txn.eraseWrite (d : Disk) : Nat × Block :=
  (sb.logstart, putHead (putHead (d sb.logstart) t.block) [])

lemma Txn.nlog_pos (h : 0 < t.block.length) : 0 < sb.nlog := by
  have hf := t.fits
  omega

lemma applyWrites_logWrites (d : Disk) (hws : ∀ w ∈ ws, w ∈ t.logWrites)
    (hb : ∀ i < t.block.length, b ≠ sb.logstart + i + 1) : applyWrites d ws b = d b := by
  apply applyWrites_of_not_mem
  intro w hw he
  obtain ⟨i, hi, rfl⟩ := t.logWrites_addr (hws w hw)
  exact hb i hi he.symm

lemma applyWrites_homeWrites_inLog (d : Disk)
    (hws : ∀ w ∈ ws, w ∈ t.homeWrites) (hb : InLog sb b) : applyWrites d ws b = d b := by
  apply applyWrites_of_not_mem
  intro w hw he
  have hh := t.outside _ (t.homeWrites_addr (hws w hw)).1
  rw [he] at hh
  obtain ⟨h1, h2⟩ := hb
  omega

/-- The writes of `commit`, in order. -/
lemma commit_does (hpos : 0 < t.block.length) (h : Logging t m d) (hc : Cached t m) :
    ∃ m', Does commit m d (t.logWrites ++ t.headWrite d :: (t.homeWrites ++ [t.eraseWrite d]))
    () m' ∧ (m'.log.start = sb.logstart ∧ m'.log.lh = []) ∧
      CacheOk sb m'
      (applyWrites d (t.logWrites ++ t.headWrite d :: (t.homeWrites ++ [t.eraseWrite d]))) := by
  have hn := t.nlog_pos hpos
  have hin : InLog sb sb.logstart := ⟨Nat.le_refl _, by omega⟩
  obtain ⟨m1, hdo1, hl1⟩ := writeLog_does t h hc
  -- the header is not among the log blocks, so `write_head` reads the old one
  have hs1 : applyWrites d t.logWrites sb.logstart = d sb.logstart :=
    applyWrites_logWrites t d (fun _ hw => hw) fun i _ => by omega
  obtain ⟨m2, hdo2, hm2, hc2⟩ := writeHead_does hn hl1.start hl1.cache
  rw [hl1.lh, hs1] at hdo2 hc2
  have hl2 : Logging t m2 (applyWrites (applyWrites d t.logWrites) [t.headWrite d]) :=
    ⟨by rw [hm2]; exact hl1.start, by rw [hm2]; exact hl1.lh, hc2⟩
  have hf2 : Filled t (applyWrites (applyWrites d t.logWrites) [t.headWrite d]) := by
    intro i hi
    have hne : sb.logstart + i + 1 ≠ sb.logstart := by omega
    simp only [applyWrites, Txn.headWrite]
    rw [update_of_ne hne]
    exact filled_of_logWrites t d i hi
  obtain ⟨m3, hdo3, hl3⟩ := installTrans_does t hl2 hf2
  obtain ⟨m4, hdo4, hm4, hc4⟩ := writeHead_does hn (show (m3.setLh []).log.start = _ from hl3.start)
    (hl3.cache.setLh [])
  have hs4 : applyWrites (applyWrites (applyWrites d t.logWrites) [t.headWrite d]) t.homeWrites
      sb.logstart = putHead (d sb.logstart) t.block := by
    rw [applyWrites_homeWrites_inLog t _ (fun _ hw => hw) hin]
    simp [applyWrites, Txn.headWrite]
  rw [hs4, LogMem.setLh_lh] at hdo4 hc4
  refine ⟨m4, ?_, ⟨by rw [hm4]; exact hl3.start, by rw [hm4]; rfl⟩, ?_⟩
  · refine (does_getMem m d).bind ?_
    rw [if_pos (by rw [h.lh]; exact hpos)]
    exact hdo1.bind (hdo2.bind (hdo3.bind ((does_modifyMem _ m3 _).bind hdo4)))
  · rw [applyWrites_append, ← singleton_append, applyWrites_append, applyWrites_append]
    exact hc4

lemma commit_does_nil (hnil : m.log.lh = []) : Does commit m d [] () m := by
  refine (does_getMem m d).bind ?_
  rw [if_neg (by simp [hnil])]
  exact does_pure () m _

/-- The writes of a recovery. -/
lemma initlog_does (hn : 0 < sb.nlog) (hh : getHead (d sb.logstart) = t.block) (hf : Filled t d) :
    ∃ m', Does (initlog sb) LogMem.zero d
        (t.homeWrites ++ [(sb.logstart, putHead (d sb.logstart) [])]) () m' ∧
      (m'.log.start = sb.logstart ∧ m'.log.lh = []) ∧
      CacheOk sb m' (applyWrites d (t.homeWrites ++ [(sb.logstart, putHead (d sb.logstart) [])])) := by
  have hin : InLog sb sb.logstart := ⟨Nat.le_refl _, by omega⟩
  let m0 : LogMem := { LogMem.zero with
    log := { LogMem.zero.log with start := sb.logstart, size := sb.nlog } }
  have hc0 : CacheOk sb m0 d := by
    intro b v _ hv
    cases hv
  let m1 := (m0.load sb.logstart d).setLh t.block
  have hdo1 : Does readHead m0 d [] () m1 := by
    refine (does_getMem m0 d).bind ?_
    have hb := does_bread sb.logstart m0 d
    rw [hc0.getD hin] at hb
    have hm := does_modifyMem (A := Nat) (V := Block)
      (fun m : LogMem => m.setLh (getHead (d sb.logstart))) (m0.load sb.logstart d) d
    rw [hh] at hm
    exact hb.bind (by rw [hh]; exact hm)
  have hl1 : Logging t m1 d := ⟨by simp [m1, m0], rfl, hc0.load _⟩
  obtain ⟨m2, hdo2, hl2⟩ := installTrans_does t hl1 hf
  obtain ⟨m3, hdo3, hm3, hc3⟩ := writeHead_does hn (show (m2.setLh []).log.start = _ from hl2.start)
    (hl2.cache.setLh [])
  have hs : applyWrites d t.homeWrites sb.logstart = d sb.logstart :=
    applyWrites_homeWrites_inLog t d (fun _ hw => hw) hin
  rw [hs, LogMem.setLh_lh] at hdo3 hc3
  refine ⟨m3, ?_, ⟨by rw [hm3]; exact hl2.start, by rw [hm3]; rfl⟩, ?_⟩
  · exact (does_modifyMem _ LogMem.zero d).bind
      (hdo1.bind (hdo2.bind ((does_modifyMem _ m2 _).bind hdo3)))
  · rw [applyWrites_append]
    exact hc3

def Clean (sb : Superblock) (base d : Disk) : Prop :=
  headN (d sb.logstart) = 0 ∧ ∀ b, ¬ InLog sb b → d b = base b

/-- The header of the log names the blocks of `t`, whose data is in the log; some of them may be
installed already. -/
structure Pending (base d : Disk) : Prop where
  head : getHead (d sb.logstart) = t.block
  filled : Filled t d
  home : ∀ b, ¬ InLog sb b → d b = base b ∨ (b ∈ t.block ∧ d b = t.data b)

def Txn.empty (sb : Superblock) : Txn sb where
  block := []
  data := fun _ => Bytes.fill _ 0
  nodup := nodup_nil
  outside := by simp
  small := by simp
  fits := by simp
  room := by simp

lemma applyWrites_header_of_ne (d : Disk) (v : Block) (hb : b ≠ sb.logstart) :
    applyWrites d [(sb.logstart, v)] b = d b := by
  simp only [applyWrites]
  rw [update_of_ne hb]

lemma clean_erase (hn : 0 < sb.nlog) (hb : Block) (h : ∀ b, ¬ InLog sb b → d b = base b) :
    Clean sb base (applyWrites d [(sb.logstart, putHead hb [])]) := by
  constructor
  · simp only [applyWrites, update_self]
    exact headN_putHead hb (by simp)
  · intro b hb
    rw [applyWrites_header_of_ne d _ (fun he => hb ⟨by omega, by omega⟩)]
    exact h b hb

lemma Pending.install (h : Pending t base d) (n : Nat) (hn : 0 < sb.nlog) :
    Pending t base (applyWrites d (t.homeWrites.take n)) := by
  have hsub : ∀ w ∈ t.homeWrites.take n, w ∈ t.homeWrites := fun w hw => mem_of_mem_take hw
  have hkeep : ∀ b, InLog sb b → applyWrites d (t.homeWrites.take n) b = d b :=
    fun b hb => applyWrites_homeWrites_inLog t d hsub hb
  refine ⟨?_, ?_, ?_⟩
  · rw [hkeep _ ⟨Nat.le_refl _, by omega⟩]
    exact h.head
  · intro i hi
    rw [hkeep _ (t.slot_inLog hi)]
    exact h.filled i hi
  · intro b hb
    by_cases hw : ∃ w ∈ t.homeWrites.take n, w.1 = b
    · obtain ⟨w, hw, rfl⟩ := hw
      refine Or.inr ⟨(t.homeWrites_addr (hsub w hw)).1, applyWrites_of_mem ⟨w, hw, rfl⟩ ?_⟩
      intro u hu he
      rw [(t.homeWrites_addr (hsub u hu)).2, he]
    · have hne : ∀ w ∈ t.homeWrites.take n, w.1 ≠ b := fun w hw' he => hw ⟨w, hw', he⟩
      rw [applyWrites_of_not_mem hne]
      exact h.home b hb

lemma Pending.installed (h : Pending t base d) (hb : ¬ InLog sb b) :
    applyWrites d t.homeWrites b = t.apply base b := by
  by_cases hm : b ∈ t.block
  · rw [Txn.apply, if_pos hm]
    apply applyWrites_of_mem
    · rw [Txn.homeWrites_eq]
      exact ⟨(b, t.data b), mem_map.mpr ⟨b, hm, rfl⟩, rfl⟩
    · intro w hw he
      rw [(t.homeWrites_addr hw).2, he]
  · have hne : ∀ w ∈ t.homeWrites, w.1 ≠ b := fun w hw he => hm (he ▸ (t.homeWrites_addr hw).1)
    rw [applyWrites_of_not_mem hne, Txn.apply, if_neg hm]
    rcases h.home b hb with hh | hh
    · exact hh
    · exact absurd hh.1 hm

lemma Clean.cut_initlog (h : Clean sb base d) (hn : 0 < sb.nlog) (n : Nat) :
    Clean sb base (cut n (initlog sb) LogMem.zero d) := by
  obtain ⟨m', hdo, -, -⟩ := initlog_does (Txn.empty sb) hn (getHead_eq_nil h.1)
    (fun i hi => absurd hi (Nat.not_lt_zero i))
  rw [cut_eq, hdo.trace]
  cases n with
  | zero => exact h
  | succ n => simpa [Txn.homeWrites, Txn.empty] using clean_erase hn _ h.2

lemma Pending.cut_initlog (h : Pending t base d) (hn : 0 < sb.nlog) (n : Nat) :
    Pending t base (cut n (initlog sb) LogMem.zero d) ∨
      Clean sb (t.apply base) (cut n (initlog sb) LogMem.zero d) := by
  obtain ⟨m', hdo, -, -⟩ := initlog_does t hn h.head h.filled
  rw [cut_eq, hdo.trace]
  by_cases hle : n ≤ t.homeWrites.length
  · rw [take_append_of_le_length hle]
    exact .inl (h.install t n hn)
  · rw [take_of_length_le (by simp; omega), applyWrites_append]
    exact .inr (clean_erase hn _ fun b hb => h.installed t hb)

def reboots (sb : Superblock) : List Nat → Disk → Disk
  | [], d => d
  | n :: ns, d => reboots sb ns (cut n (initlog sb) LogMem.zero d)

/-- A recovery that is not interrupted. -/
def boot (sb : Superblock) (d : Disk) : LogMem × Disk := (run (initlog sb) LogMem.zero d).2

lemma Clean.reboots (h : Clean sb base d) (hn : 0 < sb.nlog) (ns : List Nat) :
    Clean sb base (reboots sb ns d) := by
  induction ns generalizing d with
  | nil => exact h
  | cons n ns ih => exact ih (h.cut_initlog hn n)

lemma Pending.reboots (h : Pending t base d) (hn : 0 < sb.nlog) (ns : List Nat) :
    Pending t base (reboots sb ns d) ∨ Clean sb (t.apply base) (reboots sb ns d) := by
  induction ns generalizing d with
  | nil => exact .inl h
  | cons n ns ih =>
    rcases h.cut_initlog t hn n with hp | hc
    · exact ih hp
    · exact .inr (hc.reboots hn ns)

structure Idle (sb : Superblock) (s : LogMem × Disk) : Prop where
  start : s.1.log.start = sb.logstart
  lh : s.1.log.lh = []
  cache : CacheOk sb s.1 s.2
  head : headN (s.2 sb.logstart) = 0

lemma Clean.recovered (h : Clean sb base d) (hn : 0 < sb.nlog) :
    Idle sb (boot sb d) ∧ Clean sb base (boot sb d).2 := by
  obtain ⟨m', hdo, hlog, hc⟩ := initlog_does (Txn.empty sb) hn (getHead_eq_nil h.1)
    (fun i hi => absurd hi (Nat.not_lt_zero i))
  have hclean : Clean sb base (boot sb d).2 := by
    rw [boot, hdo.disk]
    simpa [Txn.homeWrites, Txn.empty] using clean_erase hn _ h.2
  refine ⟨⟨?_, ?_, ?_, hclean.1⟩, hclean⟩
  · rw [boot, hdo.mem]
    exact hlog.1
  · rw [boot, hdo.mem]
    exact hlog.2
  · rw [boot, hdo.mem, hdo.disk]
    exact hc

lemma Pending.recovered (h : Pending t base d) (hn : 0 < sb.nlog) :
    Idle sb (boot sb d) ∧ Clean sb (t.apply base) (boot sb d).2 := by
  obtain ⟨m', hdo, hlog, hc⟩ := initlog_does t hn h.head h.filled
  have hclean : Clean sb (t.apply base) (boot sb d).2 := by
    rw [boot, hdo.disk, applyWrites_append]
    exact clean_erase hn _ fun b hb => h.installed t hb
  refine ⟨⟨?_, ?_, ?_, hclean.1⟩, hclean⟩
  · rw [boot, hdo.mem]
    exact hlog.1
  · rw [boot, hdo.mem]
    exact hlog.2
  · rw [boot, hdo.mem, hdo.disk]
    exact hc

def Txn.fill (m : LogMem) : LogMem :=
  { m.setLh t.block with cache := fun b => if b ∈ t.block then some (t.data b) else m.cache b }

lemma Idle.logging (h : Idle sb (m, d)) : Logging t (t.fill m) d ∧ Cached t (t.fill m) := by
  refine ⟨⟨h.start, rfl, ?_⟩, ?_⟩
  · intro b v hb hv
    have hm : b ∉ t.block := by
      intro hm
      have ho := t.outside b hm
      obtain ⟨h1, h2⟩ := hb
      omega
    simp only [Txn.fill, if_neg hm] at hv
    exact h.cache b v hb hv
  · intro b hb
    simp [Txn.fill, hb]

/-- A header write with a positive count is among the first `n` writes of the commit. -/
def HeadReached (sb : Superblock) (m : LogMem) (d : Disk) (n : Nat) : Prop :=
  ∃ w ∈ (trace commit m d).take n, w.1 = sb.logstart ∧ 0 < headN w.2

lemma Idle.clean (h : Idle sb (m, d)) : Clean sb d d :=
  ⟨h.head, fun _ _ => rfl⟩

lemma Txn.length_logWrites : t.logWrites.length = t.block.length := by
  simp [Txn.logWrites]

lemma cut_before_head (h : Idle sb (m, d)) (hpos : 0 < t.block.length)
    (hle : n ≤ t.block.length) :
    ¬ HeadReached sb (t.fill m) d n ∧ Clean sb d (cut n commit (t.fill m) d) := by
  obtain ⟨m', hdo, -, -⟩ := commit_does t hpos (h.logging t).1 (h.logging t).2
  have htake : (trace commit (t.fill m) d).take n = t.logWrites.take n := by
    rw [hdo.trace, take_append_of_le_length (by rw [t.length_logWrites]; exact hle)]
  constructor
  · rintro ⟨w, hw, hs, -⟩
    rw [htake] at hw
    obtain ⟨i, _, rfl⟩ := t.logWrites_addr (mem_of_mem_take hw)
    simp only at hs
    omega
  · rw [cut_eq, htake]
    have hsub : ∀ w ∈ t.logWrites.take n, w ∈ t.logWrites := fun w hw => mem_of_mem_take hw
    constructor
    · rw [applyWrites_logWrites t d hsub fun i _ => by omega]
      exact h.head
    · intro b hb
      apply applyWrites_logWrites t d hsub
      intro i hi he
      exact hb (he ▸ t.slot_inLog hi)

lemma pending_of_headWrite (d : Disk) (hpos : 0 < t.block.length) :
    Pending t d (applyWrites (applyWrites d t.logWrites) [t.headWrite d]) := by
  have hn := t.nlog_pos hpos
  refine ⟨?_, ?_, ?_⟩
  · simp only [applyWrites, Txn.headWrite, update_self]
    exact getHead_putHead _ t.small t.room
  · intro i hi
    rw [Txn.headWrite, applyWrites_header_of_ne _ _ (by omega)]
    exact filled_of_logWrites t d i hi
  · intro b hb
    left
    rw [Txn.headWrite, applyWrites_header_of_ne _ _ (fun he => hb ⟨by omega, by omega⟩)]
    apply applyWrites_logWrites t d (fun _ hw => hw)
    intro i hi he
    exact hb (he ▸ t.slot_inLog hi)

lemma commit_clean (d : Disk) (hpos : 0 < t.block.length) : Clean sb (t.apply d)
      (applyWrites d (t.logWrites ++ t.headWrite d :: (t.homeWrites ++ [t.eraseWrite d]))) := by
  rw [applyWrites_append, ← singleton_append, applyWrites_append, applyWrites_append]
  exact clean_erase (t.nlog_pos hpos) _ fun b hb => (pending_of_headWrite t d hpos).installed t hb

lemma cut_after_head (h : Idle sb (m, d)) (hpos : 0 < t.block.length)
    (hlt : t.block.length < n) : HeadReached sb (t.fill m) d n ∧
      (Pending t d (cut n commit (t.fill m) d) ∨ Clean sb (t.apply d) (cut n commit (t.fill m) d)) := by
  have hn := t.nlog_pos hpos
  obtain ⟨m', hdo, -, -⟩ := commit_does t hpos (h.logging t).1 (h.logging t).2
  obtain ⟨k, rfl⟩ : ∃ k, n = t.logWrites.length + (k + 1) :=
    ⟨n - t.block.length - 1, by rw [t.length_logWrites]; omega⟩
  have htake : (trace commit (t.fill m) d).take (t.logWrites.length + (k + 1)) =
      t.logWrites ++ t.headWrite d :: (t.homeWrites ++ [t.eraseWrite d]).take k := by
    rw [hdo.trace, take_length_add_append, take_succ_cons]
  constructor
  · refine ⟨t.headWrite d, by rw [htake]; simp, rfl, ?_⟩
    have hh : headN (t.headWrite d).2 = t.block.length := headN_putHead _ t.room
    omega
  · have hp := pending_of_headWrite t d hpos
    rw [cut_eq, htake, applyWrites_append, ← singleton_append, applyWrites_append]
    by_cases hk : k ≤ t.homeWrites.length
    · rw [take_append_of_le_length hk]
      exact .inl (hp.install t k hn)
    · rw [take_of_length_le (by simp; omega), applyWrites_append]
      exact .inr (clean_erase hn _ fun b hb => hp.installed t hb)

lemma Idle.cut_commit (h : Idle sb (m, d)) (n : Nat) :
    (¬ HeadReached sb (t.fill m) d n ∧ Clean sb d (cut n commit (t.fill m) d)) ∨
      HeadReached sb (t.fill m) d n ∧
      (Pending t d (cut n commit (t.fill m) d) ∨ Clean sb (t.apply d) (cut n commit (t.fill m) d)) := by
  by_cases hpos : 0 < t.block.length
  · by_cases hle : n ≤ t.block.length
    · exact .inl (cut_before_head t h hpos hle)
    · exact .inr (cut_after_head t h hpos (by omega))
  · have hnil : t.block = [] := length_eq_zero_iff.mp (by omega)
    have htr := (commit_does_nil (m := t.fill m) (d := d) hnil).trace
    left
    constructor
    · rintro ⟨w, hw, -⟩
      simp [htr] at hw
    · rw [cut_eq, htr, take_nil]
      exact h.clean

lemma idle_commit (h : Idle sb (m, d)) : Idle sb (run commit (t.fill m) d).2 := by
  by_cases hpos : 0 < t.block.length
  · obtain ⟨m', hdo, hlog, hc⟩ := commit_does t hpos (h.logging t).1 (h.logging t).2
    refine ⟨?_, ?_, ?_, ?_⟩
    · rw [hdo.mem]
      exact hlog.1
    · rw [hdo.mem]
      exact hlog.2
    · rw [hdo.mem, hdo.disk]
      exact hc
    · rw [hdo.disk]
      exact (commit_clean t d hpos).1
  · have hnil : t.block = [] := length_eq_zero_iff.mp (by omega)
    have hdo := commit_does_nil (m := t.fill m) (d := d) hnil
    refine ⟨?_, ?_, ?_, ?_⟩
    · rw [hdo.mem]
      exact h.start
    · rw [hdo.mem]
      exact hnil
    · rw [hdo.mem, hdo.disk]
      exact (h.logging t).1.cache
    · rw [hdo.disk]
      exact h.head

end

/-- A history of the log: commits that complete, and commits that lose power
after `n` writes and are recovered, after recoveries cut off after `ns` writes. -/
inductive LogEvent (sb : Superblock) where
  | commit (t : Txn sb)
  | crash (t : Txn sb) (n : Nat) (ns : List Nat)

def LogEvent.exec {sb : Superblock} (s : LogMem × Disk) : LogEvent sb → LogMem × Disk
  | commit t => (run Xv6.commit (t.fill s.1) s.2).2
  | crash t n ns => boot sb (reboots sb ns (cut n Xv6.commit (t.fill s.1) s.2))

lemma idle_crash (t : Txn sb) (h : Idle sb (m, d))
    (hn : 0 < sb.nlog) (n : Nat) (ns : List Nat) :
    Idle sb (boot sb (reboots sb ns (cut n commit (t.fill m) d))) ∧
    (HeadReached sb (t.fill m) d n →
      Clean sb (t.apply d) (boot sb (reboots sb ns (cut n commit (t.fill m) d))).2) ∧
      (¬ HeadReached sb (t.fill m) d n →
      Clean sb d (boot sb (reboots sb ns (cut n commit (t.fill m) d))).2) := by
  rcases h.cut_commit t n with ⟨hr, hc⟩ | ⟨hr, hp | hc⟩
  · obtain ⟨hi, hcl⟩ := (hc.reboots hn ns).recovered hn
    exact ⟨hi, fun hh => absurd hh hr, fun _ => hcl⟩
  · rcases hp.reboots t hn ns with hp' | hc'
    · obtain ⟨hi, hcl⟩ := hp'.recovered t hn
      exact ⟨hi, fun _ => hcl, fun hh => absurd hr hh⟩
    · obtain ⟨hi, hcl⟩ := hc'.recovered hn
      exact ⟨hi, fun _ => hcl, fun hh => absurd hr hh⟩
  · obtain ⟨hi, hcl⟩ := (hc.reboots hn ns).recovered hn
    exact ⟨hi, fun _ => hcl, fun hh => absurd hr hh⟩

lemma Idle.history {s : LogMem × Disk} (h : Idle sb s) (hn : 0 < sb.nlog)
    (es : List (LogEvent sb)) : Idle sb (es.foldl LogEvent.exec s) := by
  induction es generalizing s with
  | nil => exact h
  | cons e es ih =>
    apply ih
    cases e with
    | commit t => exact idle_commit t h
    | crash t n ns => exact (idle_crash t h hn n ns).1

/-- After any history, a commit that loses power after `n` writes is recovered, through
any number of interrupted recoveries, to all of the transaction or to none of it. -/
theorem log_crash_atomic {sb : Superblock} (hn : 0 < sb.nlog) {d₀ : Disk}
    (h₀ : headN (d₀ sb.logstart) = 0) (es : List (LogEvent sb)) (t : Txn sb) (n : Nat) (ns : List Nat) :
    let s := es.foldl LogEvent.exec (boot sb d₀)
    let d := (boot sb (reboots sb ns (cut n commit (t.fill s.1) s.2))).2
    (HeadReached sb (t.fill s.1) s.2 n → ∀ b, ¬ InLog sb b → d b = t.apply s.2 b) ∧
      (¬ HeadReached sb (t.fill s.1) s.2 n → ∀ b, ¬ InLog sb b → d b = s.2 b) ∧
      headN (d sb.logstart) = 0 := by
  have h0 : Clean sb d₀ d₀ := ⟨h₀, fun _ _ => rfl⟩
  have hs := ((h0.recovered hn).1).history hn es
  obtain ⟨hi, hnew, hold⟩ := idle_crash t hs hn n ns
  exact ⟨fun hr => (hnew hr).2, fun hr => (hold hr).2, hi.head⟩

def blankDisk : Disk := fun _ => Bytes.fill bsize 0

lemma headN_blankDisk (b : Nat) : headN (blankDisk b) = 0 := Bytes.field_fill_zero (by decide)

def oneBlockTxn : Txn mkfsSb where
  block := [100]
  data := fun _ => Bytes.fill bsize 7
  nodup := by simp
  outside := by decide
  small := by decide
  fits := by decide
  room := by decide

def oneBlockCut (n : Nat) : Disk :=
  let s := boot mkfsSb blankDisk
  (boot mkfsSb (reboots mkfsSb [0] (cut n commit (oneBlockTxn.fill s.1) s.2))).2

/-- One write of the commit is lost with the transaction; with two writes the header is on the
disk, and recovery installs block 100. -/
theorem log_crash_atomic_oneBlock : (∀ n, headN (oneBlockCut n mkfsSb.logstart) = 0) ∧
    oneBlockCut 1 100 = Bytes.fill bsize 0 ∧ oneBlockCut 2 100 = Bytes.fill bsize 7 := by
  have hn : 0 < mkfsSb.nlog := by decide
  have hout : ¬ InLog mkfsSb 100 := fun h => absurd h.2 (by decide)
  have h0 : Clean mkfsSb blankDisk blankDisk := ⟨headN_blankDisk _, fun _ _ => rfl⟩
  obtain ⟨hidle, hclean⟩ := h0.recovered hn
  have hcrash := fun n => log_crash_atomic hn (headN_blankDisk _) [] oneBlockTxn n [0]
  simp only [foldl_nil] at hcrash
  unfold oneBlockCut
  generalize boot mkfsSb blankDisk = s at *
  refine ⟨fun n => (hcrash n).2.2, ?_, ?_⟩
  · have hlost := (cut_before_head oneBlockTxn (n := 1) hidle (by decide) (by decide)).1
    rw [(hcrash 1).2.1 hlost 100 hout, hclean.2 100 hout]
    rfl
  · have hreached := (cut_after_head oneBlockTxn (n := 2) hidle (by decide) (by decide)).1
    rw [(hcrash 2).1 hreached 100 hout]
    exact if_pos (mem_singleton_self _)

end Xv6
