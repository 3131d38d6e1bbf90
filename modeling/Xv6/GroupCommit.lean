import Xv6.LogProto

/-! Group-commit isolation. While no commit runs, `log.lh` lists exactly the blocks
logged since the last one and the cache holds their latest contents; a commit
starts only when no system call is active, and nothing but the commit itself
can then change the log, the logged buffers or the disk. -/

namespace Xv6

open List
open Function (update update_of_ne update_self)

open DiskProg

variable {l : List Logged} {b : Nat}

def blocksOf (l : List Logged) : List Nat := (l.map Logged.block).foldl logAbsorb []

lemma blocksOf_append (l : List Logged) (w : Logged) :
    blocksOf (l ++ [w]) = logAbsorb (blocksOf l) w.block := by
  simp [blocksOf]

lemma nodup_blocksOf (l : List Logged) : (blocksOf l).Nodup := by
  induction l using List.reverseRecOn with
  | nil => simp [blocksOf]
  | append_singleton l w ih =>
    rw [blocksOf_append]
    exact nodup_logAbsorb ih w.block

lemma mem_blocksOf : b ∈ blocksOf l ↔ ∃ w ∈ l, w.block = b := by
  induction l using List.reverseRecOn with
  | nil => simp [blocksOf]
  | append_singleton l w ih =>
    rw [blocksOf_append, mem_logAbsorb, ih]
    constructor
    · rintro (⟨u, hu, hb⟩ | hb)
      · exact ⟨u, mem_append_left _ hu, hb⟩
      · exact ⟨w, by simp, hb.symm⟩
    · rintro ⟨u, hu, hb⟩
      rcases mem_append.mp hu with hu | hu
      · exact .inl ⟨u, hu, hb⟩
      · rw [mem_singleton] at hu
        subst hu
        exact .inr hb.symm

lemma latest_append (l : List Logged) (w : Logged) (b : Nat) :
    latest (l ++ [w]) b = if w.block = b then some w.data else latest l b := by
  simp [latest]

lemma latest_of_not_mem (h : b ∉ blocksOf l) : latest l b = none := by
  induction l using List.reverseRecOn with
  | nil => rfl
  | append_singleton l w ih =>
    rw [blocksOf_append, mem_logAbsorb, not_or] at h
    rw [latest_append, if_neg (fun he => h.2 he.symm)]
    exact ih h.1

lemma latest_of_mem (h : b ∈ blocksOf l) : ∃ v, latest l b = some v := by
  induction l using List.reverseRecOn with
  | nil => simp [blocksOf] at h
  | append_singleton l w ih =>
    rw [latest_append]
    by_cases hw : w.block = b
    · exact ⟨w.data, if_pos hw⟩
    · rw [blocksOf_append, mem_logAbsorb] at h
      rw [if_neg hw]
      exact ih (h.resolve_right fun he => hw he.symm)

/-- Log, cache and disk agree with what the observer saw; `m.log.lh` is the pending
transaction and the home locations are the committed ones applied to `d₀`. -/
structure Snap (sb : Superblock) (d₀ : Disk) (m : LogMem) (d : Disk) (o : LogTrace) : Prop where
  start : m.log.start = sb.logstart
  size : m.log.size = sb.nlog
  lh : m.log.lh = blocksOf o.pending
  fits : m.log.lh.length ≤ sb.nlog - 1
  room : m.log.lh.length ≤ logSize
  homes : ∀ w ∈ o.pending, ¬ InLog sb w.block ∧ w.block < 2 ^ 32
  cached : ∀ b ∈ m.log.lh, m.cache b = latest o.pending b
  cache : CacheOk sb m d
  head : headN (d sb.logstart) = 0
  home : ∀ b, ¬ InLog sb b → d b = o.committed.foldl applyLogged d₀ b

section

variable {sb : Superblock} {d₀ : Disk} {m : LogMem} {d : Disk} {o : LogTrace}

lemma Snap.block_home (h : Snap sb d₀ m d o) {b : Nat} (hb : b ∈ blocksOf o.pending) :
    ¬ InLog sb b ∧ b < 2 ^ 32 := by
  obtain ⟨w, hw, rfl⟩ := mem_blocksOf.mp hb
  exact h.homes w hw

def Snap.txn (h : Snap sb d₀ m d o) : Txn sb where
  block := blocksOf o.pending
  data := fun b => (latest o.pending b).getD (d b)
  nodup := nodup_blocksOf _
  outside := fun b hb => by
    have hh := (h.block_home hb).1
    rw [InLog] at hh
    omega
  small := fun b hb => (h.block_home hb).2
  fits := by rw [← h.lh]; exact h.fits
  room := by rw [← h.lh]; exact h.room

lemma Snap.logging (h : Snap sb d₀ m d o) : Logging h.txn m d ∧ Cached h.txn m := by
  refine ⟨⟨h.start, h.lh, h.cache⟩, ?_⟩
  intro b hb
  obtain ⟨v, hv⟩ := latest_of_mem hb
  rw [h.cached b (by rw [h.lh]; exact hb)]
  simp [Snap.txn, hv]

lemma Snap.txn_apply (h : Snap sb d₀ m d o) (b : Nat) :
    h.txn.apply d b = applyLogged d o.pending b := by
  by_cases hb : b ∈ blocksOf o.pending
  · simp [Txn.apply, Snap.txn, hb, applyLogged]
  · simp [Txn.apply, Snap.txn, hb, applyLogged, latest_of_not_mem hb]

/-- What `commit()` writes to the home locations: every logged block once, with its
latest contents. -/
lemma Snap.commit_trace (h : Snap sb d₀ m d o) : (trace commit m d).filter (fun w => ¬ InLog sb w.1) =
      (blocksOf o.pending).map fun b => (b, (latest o.pending b).getD (d b)) := by
  by_cases hpos : 0 < (blocksOf o.pending).length
  · obtain ⟨m', hdo, -, -⟩ := commit_does h.txn hpos h.logging.1 h.logging.2
    have hn := h.txn.nlog_pos hpos
    have hin : ¬ decide (¬ InLog sb sb.logstart) = true := by
      have hh : InLog sb sb.logstart := ⟨Nat.le_refl _, by omega⟩
      simpa using hh
    have hlog : h.txn.logWrites.filter (fun w => ¬ InLog sb w.1) = [] := by
      apply filter_eq_nil_iff.mpr
      intro w hw
      obtain ⟨i, hi, rfl⟩ := h.txn.logWrites_addr hw
      simpa using h.txn.slot_inLog hi
    have hhome : h.txn.homeWrites.filter (fun w => ¬ InLog sb w.1) = h.txn.homeWrites := by
      apply filter_eq_self.mpr
      intro w hw
      simpa using (h.block_home (h.txn.homeWrites_addr hw).1).1
    have hhead : [h.txn.headWrite d].filter (fun w => ¬ InLog sb w.1) = [] :=
      filter_cons_of_neg hin
    have herase : [h.txn.eraseWrite d].filter (fun w => ¬ InLog sb w.1) = [] :=
      filter_cons_of_neg hin
    rw [hdo.trace, filter_append, hlog, ← singleton_append, filter_append, hhead,
      filter_append, hhome, herase]
    simp [Txn.homeWrites_eq, Snap.txn]
  · have hnil : blocksOf o.pending = [] := length_eq_zero_iff.mp (by omega)
    rw [(commit_does_nil (h.lh.trans hnil)).trace, hnil]
    rfl

def logFlags (m : LogMem) : Nat × Nat × Int × Bool :=
  (m.log.start, m.log.size, m.log.outstanding, m.log.committing)

lemma keeps_bread (b : Nat) : Keeps logFlags (bread b) := by
  refine keeps_getMem.bind fun m => ?_
  cases m.cache b with
  | some v => trivial
  | none => exact fun v => ⟨fun _ => rfl, fun _ => trivial⟩

lemma keeps_bwrite (b : Nat) (v : Block) : Keeps logFlags (bwrite b v) := by
  have hm : Keeps logFlags (modifyMem fun m => m.setCache b v : LogProg Unit) :=
    keeps_modifyMem fun _ => rfl
  exact hm.bind fun _ => True.intro

lemma keeps_writeHead : Keeps logFlags writeHead :=
  keeps_getMem.bind fun _ => (keeps_bread _).bind fun _ => keeps_bwrite _ _

lemma keeps_installTrans : Keeps logFlags installTrans := by
  refine Keeps.forBelow _ (fun i => ?_) _ _
  exact keeps_getMem.bind fun _ =>
    (keeps_bread _).bind fun _ => (keeps_bread _).bind fun _ => keeps_bwrite _ _

lemma keeps_writeLog : Keeps logFlags writeLog := by
  refine Keeps.forBelow _ (fun i => ?_) _ _
  exact keeps_getMem.bind fun _ =>
    (keeps_bread _).bind fun _ => (keeps_bread _).bind fun _ => keeps_bwrite _ _

lemma keeps_commit : Keeps logFlags commit := by
  refine keeps_getMem.bind fun m => ?_
  by_cases h : 0 < m.log.lh.length
  · have hm : Keeps logFlags (modifyMem fun m => m.setLh [] : LogProg Unit) :=
      keeps_modifyMem fun _ => rfl
    rw [if_pos h]
    exact keeps_writeLog.bind fun _ => keeps_writeHead.bind fun _ => keeps_installTrans.bind fun _ =>
      hm.bind fun _ => keeps_writeHead
  · rw [if_neg h]
    trivial

lemma Snap.commit (h : Snap sb d₀ m d o) : Snap sb d₀ (run commit m d).2.1 (run commit m d).2.2
      { o with pending := [], committed := o.committed ++ [o.pending] } := by
  have happly : ∀ b, ¬ InLog sb b → applyLogged d o.pending b =
      (o.committed ++ [o.pending]).foldl applyLogged d₀ b := by
    intro b hb
    rw [foldl_append, foldl_cons, foldl_nil, applyLogged, applyLogged, h.home b hb]
  have hflags := keeps_commit.run m d
  have hsize : (run Xv6.commit m d).2.1.log.size = sb.nlog :=
    (congrArg (fun x => x.2.1) hflags).trans h.size
  by_cases hpos : 0 < (blocksOf o.pending).length
  · obtain ⟨m', hdo, ⟨hstart, hlh⟩, hc⟩ := commit_does h.txn hpos h.logging.1 h.logging.2
    have hclean := commit_clean h.txn d hpos
    rw [hdo.mem] at hsize ⊢
    rw [hdo.disk]
    refine ⟨hstart, hsize, hlh, by simp [hlh], by simp [hlh], by simp, by simp [hlh], hc, hclean.1, ?_⟩
    intro b hb
    rw [hclean.2 b hb, h.txn_apply, happly b hb]
  · have hnil : blocksOf o.pending = [] := length_eq_zero_iff.mp (by omega)
    have hdo := commit_does_nil (d := d) (h.lh.trans hnil)
    rw [hdo.mem, hdo.disk]
    have hlh := h.lh.trans hnil
    refine ⟨h.start, h.size, hlh, h.fits, h.room, by simp, by simp [hlh], h.cache, h.head, ?_⟩
    intro b hb
    rw [← happly b hb, applyLogged, latest_of_not_mem (by simp [hnil])]
    rfl

end

lemma wakeup_active (s : LogSys) (p : Nat) : s.wakeup.pc p = .active ↔ s.pc p = .active := by
  cases hp : s.pc p <;> simp [LogSys.wakeup, hp]

lemma wakeup_commit (s : LogSys) (p : Nat) (q : LogProg Unit) : s.wakeup.pc p = .commit q ↔
    s.pc p = .commit q := by
  cases hp : s.pc p <;> simp [LogSys.wakeup, hp]

lemma setPc_self (s : LogSys) (p : Nat) (c : LogPc) : (s.setPc p c).pc p = c := by
  simp [LogSys.setPc]

lemma setPc_of_ne (s : LogSys) {p p' : Nat} (c : LogPc) (h : p' ≠ p) :
    (s.setPc p c).pc p' = s.pc p' := by
  simp [LogSys.setPc, h]

structure Open (sb : Superblock) (d₀ : Disk) (s : LogSys) (o : LogTrace) (act : List Nat) : Prop where
  committing : s.mem.log.committing = false
  none : ∀ p q, s.pc p ≠ .commit q
  snap : Snap sb d₀ s.mem s.disk o
  quiet : act = [] → o.pending = []

structure Closing (sb : Superblock) (d₀ : Disk) (s : LogSys) (o : LogTrace) (p : Nat)
    (q : LogProg Unit) (m : LogMem) (d : Disk) : Prop where
  committing : s.mem.log.committing = true
  pc : s.pc p = .commit q
  only : ∀ p' q', s.pc p' = .commit q' → p' = p
  snap : Snap sb d₀ m d o
  rest : run q s.mem s.disk = run commit m d
  keeps : Keeps logFlags q

structure LogInv (sb : Superblock) (d₀ : Disk) (s : LogSys) (o : LogTrace) (act : List Nat) :
    Prop where
  nodup : act.Nodup
  active : ∀ p, p ∈ act ↔ s.pc p = .active
  outstanding : s.mem.log.outstanding = act.length
  phase : Open sb d₀ s o act ∨ (act = [] ∧ ∃ p q m d, Closing sb d₀ s o p q m d)

section

variable {sb : Superblock} {d₀ : Disk} {s s' : LogSys} {o : LogTrace} {act : List Nat} {p : Nat}

lemma LogInv.move (h : LogInv sb d₀ s o act) {c : LogPc} (hp : s.pc p ≠ .active)
    (hpc : ∀ q, s.pc p ≠ .commit q) (hc : c ≠ .active) (hcc : ∀ q, c ≠ .commit q) :
    LogInv sb d₀ (s.setPc p c) o act := by
  have hact : ∀ x, (s.setPc p c).pc x = .active ↔ s.pc x = .active := by
    intro x
    by_cases hx : x = p
    · subst hx
      rw [setPc_self]
      exact ⟨fun hh => absurd hh hc, fun hh => absurd hh hp⟩
    · rw [setPc_of_ne s c hx]
  have hcom : ∀ x q, (s.setPc p c).pc x = .commit q ↔ s.pc x = .commit q := by
    intro x q
    by_cases hx : x = p
    · subst hx
      rw [setPc_self]
      exact ⟨fun hh => absurd hh (hcc q), fun hh => absurd hh (hpc q)⟩
    · rw [setPc_of_ne s c hx]
  refine ⟨h.nodup, fun x => (h.active x).trans (hact x).symm, h.outstanding, ?_⟩
  rcases h.phase with ho | ⟨ha, p', q, m, d, hc'⟩
  · exact .inl ⟨ho.committing, fun x q hx => ho.none x q ((hcom x q).mp hx), ho.snap, ho.quiet⟩
  · exact .inr ⟨ha, p', q, m, d, hc'.committing, (hcom p' q).mpr hc'.pc,
      fun x q' hx => hc'.only x q' ((hcom x q').mp hx), hc'.snap, hc'.rest, hc'.keeps⟩

lemma LogInv.enter (h : LogInv sb d₀ s o act) (hs : s.step (.enter p : LogAct sb) = some (.ok s')) :
    LogInv sb d₀ s' o act := by
  obtain ⟨hp, rfl⟩ := step_enter hs
  exact h.move (by simp [hp]) (by simp [hp]) (by simp) (by simp)

variable {l l' : Log} {m : LogMem} {d : Disk} {b : HomeBlock sb} {v : Block} {a : LogAct sb}
  {ok : LogTrace → LogAct sb → Prop}

lemma beginOp_some (h : beginOp l = some l') :
    l.committing = false ∧ l' = { l with outstanding := l.outstanding + 1 } ∧
      (l.lh.length : Int) + (l.outstanding + 1) * maxOpBlocks ≤ logSize := by
  unfold beginOp at h
  split at h
  · cases h
  · rename_i hc
    split at h
    · cases h
    · rename_i hn
      exact ⟨by simpa using hc, (Option.some.inj h).symm, by omega⟩

lemma Snap.setLog (h : Snap sb d₀ m d o) (l : Log)
    (hs : l.start = m.log.start) (hz : l.size = m.log.size) (hl : l.lh = m.log.lh) :
    Snap sb d₀ { m with log := l } d o where
  start := hs.trans h.start
  size := hz.trans h.size
  lh := hl.trans h.lh
  fits := by simpa only [hl] using h.fits
  room := by simpa only [hl] using h.room
  homes := h.homes
  cached := by simpa only [hl] using h.cached
  cache := h.cache
  head := h.head
  home := h.home

lemma Snap.calls (h : Snap sb d₀ m d o) (f : Nat → Nat) :
    Snap sb d₀ m d { o with calls := f } :=
  ⟨h.start, h.size, h.lh, h.fits, h.room, h.homes, h.cached, h.cache, h.head, h.home⟩

lemma LogTrace.observe_admit (l : Log) :
    o.observe ((s.setLog l).setPc p .active) (.begin p : LogAct sb) =
    { o with calls := update o.calls p (o.calls p + 1) } := by
  simp [observe, LogSys.setPc]

lemma LogTrace.observe_asleep : o.observe (s.setPc p .asleep) (.begin p : LogAct sb) = o := by
  simp [observe, LogSys.setPc]

lemma LogInv.begin (h : LogInv sb d₀ s o act) (hs : s.step (.begin p : LogAct sb) = some (.ok s')) :
    ∃ act', LogInv sb d₀ s' (o.observe s' (.begin p : LogAct sb)) act' := by
  obtain ⟨hp, ⟨l, hl, rfl⟩ | ⟨-, rfl⟩⟩ := step_begin hs
  · obtain ⟨hc, rfl, -⟩ := beginOp_some hl
    have hna : p ∉ act := by
      rw [h.active, hp]
      simp
    rw [LogTrace.observe_admit]
    rcases h.phase with ho | ⟨_, _, _, _, _, hcl⟩
    · refine ⟨p :: act, nodup_cons.mpr ⟨hna, h.nodup⟩, ?_, ?_, .inl ⟨ho.committing, ?_, ?_, by simp⟩⟩
      · intro x
        by_cases hx : x = p
        · subst hx
          simp [setPc_self]
        · rw [setPc_of_ne _ _ hx, mem_cons, h.active x]
          simp [hx, LogSys.setLog]
      · have hout := h.outstanding
        simp only [LogSys.setPc, LogSys.setLog, length_cons, hout]
        push_cast
        ring
      · intro x q hx
        by_cases hxp : x = p
        · subst hxp
          simp [setPc_self] at hx
        · rw [setPc_of_ne _ _ hxp] at hx
          exact ho.none x q hx
      · exact (ho.snap.setLog { s.mem.log with
          outstanding := s.mem.log.outstanding + 1 } rfl rfl rfl).calls _
    · rw [hcl.committing] at hc
      cases hc
  · rw [LogTrace.observe_asleep]
    exact ⟨act, h.move (by simp [hp]) (by simp [hp]) (by simp) (by simp)⟩

lemma logWrite_ok {b : Nat} (h : logWrite l b = .ok l') :
    l' = { l with lh := logAbsorb l.lh b } ∧ l.lh.length < logSize ∧ l.lh.length < l.size - 1 ∧
      1 ≤ l.outstanding := by
  unfold logWrite at h
  split at h
  · cases h
  · rename_i hn
    split at h
    · cases h
    · rename_i ho
      simp only [not_or, Nat.not_le] at hn
      exact ⟨(Except.ok.inj h).symm, hn.1, hn.2, by omega⟩

lemma Snap.write (h : Snap sb d₀ m d o)
    (hl : logWrite m.log b = .ok l) (c : Nat × Nat) :
    Snap sb d₀ { m.setCache b v with log := l } d { o with pending := o.pending ++ [⟨c, b, v⟩] } := by
  obtain ⟨rfl, hsize, hfit, -⟩ := logWrite_ok hl
  have hlen := length_logAbsorb_le m.log.lh b
  have hlh : logAbsorb m.log.lh b = blocksOf (o.pending ++ [⟨c, b, v⟩]) := by
    rw [blocksOf_append, h.lh]
  have hsz := h.size
  refine ⟨h.start, h.size, hlh, ?_, ?_, ?_, ?_, ?_, h.head, h.home⟩
  · show (logAbsorb m.log.lh b).length ≤ sb.nlog - 1
    omega
  · show (logAbsorb m.log.lh b).length ≤ logSize
    omega
  · intro w hw
    rcases mem_append.mp hw with hw | hw
    · exact h.homes w hw
    · rw [mem_singleton] at hw
      subst hw
      exact b.2
  · intro x hx
    rw [latest_append]
    by_cases hxb : (b : Nat) = x
    · subst hxb
      simp [LogMem.setCache]
    · rw [if_neg hxb]
      have hmem : x ∈ m.log.lh := (mem_logAbsorb.mp hx).resolve_right fun he => hxb he.symm
      have hxb' : x ≠ b := fun he => hxb he.symm
      show update m.cache b (some v) x = latest o.pending x
      rw [update_of_ne hxb']
      exact h.cached x hmem
  · intro x u hx hu
    have hxb : x ≠ b := fun he => b.2.1 (he ▸ hx)
    exact h.cache x u hx (by simpa [LogMem.setCache, hxb] using hu)

lemma LogInv.write (h : LogInv sb d₀ s o act)
    (hs : s.step (.write p b v) = some (.ok s')) :
    LogInv sb d₀ s' (o.observe s' (.write p b v)) act := by
  obtain ⟨hp, l, hl, rfl⟩ := step_write hs
  have hmem : p ∈ act := (h.active p).mpr hp
  obtain ⟨hle, -, -, -⟩ := logWrite_ok hl
  rcases h.phase with ho | ⟨hnil, -⟩
  · refine ⟨h.nodup, h.active, ?_, .inl ⟨?_, ho.none, ho.snap.write hl _, ?_⟩⟩
    · rw [hle]
      exact h.outstanding
    · rw [hle]
      exact ho.committing
    · intro hnil
      rw [hnil] at hmem
      simp at hmem
  · rw [hnil] at hmem
    simp at hmem

lemma endOp_ok {c : Bool} (h : endOp l = .ok (l', c)) :
    l.committing = false ∧ (c = true ↔ l.outstanding = 1) ∧
      l' = { l with outstanding := l.outstanding - 1, committing := c } := by
  unfold endOp at h
  simp only at h
  split at h
  · cases h
  · rename_i hc
    have hcf : l.committing = false := by simpa using hc
    split at h
    · rename_i ho
      cases h
      exact ⟨hcf, by simp; omega, rfl⟩
    · rename_i ho
      cases h
      refine ⟨hcf, by simp; omega, ?_⟩
      rw [← hcf]

variable (h : LogInv sb d₀ s o act)
include h

lemma LogInv.endOp (hs : s.step (.endOp p : LogAct sb) = some (.ok s')) :
    LogInv sb d₀ s' o (act.erase p) := by
  obtain ⟨hp, l, hcase⟩ := step_endOp hs
  have hmem : p ∈ act := (h.active p).mpr hp
  have hlen : (act.erase p).length + 1 = act.length := by
    rw [length_erase_of_mem hmem]
    have hpos := length_pos_of_mem hmem
    omega
  have hout := h.outstanding
  rcases h.phase with ho | ⟨hnil, -⟩
  · rcases hcase with ⟨he, rfl⟩ | ⟨he, rfl⟩
    · obtain ⟨-, hone, rfl⟩ := endOp_ok he
      have h1 : s.mem.log.outstanding = 1 := hone.mp rfl
      have hact : act.erase p = [] := length_eq_zero_iff.mp (by omega)
      refine ⟨h.nodup.erase p, ?_, ?_, .inr ⟨hact, p, commit, _, _, rfl, setPc_self _ _ _, ?_,
        ho.snap.setLog { s.mem.log with outstanding := s.mem.log.outstanding - 1, committing := true }
          rfl rfl rfl, rfl, keeps_commit⟩⟩
      · intro x
        rw [h.nodup.mem_erase_iff]
        by_cases hx : x = p
        · subst hx
          simp [setPc_self]
        · rw [setPc_of_ne _ _ hx, h.active x]
          simp [hx, LogSys.setLog]
      · show s.mem.log.outstanding - 1 = _
        omega
      · intro x q hx
        by_contra hne
        rw [setPc_of_ne _ _ hne] at hx
        exact ho.none x q hx
    · obtain ⟨-, hone, rfl⟩ := endOp_ok he
      have h1 : s.mem.log.outstanding ≠ 1 := fun hh => by simpa using hone.mpr hh
      refine ⟨h.nodup.erase p, ?_, ?_, .inl ⟨rfl, ?_, ?_, ?_⟩⟩
      · intro x
        rw [h.nodup.mem_erase_iff]
        by_cases hx : x = p
        · subst hx
          simp [setPc_self]
        · rw [setPc_of_ne _ _ hx, wakeup_active, h.active x]
          simp [hx, LogSys.setLog]
      · show s.mem.log.outstanding - 1 = _
        omega
      · intro x q hx
        by_cases hxp : x = p
        · subst hxp
          simp [setPc_self] at hx
        · rw [setPc_of_ne _ _ hxp, wakeup_commit] at hx
          exact ho.none x q hx
      · exact ho.snap.setLog { s.mem.log with
          outstanding := s.mem.log.outstanding - 1, committing := false } rfl rfl rfl
      · intro hnil
        rw [hnil, length_nil] at hlen
        omega
  · rw [hnil] at hmem
    simp at hmem

lemma LogInv.commit
    (hs : s.step (.commit p : LogAct sb) = some (.ok s')) : LogInv sb d₀ s' o act := by
  obtain ⟨q, q', m', d', hp, hq, rfl⟩ := step_commit hs
  rcases h.phase with ho | ⟨hnil, p', r, m, d, hc⟩
  · exact absurd hp (ho.none p q)
  · have hpp : p = p' := hc.only p q hp
    subst hpp
    have hqr : q = r := by simpa [hp] using hc.pc
    subst hqr
    obtain ⟨hk, hflags⟩ := hc.keeps.step hq
    have hout : m'.log.outstanding = s.mem.log.outstanding := congrArg (fun x => x.2.2.1) hflags
    have hcom : m'.log.committing = s.mem.log.committing := congrArg (fun x => x.2.2.2) hflags
    refine ⟨h.nodup, ?_, hout.trans h.outstanding, .inr ⟨hnil, p, q', m, d, hcom.trans hc.committing,
      by simp, ?_, hc.snap, (run_of_step hq).trans hc.rest, hk⟩⟩
    · intro x
      by_cases hx : x = p
      · subst hx
        rw [h.active x, hp]
        simp
      · rw [h.active x]
        simp [hx]
    · intro x r' hx
      by_contra hne
      exact hne (hc.only x r' (by simpa [hne] using hx))

lemma LogInv.finish (hs : s.step (.finish p : LogAct sb) = some (.ok s')) :
    LogInv sb d₀ s' (o.observe s' (.finish p : LogAct sb)) act := by
  obtain ⟨⟨u, hp⟩, rfl⟩ := step_finish hs
  rcases h.phase with ho | ⟨hnil, p', r, m, d, hc⟩
  · exact absurd hp (ho.none p _)
  · have hpp : p = p' := hc.only p _ hp
    subst hpp
    have hqr : DiskProg.ret u = r := by simpa [hp] using hc.pc
    subst hqr
    have hsnap := hc.snap.commit
    have hrest := hc.rest
    simp only [run] at hrest
    rw [← hrest] at hsnap
    refine ⟨h.nodup, ?_, h.outstanding, .inl ⟨rfl, ?_, ?_, fun _ => rfl⟩⟩
    · intro x
      by_cases hx : x = p
      · subst hx
        rw [h.active x, hp]
        simp [setPc_self]
      · rw [setPc_of_ne _ _ hx, wakeup_active]
        exact h.active x
    · intro x q hx
      by_cases hxp : x = p
      · subst hxp
        simp [setPc_self] at hx
      · rw [setPc_of_ne _ _ hxp, wakeup_commit] at hx
        exact hxp (hc.only x q hx)
    · exact hsnap.setLog { s.mem.log with committing := false } rfl rfl rfl

lemma LogInv.step (hs : s.step a = some (.ok s')) :
    ∃ act', LogInv sb d₀ s' (o.observe s' a) act' := by
  cases a with
  | enter p => exact ⟨act, h.enter hs⟩
  | begin p => exact h.begin hs
  | write p b v => exact ⟨act, h.write hs⟩
  | endOp p => exact ⟨act.erase p, h.endOp hs⟩
  | commit p => exact ⟨act, h.commit hs⟩
  | finish p => exact ⟨act, h.finish hs⟩

omit h

lemma keeps_readHead : Keeps logFlags readHead := by
  refine keeps_getMem.bind fun m => (keeps_bread _).bind fun buf => ?_
  have hm : Keeps logFlags (modifyMem fun m => m.setLh (getHead buf) : LogProg Unit) :=
    keeps_modifyMem fun _ => rfl
  exact hm

lemma keeps_recoverFromLog : Keeps logFlags recoverFromLog := by
  have hclear : Keeps logFlags (modifyMem fun m => m.setLh [] : LogProg Unit) :=
    keeps_modifyMem fun _ => rfl
  exact keeps_readHead.bind fun _ => keeps_installTrans.bind fun _ => hclear.bind fun _ =>
    keeps_writeHead

lemma logFlags_boot (sb : Superblock) (d : Disk) :
    logFlags (boot sb d).1 = (sb.logstart, sb.nlog, 0, false) := by
  rw [boot, initlog, run_bind, keeps_recoverFromLog.run]
  rfl

lemma LogInv.of_idle (hidle : Idle sb (Xv6.boot sb d)) (hbase : Clean sb d₀ (Xv6.boot sb d).2) :
    LogInv sb d₀ (LogSys.boot sb d) LogTrace.init [] := by
  have hflags := logFlags_boot sb d
  unfold LogSys.boot
  generalize Xv6.boot sb d = md at hidle hbase hflags
  obtain ⟨m, d⟩ := md
  simp only [logFlags, Prod.mk.injEq] at hflags
  obtain ⟨hstart, hsize, hout, hcom⟩ := hflags
  have hlh : m.log.lh = [] := hidle.lh
  refine ⟨nodup_nil, by simp, by simpa using hout, .inl ⟨hcom, by simp, ?_, fun _ => rfl⟩⟩
  exact ⟨hstart, hsize, hlh, by simp [hlh], by simp [hlh], by simp [LogTrace.init], by simp [hlh],
    hidle.cache, hbase.1, hbase.2⟩

lemma LogInv.boot (hn : 0 < sb.nlog) (h₀ : headN (d₀ sb.logstart) = 0) :
    LogInv sb d₀ (LogSys.boot sb d₀) LogTrace.init [] := by
  have hclean : Clean sb d₀ d₀ := ⟨h₀, fun _ _ => rfl⟩
  obtain ⟨hidle, hbase⟩ := hclean.recovered hn
  exact .of_idle hidle hbase

lemma boot_log (hn : 0 < sb.nlog) (h₀ : headN (d₀ sb.logstart) = 0) :
    (LogSys.boot sb d₀).mem.log = ⟨sb.logstart, sb.nlog, 0, false, []⟩ := by
  have hi := LogInv.boot hn h₀
  rcases hi.phase with ho | ⟨-, p, q, m, d, hc⟩
  · have hstart := ho.snap.start
    have hsize := ho.snap.size
    have hlh := ho.snap.lh
    have hcom := ho.committing
    have hout := hi.outstanding
    generalize (LogSys.boot sb d₀).mem.log = l at hstart hsize hlh hcom hout
    obtain ⟨start, size, outstanding, committing, lh⟩ := l
    simp only at hstart hsize hlh hcom hout
    subst hstart hsize hlh hcom hout
    rfl
  · exact absurd hc.pc (by simp [LogSys.boot])

lemma LogRun.inv (hn : 0 < sb.nlog)
    (h₀ : headN (d₀ sb.logstart) = 0) (hr : LogRun ok (LogSys.boot sb d₀) s o) :
    ∃ act, LogInv sb d₀ s o act := by
  induction hr with
  | init => exact ⟨[], LogInv.boot hn h₀⟩
  | step a _ _ hs ih =>
    obtain ⟨act, hi⟩ := ih
    exact hi.step hs

/-! The calls of the processes. The transactions committed so far and the pending
one cut the history of `log_write`s; no call is cut in two. -/

structure CallInv (s : LogSys) (o : LogTrace) : Prop where
  le : ∀ T ∈ o.committed ++ [o.pending], ∀ w ∈ T, w.call.2 ≤ o.calls w.call.1
  ended : ∀ T ∈ o.committed, ∀ w ∈ T, ¬ (s.pc w.call.1 = .active ∧ w.call.2 = o.calls w.call.1)
  apart : (o.committed ++ [o.pending]).Pairwise fun T U => ∀ w ∈ T, ∀ u ∈ U, w.call ≠ u.call

lemma CallInv.congr (h : CallInv s o)
    (hpc : ∀ p, s'.pc p = .active → s.pc p = .active) : CallInv s' o :=
  ⟨h.le, fun T hT w hw hh => h.ended T hT w hw ⟨hpc _ hh.1, hh.2⟩, h.apart⟩

lemma CallInv.begin (h : CallInv s o) (hs : s.step (.begin p : LogAct sb) = some (.ok s')) :
    CallInv s' (o.observe s' (.begin p : LogAct sb)) := by
  obtain ⟨hp, ⟨l, hl, rfl⟩ | ⟨-, rfl⟩⟩ := step_begin hs
  · rw [LogTrace.observe_admit]
    refine ⟨?_, ?_, h.apart⟩
    · intro T hT w hw
      have hle := h.le T hT w hw
      by_cases hwp : w.call.1 = p
      · simp only [hwp, update_self] at hle ⊢
        omega
      · simpa [hwp] using hle
    · rintro T hT w hw ⟨hact, hcall⟩
      have hle := h.le T (mem_append_left _ hT) w hw
      by_cases hwp : w.call.1 = p
      · simp only [hwp, update_self] at hle hcall
        omega
      · rw [setPc_of_ne _ _ hwp] at hact
        exact h.ended T hT w hw ⟨hact, by simpa [hwp] using hcall⟩
  · rw [LogTrace.observe_asleep]
    refine h.congr fun x hx => ?_
    by_cases hxp : x = p
    · subst hxp
      simp [setPc_self] at hx
    · rwa [setPc_of_ne _ _ hxp] at hx

lemma CallInv.write (h : CallInv s o)
    (hs : s.step (.write p b v) = some (.ok s')) : CallInv s' (o.observe s' (.write p b v)) := by
  obtain ⟨hp, l, -, rfl⟩ := step_write hs
  refine ⟨?_, h.ended, ?_⟩
  · intro T hT w hw
    rcases mem_append.mp hT with hT | hT
    · exact h.le T (mem_append_left _ hT) w hw
    · rw [mem_singleton] at hT
      subst hT
      rcases mem_append.mp hw with hw | hw
      · exact h.le o.pending (by simp) w hw
      · rw [mem_singleton] at hw
        subst hw
        exact Nat.le_refl _
  · have hap := pairwise_append.mp h.apart
    refine pairwise_append.mpr ⟨hap.1, pairwise_singleton _ _, ?_⟩
    intro T hT U hU w hw u hu
    rw [mem_singleton] at hU
    subst hU
    rcases mem_append.mp hu with hu | hu
    · exact hap.2.2 T hT o.pending (by simp) w hw u hu
    · rw [mem_singleton] at hu
      subst hu
      -- the call that logs is still active, so it is in no committed transaction
      intro hc
      exact h.ended T hT w hw ⟨by rw [hc]; exact hp, by rw [hc]⟩

lemma CallInv.finish (h : CallInv s o) (hq : ∀ x, s.pc x ≠ .active)
    (hs : s.step (.finish p : LogAct sb) = some (.ok s')) :
    CallInv s' (o.observe s' (.finish p : LogAct sb)) := by
  obtain ⟨-, rfl⟩ := step_finish hs
  have hquiet : ∀ x, ((s.setLog { s.mem.log with committing := false }).wakeup.setPc p .out).pc x ≠
      .active := by
    intro x hx
    by_cases hxp : x = p
    · subst hxp
      simp [setPc_self] at hx
    · rw [setPc_of_ne _ _ hxp, wakeup_active] at hx
      exact hq x hx
  refine ⟨?_, fun T _ w _ hh => hquiet _ hh.1, ?_⟩
  · intro T hT w hw
    rcases mem_append.mp hT with hT | hT
    · exact h.le T hT w hw
    · rw [mem_singleton] at hT
      subst hT
      cases hw
  · refine pairwise_append.mpr ⟨h.apart, pairwise_singleton _ _, ?_⟩
    intro T _ U hU w _ u hu
    rw [mem_singleton] at hU
    subst hU
    cases hu

/-- A call begins and ends inside one transaction. -/
lemma CallInv.step (h : CallInv s o) (hi : LogInv sb d₀ s o act)
    (hs : s.step a = some (.ok s')) : CallInv s' (o.observe s' a) := by
  cases a with
  | enter p =>
    obtain ⟨-, rfl⟩ := step_enter hs
    refine h.congr fun x hx => ?_
    by_cases hxp : x = p
    · subst hxp
      simp [setPc_self] at hx
    · rwa [setPc_of_ne _ _ hxp] at hx
  | begin p => exact h.begin hs
  | write p b v => exact h.write hs
  | endOp p =>
    obtain ⟨-, l, ⟨-, rfl⟩ | ⟨-, rfl⟩⟩ := step_endOp hs
    · refine h.congr fun x hx => ?_
      by_cases hxp : x = p
      · subst hxp
        simp [setPc_self] at hx
      · rwa [setPc_of_ne _ _ hxp] at hx
    · refine h.congr fun x hx => ?_
      by_cases hxp : x = p
      · subst hxp
        simp [setPc_self] at hx
      · rwa [setPc_of_ne _ _ hxp, wakeup_active] at hx
  | commit p =>
    obtain ⟨q, q', m', d', -, -, rfl⟩ := step_commit hs
    refine h.congr fun x hx => ?_
    by_cases hxp : x = p
    · subst hxp
      simp at hx
    · simpa [hxp] using hx
  | finish p =>
    refine h.finish (fun x hx => ?_) hs
    obtain ⟨⟨u, hp⟩, -⟩ := step_finish hs
    rcases hi.phase with ho | ⟨hnil, -⟩
    · exact ho.none p _ hp
    · have hmem := (hi.active x).mpr hx
      rw [hnil] at hmem
      simp at hmem

lemma LogRun.calls (hn : 0 < sb.nlog)
    (h₀ : headN (d₀ sb.logstart) = 0) (hr : LogRun ok (LogSys.boot sb d₀) s o) : CallInv s o := by
  induction hr with
  | init => exact ⟨by simp [LogTrace.init], by simp [LogTrace.init], by simp [LogTrace.init]⟩
  | step a hr _ hs ih =>
    obtain ⟨act, hi⟩ := hr.inv hn h₀
    exact ih.step hi hs

include h

lemma LogInv.closing (hc : s.mem.log.committing = true) :
    act = [] ∧ ∃ p q m d, Closing sb d₀ s o p q m d := by
  rcases h.phase with ho | hcl
  · rw [ho.committing] at hc
    cases hc
  · exact hcl

lemma LogInv.no_write (hc : s.mem.log.committing = true) (p : Nat)
    (b : HomeBlock sb) (v : Block) : s.step (.write p b v) = none := by
  obtain ⟨hnil, -⟩ := h.closing hc
  have hp : s.pc p ≠ .active := by
    rw [Ne, ← h.active p, hnil]
    simp
  cases hpc : s.pc p <;> simp_all [LogSys.step]

lemma LogInv.frozen (hc : s.mem.log.committing = true)
    (hs : s.step a = some (.ok s')) (ha : ∀ p, a ≠ .commit p ∧ a ≠ .finish p) : s'.mem = s.mem ∧
    s'.disk = s.disk := by
  obtain ⟨hnil, -⟩ := h.closing hc
  cases a with
  | enter p =>
    obtain ⟨-, rfl⟩ := step_enter hs
    exact ⟨rfl, rfl⟩
  | begin p =>
    obtain ⟨-, ⟨l, hl, -⟩ | ⟨-, rfl⟩⟩ := step_begin hs
    · rw [(beginOp_some hl).1] at hc
      cases hc
    · exact ⟨rfl, rfl⟩
  | write p b v =>
    rw [h.no_write hc] at hs
    cases hs
  | endOp p =>
    have hmem := (h.active p).mpr (step_endOp hs).1
    rw [hnil] at hmem
    cases hmem
  | commit p => exact absurd rfl (ha p).1
  | finish p => exact absurd rfl (ha p).2

lemma LogInv.endOp_no_panic (p : Nat) (e : String) :
    s.step (.endOp p : LogAct sb) ≠ some (.error e) := by
  intro hs
  cases hp : s.pc p <;> simp only [LogSys.step, hp, reduceCtorEq] at hs
  have hmem := (h.active p).mpr hp
  rcases h.phase with ho | ⟨hnil, -⟩
  · have hc := ho.committing
    by_cases hz : s.mem.log.outstanding - 1 = 0 <;> simp [Xv6.endOp, hc, hz] at hs
  · rw [hnil] at hmem
    cases hmem

/-- The `commit()` that an `end_op` starts finds `log.lh` to be the blocks logged since
the previous one, and writes each of them home once. -/
lemma LogInv.commit_start
    (hs : s.step (.endOp p : LogAct sb) = some (.ok s')) {q : LogProg Unit} (hq : s'.pc p = .commit q) :
    s'.mem.log.lh = blocksOf o.pending ∧ s'.mem.log.lh.Nodup ∧
      (trace q s'.mem s'.disk).filter (fun w => ¬ InLog sb w.1) =
        (blocksOf o.pending).map fun b => (b, (latest o.pending b).getD (s'.disk b)) := by
  have hmem := (h.active p).mpr (step_endOp hs).1
  obtain ⟨-, l, ⟨he, rfl⟩ | ⟨-, rfl⟩⟩ := step_endOp hs
  · rw [setPc_self] at hq
    cases hq
    obtain ⟨-, -, rfl⟩ := endOp_ok he
    rcases h.phase with ho | ⟨hnil, -⟩
    · have hsnap := ho.snap.setLog
        { s.mem.log with outstanding := s.mem.log.outstanding - 1, committing := true } rfl rfl rfl
      have hlh := hsnap.lh
      exact ⟨hlh, hlh ▸ nodup_blocksOf _, hsnap.commit_trace⟩
    · rw [hnil] at hmem
      cases hmem
  · rw [setPc_self] at hq
    cases hq

lemma LogInv.home (hc : s.mem.log.committing = false) :
    Clean sb (o.committed.foldl applyLogged d₀) s.disk := by
  rcases h.phase with ho | ⟨-, p, q, m, d, hcl⟩
  · exact ⟨ho.snap.head, ho.snap.home⟩
  · rw [hcl.committing] at hc
    cases hc

lemma LogInv.finish_clean (hs : s.step (.finish p : LogAct sb) = some (.ok s')) :
    Clean sb ((o.committed ++ [o.pending]).foldl applyLogged d₀) s'.disk := by
  refine (h.finish hs).home ?_
  obtain ⟨-, rfl⟩ := step_finish hs
  rfl

omit h

end

/-- Any number of processes, any interleaving of their steps. -/
theorem group_commit_isolation {sb : Superblock} (hn : 0 < sb.nlog) {d₀ : Disk}
    (h₀ : headN (d₀ sb.logstart) = 0) {ok : LogTrace → LogAct sb → Prop} {s : LogSys} {o : LogTrace}
    (hr : LogRun ok (LogSys.boot sb d₀) s o) : (s.mem.log.committing = true →
      s.mem.log.outstanding = 0 ∧ beginOp s.mem.log = none ∧
      (∀ p (b : HomeBlock sb) v, s.step (.write p b v) = none) ∧
      ∀ (a : LogAct sb) s', s.step a = some (.ok s') → (∀ p, a ≠ .commit p ∧ a ≠ .finish p) →
        s'.mem = s.mem ∧ s'.disk = s.disk) ∧
        (∀ p, s.step (.endOp p : LogAct sb) ≠ some (.error "log.committing")) ∧
    (∀ p q s', s.step (.endOp p : LogAct sb) = some (.ok s') → s'.pc p = .commit q →
      s'.mem.log.lh = blocksOf o.pending ∧ s'.mem.log.lh.Nodup ∧
      (trace q s'.mem s'.disk).filter (fun w => ¬ InLog sb w.1) =
        (blocksOf o.pending).map fun b => (b, (latest o.pending b).getD (s'.disk b))) ∧
    (s.mem.log.committing = false → Clean sb (o.committed.foldl applyLogged d₀) s.disk) ∧
    (o.committed ++ [o.pending]).Pairwise (fun T U => ∀ w ∈ T, ∀ u ∈ U, w.call ≠ u.call) ∧
    (∀ T ∈ o.committed, ∀ w ∈ T, ¬ (s.pc w.call.1 = .active ∧ w.call.2 = o.calls w.call.1)) ∧
    (∀ p s', s.step (.finish p : LogAct sb) = some (.ok s') →
      (o.observe s' (.finish p : LogAct sb)).pending = [] ∧
      Clean sb ((o.committed ++ [o.pending]).foldl applyLogged d₀) s'.disk) := by
  obtain ⟨act, hi⟩ := hr.inv hn h₀
  have hcalls := hr.calls hn h₀
  refine ⟨fun hc => ⟨?_, ?_, hi.no_write hc, fun a s' hs ha => hi.frozen hc hs ha⟩,
    fun p => hi.endOp_no_panic p _, fun p q s' hs hq => hi.commit_start hs hq, hi.home, hcalls.apart,
    hcalls.ended, fun p s' hs => ⟨rfl, hi.finish_clean hs⟩⟩
  · rw [hi.outstanding, (hi.closing hc).1]
    rfl
  · simp [beginOp, hc]

section

variable {sb : Superblock} {ok : LogTrace → LogAct sb → Prop} {s0 s : LogSys} {o : LogTrace} {p : Nat}

lemma LogRun.admit (hr : LogRun ok s0 s o) (he : ∀ o, ok o (.enter p)) (hb : ∀ o, ok o (.begin p))
    (hp : s.pc p = .out) {l : Log} (hl : beginOp s.mem.log = some l) :
    LogRun ok s0 ⟨{ s.mem with log := l }, s.disk, update s.pc p .active⟩
      { o with calls := update o.calls p (o.calls p + 1) } := by
  have h1 : s.step (.enter p : LogAct sb) = some (.ok (s.setPc p .entered)) := by
    simp [LogSys.step, hp]
  have h2 : (s.setPc p .entered).step (.begin p : LogAct sb) =
      some (.ok ⟨{ s.mem with log := l }, s.disk, update s.pc p .active⟩) := by
    simp [LogSys.step, LogSys.setPc, LogSys.setLog, hl]
  have hr2 := (hr.step _ (he o) h1).step _ (hb _) h2
  simpa [LogTrace.observe] using hr2

lemma LogRun.logged (hr : LogRun ok s0 s o) {b : HomeBlock sb} {v : Block} (hw : ok o (.write p b v))
    (hp : s.pc p = .active) {l : Log} (hl : logWrite s.mem.log b = .ok l) :
    LogRun ok s0 ⟨{ s.mem.setCache b v with log := l }, s.disk, s.pc⟩
      { o with pending := o.pending ++ [⟨(p, o.calls p), b, v⟩] } := by
  refine hr.step (.write p b v) hw ?_
  simp [LogSys.step, hp, hl]

end

theorem group_commit_isolation_oneCall : ∃ (s s' : LogSys) (o : LogTrace),
      LogRun (fun _ (_ : LogAct mkfsSb) => True) (LogSys.boot mkfsSb blankDisk) s o ∧
      s.step (.endOp 0 : LogAct mkfsSb) = some (.ok s') ∧ s'.pc 0 = .commit commit ∧
      (trace commit s'.mem s'.disk).filter (fun w => ¬ InLog mkfsSb w.1) =
        [(100, Bytes.fill bsize 7)] := by
  have hn : 0 < mkfsSb.nlog := by decide
  have h0 := headN_blankDisk mkfsSb.logstart
  have hlog := boot_log hn h0
  obtain ⟨s, o, hr, hp, hl, ho⟩ : ∃ s o,
      LogRun (fun _ (_ : LogAct mkfsSb) => True) (LogSys.boot mkfsSb blankDisk) s o ∧ s.pc 0 = .active ∧
      s.mem.log = ⟨mkfsSb.logstart, mkfsSb.nlog, 1, false, [100]⟩ ∧
      o.pending = [⟨(0, 1), 100, Bytes.fill bsize 7⟩] := by
    have hr0 : LogRun (fun _ (_ : LogAct mkfsSb) => True) (LogSys.boot mkfsSb blankDisk)
      (LogSys.boot mkfsSb blankDisk) LogTrace.init := .init
    have hr1 := hr0.admit (p := 0) (fun _ => trivial) (fun _ => trivial) rfl (by rw [hlog]; rfl)
    have hr2 :=
      hr1.logged (p := 0) (b := ⟨100, by decide⟩) (v := Bytes.fill bsize 7) trivial (by simp) rfl
    exact ⟨_, _, hr2, by simp, rfl, by simp [LogTrace.init]⟩
  have hs : s.step (.endOp 0 : LogAct mkfsSb) = some (.ok ((s.setLog
      ⟨mkfsSb.logstart, mkfsSb.nlog, 0, true, [100]⟩).setPc 0 (.commit commit))) := by
    simp [LogSys.step, hp, hl, endOp]
  have hq := (group_commit_isolation hn h0 hr).2.2.1 0 commit _ hs (setPc_self _ _ _)
  refine ⟨s, _, o, hr, hs, setPc_self _ _ _, hq.2.2.trans ?_⟩
  simp [ho, blocksOf, logAbsorb, latest]

end Xv6
