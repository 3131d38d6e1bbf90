import Xv6.GroupCommit

/-! Log space. `begin_op` reserves `MAXOPBLOCKS` entries for every outstanding call,
out of `LOGSIZE`; `log_write` panics once `log.size - 1` entries are taken, and
looks before it absorbs. With `nlog = LOGSIZE` three calls of ten blocks get one
entry too few, while calls of nine blocks never do. -/

namespace Xv6

open List

/-- The different blocks that a call has written. -/
def callBlocks (o : LogTrace) (p : Nat) : List Nat :=
  blocksOf (o.pending.filter fun w => w.call = (p, o.calls p))

/-- No call writes more than `n` different blocks. -/
def OpBound {sb : Superblock} (n : Nat) (o : LogTrace) : LogAct sb → Prop
  | .write p b _ => (logAbsorb (callBlocks o p) b).length ≤ n
  | _ => True

lemma callBlocks_subset {o : LogTrace} {p b : Nat} (h : b ∈ callBlocks o p) :
    b ∈ blocksOf o.pending := by
  obtain ⟨w, hw, hb⟩ := mem_blocksOf.mp h
  exact mem_blocksOf.mpr ⟨w, (mem_filter.mp hw).1, hb⟩

def unused (n : Nat) (o : LogTrace) (p : Nat) : Nat := n - (callBlocks o p).length

/-- What is taken and what the active calls may still take fits below `log.size - 1`. -/
def Reserved (s : LogSys) (o : LogTrace) : Prop :=
  ∀ act : List Nat, act.Nodup → (∀ p, p ∈ act ↔ s.pc p = .active) →
    (blocksOf o.pending).length + (act.map (unused (maxOpBlocks - 1) o)).sum ≤ logSize - 2

section

variable {sb : Superblock} {d₀ : Disk} {s s' : LogSys} {o : LogTrace} {act : List Nat} {p : Nat}

lemma Reserved.congr (h : Reserved s o)
    (hpc : ∀ p, s'.pc p = .active ↔ s.pc p = .active) : Reserved s' o :=
  fun act hn ha => h act hn fun p => (ha p).trans (hpc p)

lemma sum_unused_le (n : Nat) (o : LogTrace) (act : List Nat) :
    (act.map (unused n o)).sum ≤ act.length * n := by
  induction act with
  | nil => simp
  | cons x xs ih =>
    have hx : unused n o x ≤ n := Nat.sub_le _ _
    simp only [map_cons, sum_cons, length_cons, Nat.succ_mul]
    omega

lemma LogInv.reserved_admit (h : LogInv sb d₀ s o act) {l : Log} (hl : beginOp s.mem.log = some l)
    (o' : LogTrace) (ho : o'.pending = o.pending) {act' : List Nat}
    (hlen : act'.length = act.length + 1) :
    (blocksOf o'.pending).length + (act'.map (unused (maxOpBlocks - 1) o')).sum ≤ logSize - 2 := by
  obtain ⟨hc, -, hroom⟩ := beginOp_some hl
  have hsum := sum_unused_le (maxOpBlocks - 1) o' act'
  rcases h.phase with hopen | ⟨-, p, q, m, d, hcl⟩
  · rw [hopen.snap.lh, h.outstanding] at hroom
    rw [ho]
    simp only [maxOpBlocks, logSize] at hroom hsum ⊢
    -- a lone call starts from an empty log: nothing is pending between transactions
    cases act with
    | nil =>
      have hnil : blocksOf o.pending = [] := by simp [hopen.quiet rfl, blocksOf]
      rw [hnil]
      simp only [length_nil] at hlen ⊢
      omega
    | cons x xs =>
      simp only [length_cons] at hroom hlen
      push_cast at hroom
      omega
  · rw [hcl.committing] at hc
    cases hc

lemma Reserved.begin (h : Reserved s o) (hi : LogInv sb d₀ s o act)
    (hs : s.step (.begin p : LogAct sb) = some (.ok s')) :
    Reserved s' (o.observe s' (.begin p : LogAct sb)) := by
  obtain ⟨hp, ⟨l, hl, rfl⟩ | ⟨-, rfl⟩⟩ := step_begin hs
  · rw [LogTrace.observe_admit]
    intro act' hn ha
    refine hi.reserved_admit hl { o with calls := Function.update o.calls p (o.calls p + 1) } rfl ?_
    have hperm : act'.Perm (p :: act) := by
      have hna : p ∉ act := by
        rw [hi.active, hp]
        simp
      refine (perm_ext_iff_of_nodup hn (nodup_cons.mpr ⟨hna, hi.nodup⟩)).mpr fun x => ?_
      rw [ha x, mem_cons, hi.active x]
      by_cases hx : x = p
      · subst hx
        simp [setPc_self]
      · rw [setPc_of_ne _ _ hx]
        simp [hx, LogSys.setLog]
    rw [hperm.length_eq, length_cons]
  · rw [LogTrace.observe_asleep]
    refine h.congr fun x => ?_
    by_cases hx : x = p
    · subst hx
      simp [setPc_self, hp]
    · rw [setPc_of_ne _ _ hx]

lemma callBlocks_write {o : LogTrace} {b : Nat} {v : Block} (p x : Nat) :
    callBlocks { o with pending := o.pending ++ [⟨(p, o.calls p), b, v⟩] } x =
      if x = p then logAbsorb (callBlocks o x) b else callBlocks o x := by
  by_cases hx : x = p
  · subst hx
    simp [callBlocks, filter_append, blocksOf_append]
  · have hne : ¬ p = x := fun he => hx he.symm
    simp [callBlocks, filter_append, hx, hne]

lemma Reserved.write (h : Reserved s o) {b : HomeBlock sb} {v : Block}
    (hok : OpBound (maxOpBlocks - 1) o (.write p b v)) (hs : s.step (.write p b v) = some (.ok s')) :
    Reserved s' (o.observe s' (.write p b v)) := by
  obtain ⟨hp, l, -, rfl⟩ := step_write hs
  intro act hn ha
  have hr := h act hn ha
  have hmem : p ∈ act := (ha p).mpr hp
  obtain ⟨as, bs, rfl⟩ := append_of_mem hmem
  have hna : ∀ x ∈ as ++ bs, x ≠ p := by
    intro x hx he
    subst he
    exact (nodup_cons.mp (perm_middle.nodup_iff.mp hn)).1 hx
  set o' := o.observe _ (.write p b v) with ho'
  have hother : ∀ x, x ≠ p → unused (maxOpBlocks - 1) o' x = unused (maxOpBlocks - 1) o x := by
    intro x hx
    have hc := callBlocks_write (o := o) (b := b) (v := v) p x
    rw [if_neg hx] at hc
    exact congrArg (fun l => maxOpBlocks - 1 - l.length) hc
  have has : as.map (unused (maxOpBlocks - 1) o') = as.map (unused (maxOpBlocks - 1) o) :=
    map_congr_left fun x hx => hother x (hna x (mem_append_left _ hx))
  have hbs : bs.map (unused (maxOpBlocks - 1) o') = bs.map (unused (maxOpBlocks - 1) o) :=
    map_congr_left fun x hx => hother x (hna x (mem_append_right _ hx))
  have hself : callBlocks o' p = logAbsorb (callBlocks o p) b := by
    have hc := callBlocks_write (o := o) (b := b) (v := v) p p
    rwa [if_pos rfl] at hc
  have hlh : blocksOf o'.pending = logAbsorb (blocksOf o.pending) b := blocksOf_append _ _
  have hok' : (logAbsorb (callBlocks o p) b).length ≤ maxOpBlocks - 1 := hok
  simp only [map_append, map_cons, sum_append, sum_cons, has, hbs] at hr ⊢
  rw [hlh]
  simp only [unused, hself] at hr ⊢
  by_cases hb : (b : Nat) ∈ blocksOf o.pending
  · rw [logAbsorb_of_mem hb]
    have hge : (callBlocks o p).length ≤ (logAbsorb (callBlocks o p) b).length := by
      by_cases hc : (b : Nat) ∈ callBlocks o p
      · rw [logAbsorb_of_mem hc]
      · rw [length_logAbsorb hc]
        omega
    omega
  · have hc : (b : Nat) ∉ callBlocks o p := fun hh => hb (callBlocks_subset hh)
    rw [length_logAbsorb hc] at hok' ⊢
    rw [length_logAbsorb hb]
    omega

lemma Reserved.endOp (h : Reserved s o) (hp : s.pc p = .active)
    (hpc : ∀ x, s'.pc x = .active ↔ s.pc x = .active ∧ x ≠ p) : Reserved s' o := by
  intro act hn ha
  have hna : p ∉ act := by
    rw [ha, hpc]
    simp
  have hr := h (p :: act) (nodup_cons.mpr ⟨hna, hn⟩) fun x => by
    rw [mem_cons, ha, hpc]
    by_cases hx : x = p
    · simp [hx, hp]
    · simp [hx]
  simp only [map_cons, sum_cons] at hr
  omega

/-- A call writes only what it has reserved. -/
lemma Reserved.step (h : Reserved s o) (hi : LogInv sb d₀ s o act) {a : LogAct sb}
    (hok : OpBound (maxOpBlocks - 1) o a) (hs : s.step a = some (.ok s')) :
    Reserved s' (o.observe s' a) := by
  cases a with
  | enter p =>
    obtain ⟨hp, rfl⟩ := step_enter hs
    refine h.congr fun x => ?_
    by_cases hx : x = p
    · subst hx
      simp [setPc_self, hp]
    · rw [setPc_of_ne _ _ hx]
  | begin p => exact h.begin hi hs
  | write p b v => exact h.write hok hs
  | endOp p =>
    obtain ⟨hp, l, ⟨-, rfl⟩ | ⟨-, rfl⟩⟩ := step_endOp hs
    · refine h.endOp hp fun x => ?_
      by_cases hx : x = p
      · subst hx
        simp [setPc_self]
      · rw [setPc_of_ne _ _ hx]
        simp [hx, LogSys.setLog]
    · refine h.endOp hp fun x => ?_
      by_cases hx : x = p
      · subst hx
        simp [setPc_self]
      · rw [setPc_of_ne _ _ hx, wakeup_active]
        simp [hx, LogSys.setLog]
  | commit p =>
    obtain ⟨q, q', m', d', hp, -, rfl⟩ := step_commit hs
    refine h.congr fun x => ?_
    by_cases hx : x = p
    · subst hx
      simp [hp]
    · simp [hx]
  | finish p =>
    intro act' hn ha
    obtain ⟨⟨u, hp⟩, -⟩ := step_finish hs
    have hfin := hi.finish hs
    have hperm := (perm_ext_iff_of_nodup hn hfin.nodup).mpr fun x => (ha x).trans (hfin.active x).symm
    rcases hi.phase with ho | ⟨hnil, -⟩
    · exact absurd hp (ho.none p _)
    · have hact : act' = [] := eq_nil_of_length_eq_zero (by rw [hperm.length_eq, hnil]; rfl)
      subst hact
      simp [LogTrace.observe, blocksOf]

lemma LogRun.reserved (hn : 0 < sb.nlog) (h₀ : headN (d₀ sb.logstart) = 0)
    (hr : LogRun (fun o (a : LogAct sb) => OpBound (maxOpBlocks - 1) o a)
      (LogSys.boot sb d₀) s o) : Reserved s o := by
  induction hr with
  | init =>
    intro act _ ha
    have hact : act = [] := eq_nil_iff_forall_not_mem.mpr fun x hx => by
      simpa [LogSys.boot] using (ha x).mp hx
    simp [hact, LogTrace.init, blocksOf]
  | step a hr hok hs ih =>
    obtain ⟨act, hi⟩ := hr.inv hn h₀
    exact ih.step hi hok hs

end

lemma logWrite_of_room {l : Log} (h1 : l.lh.length < logSize) (h2 : l.lh.length < l.size - 1)
    (h3 : 1 ≤ l.outstanding) (b : Nat) : logWrite l b = .ok { l with lh := logAbsorb l.lh b } := by
  rw [logWrite, if_neg (by omega), if_neg (by omega)]

/-- With at most `MAXOPBLOCKS - 1` distinct blocks a call, `log_write` never panics. -/
theorem log_space_reserved {sb : Superblock} (hn : sb.nlog = logSize) {d₀ : Disk}
    (h₀ : headN (d₀ sb.logstart) = 0) {s : LogSys} {o : LogTrace}
    (hr : LogRun (fun o (a : LogAct sb) => OpBound (maxOpBlocks - 1) o a) (LogSys.boot sb d₀) s o)
    (p : Nat) (b : HomeBlock sb) (v : Block) (e : String) :
    s.step (.write p b v) ≠ some (.error e) := by
  intro hs
  have hpos : 0 < sb.nlog := by
    rw [hn]
    decide
  obtain ⟨act, hi⟩ := hr.inv hpos h₀
  have hres := hr.reserved hpos h₀ act hi.nodup hi.active
  cases hp : s.pc p <;> simp only [LogSys.step, hp, reduceCtorEq] at hs
  have hmem := (hi.active p).mpr hp
  have hlen := length_pos_of_mem hmem
  rcases hi.phase with ho | ⟨hnil, -⟩
  · have hlh := ho.snap.lh
    have hsize := ho.snap.size
    have hout := hi.outstanding
    simp only [logSize, maxOpBlocks] at hres hn
    have hw := logWrite_of_room (l := s.mem.log) (by rw [hlh]; simp only [logSize, maxOpBlocks]; omega)
      (by rw [hlh, hsize]; omega) (by omega) b
    rw [hw] at hs
    cases hs
  · rw [hnil] at hmem
    cases hmem

section

variable {sb : Superblock} {n : Nat} {s0 s : LogSys} {o : LogTrace} {p : Nat}

lemma length_foldl_logAbsorb_le (bs l : List Nat) :
    (bs.foldl logAbsorb l).length ≤ l.length + bs.length := by
  induction bs generalizing l with
  | nil => simp
  | cons b bs ih =>
    have hlen := length_logAbsorb_le l b
    have hrest := ih (logAbsorb l b)
    simp only [foldl_cons, length_cons]
    omega

lemma LogRun.logs (v : Block) (bs : List (HomeBlock sb)) {k : Nat}
    (hr : LogRun (fun o (a : LogAct sb) => OpBound n o a) s0 s o) (hp : s.pc p = .active)
    (hk : (o.pending.filter fun w => w.call = (p, o.calls p)).length + bs.length ≤ n)
    (hl : s.mem.log.lh.length + bs.length ≤ k) (hk1 : k < logSize) (hk2 : k ≤ s.mem.log.size - 1)
    (ho : 1 ≤ s.mem.log.outstanding) :
    ∃ s' o', LogRun (fun o (a : LogAct sb) => OpBound n o a) s0 s' o' ∧ s'.pc = s.pc ∧
      s'.mem.log = { s.mem.log with lh := (bs.map Subtype.val).foldl logAbsorb s.mem.log.lh } ∧
      o'.calls = o.calls ∧
      o'.pending = o.pending ++ bs.map fun b => ⟨(p, o.calls p), b.1, v⟩ := by
  induction bs generalizing s o with
  | nil => exact ⟨s, o, hr, rfl, rfl, rfl, by simp⟩
  | cons b bs ih =>
    simp only [length_cons] at hk hl
    have hok : OpBound n o (.write p b v) := by
      have h1 := length_logAbsorb_le (callBlocks o p) b
      have h2 : (callBlocks o p).length ≤ _ := length_foldl_logAbsorb_le _ []
      simp only [length_nil, length_map] at h2
      show (logAbsorb (callBlocks o p) b).length ≤ n
      omega
    have hw : logWrite s.mem.log b = .ok { s.mem.log with lh := logAbsorb s.mem.log.lh b } :=
      logWrite_of_room (by omega) (by omega) ho b
    have hlen := length_logAbsorb_le s.mem.log.lh b
    obtain ⟨s', o', hr', hpc, hlog, hcalls, hpend⟩ := ih (hr.logged hok hp hw) hp
      (by simp [filter_append]; omega) (by simp only; omega) hk2 ho
    refine ⟨s', o', hr', hpc, hlog, hcalls, ?_⟩
    rw [hpend, map_cons, append_assoc]
    rfl

lemma three_admitted (n : Nat) : ∃ s o,
    LogRun (fun o (a : LogAct mkfsSb) => OpBound n o a) (LogSys.boot mkfsSb blankDisk) s o ∧
    s.pc 0 = .active ∧ s.pc 1 = .active ∧ s.pc 2 = .active ∧
    s.mem.log = ⟨mkfsSb.logstart, mkfsSb.nlog, 3, false, []⟩ ∧
    o.pending = [] := by
  have hn : 0 < mkfsSb.nlog := by decide
  have h0 := headN_blankDisk mkfsSb.logstart
  have hlog := boot_log hn h0
  have hr0 : LogRun (fun o (a : LogAct mkfsSb) => OpBound n o a) (LogSys.boot mkfsSb blankDisk)
    (LogSys.boot mkfsSb blankDisk) LogTrace.init := .init
  have hr1 := hr0.admit (p := 0) (fun _ => trivial) (fun _ => trivial) rfl (by rw [hlog]; rfl)
  have hr2 := hr1.admit (p := 1) (fun _ => trivial) (fun _ => trivial) rfl rfl
  have hr3 := hr2.admit (p := 2) (fun _ => trivial) (fun _ => trivial) rfl rfl
  exact ⟨_, _, hr3, rfl, rfl, rfl, rfl, rfl⟩

def dataBlock (i : Fin 100) : HomeBlock mkfsSb :=
  ⟨100 + i, by simp only [InLog, mkfsSb, logSize, maxOpBlocks]; omega, by omega⟩

def dataNo (i : Fin 100) : Nat := 100 + i

lemma LogRun.one_of_three (l : List (Fin 100)) {lh : List Nat}
    (hr : LogRun (fun o (a : LogAct mkfsSb) => OpBound n o a) s0 s o) (hp : s.pc p = .active)
    (hlog : s.mem.log = ⟨mkfsSb.logstart, mkfsSb.nlog, 3, false, lh⟩) (hl : l.length ≤ n)
    (hfirst : ∀ w ∈ o.pending, w.call.1 ≠ p) (hk : lh.length + l.length ≤ logSize - 1) :
    ∃ s' o', LogRun (fun o (a : LogAct mkfsSb) => OpBound n o a) s0 s' o' ∧ s'.pc = s.pc ∧
      s'.mem.log = ⟨mkfsSb.logstart, mkfsSb.nlog, 3, false, (l.map dataNo).foldl logAbsorb lh⟩ ∧
      o'.calls = o.calls ∧
      o'.pending = o.pending ++ l.map fun i => ⟨(p, o.calls p), dataNo i, Bytes.fill bsize 0⟩ := by
  have hnone : (o.pending.filter fun w => w.call = (p, o.calls p)) = [] := by
    apply filter_eq_nil_iff.mpr
    intro w hw hc
    exact hfirst w hw (congrArg Prod.fst (of_decide_eq_true hc))
  have hlh : s.mem.log.lh = lh := by rw [hlog]
  have hsize : s.mem.log.size = logSize := by rw [hlog]; rfl
  have hout : s.mem.log.outstanding = 3 := by rw [hlog]
  obtain ⟨s', o', hr', hpc, hlog', hc, hpend⟩ := hr.logs (k := logSize - 1) (Bytes.fill bsize 0)
    (l.map dataBlock) hp (by simpa [hnone] using hl) (by simpa [hlh] using hk) (by decide)
    (by rw [hsize]) (by omega)
  refine ⟨s', o', hr', hpc, ?_, hc, ?_⟩
  · rw [hlog', hlog, map_map]
    rfl
  · rw [hpend, map_map]
    rfl

lemma three_calls {n : Nat} (a b c : List (Fin 100)) (ha : a.length ≤ n) (hb : b.length ≤ n)
    (hc : c.length ≤ n) (hk : a.length + b.length + c.length ≤ logSize - 1) : ∃ s o,
    LogRun (fun o (a : LogAct mkfsSb) => OpBound n o a) (LogSys.boot mkfsSb blankDisk) s o ∧
    s.pc 2 = .active ∧ s.mem.log = ⟨mkfsSb.logstart, mkfsSb.nlog, 3, false,
      ((a ++ b ++ c).map dataNo).foldl logAbsorb []⟩ ∧
      callBlocks o 2 = (c.map dataNo).foldl logAbsorb [] := by
  obtain ⟨s, o, hr, hp0, hp1, hp2, hlog, hpend⟩ := three_admitted n
  obtain ⟨s1, o1, hr1, hpc1, hlog1, hc1, hpend1⟩ := hr.one_of_three a hp0 hlog ha (by simp [hpend])
    (by rw [length_nil]; omega)
  have hlen1 := length_foldl_logAbsorb_le (a.map dataNo) []
  simp only [length_nil, length_map] at hlen1
  obtain ⟨s2, o2, hr2, hpc2, hlog2, hc2, hpend2⟩ :=
    hr1.one_of_three (p := 1) b (by rw [hpc1]; exact hp1)
    hlog1 hb (by simp [hpend1, hpend]) (by omega)
  have hlen2 := length_foldl_logAbsorb_le (b.map dataNo) ((a.map dataNo).foldl logAbsorb [])
  simp only [length_map] at hlen2
  obtain ⟨s3, o3, hr3, hpc3, hlog3, hc3, hpend3⟩ := hr2.one_of_three (p := 2) c
    (by rw [hpc2, hpc1]; exact hp2) hlog2 hc (by simp [hpend2, hpend1, hpend, or_imp, forall_and])
    (by omega)
  refine ⟨s3, o3, hr3, by rw [hpc3, hpc2, hpc1]; exact hp2, ?_, ?_⟩
  · rw [hlog3, map_append, map_append, foldl_append, foldl_append]
  · simp [callBlocks, blocksOf, hpend3, hpend2, hpend1, hpend, hc3, hc2, filter_append,
      filter_map, Function.comp_def]

/-- Three calls of at most ten blocks each: the thirtieth distinct block panics. -/
theorem log_space_overflow : ∃ (s : LogSys) (o : LogTrace),
    LogRun (fun o (a : LogAct mkfsSb) => OpBound maxOpBlocks o a) (LogSys.boot mkfsSb blankDisk) s o ∧
    OpBound maxOpBlocks o (.write 2 (dataBlock 29) (Bytes.fill bsize 0)) ∧
    s.step (.write 2 (dataBlock 29) (Bytes.fill bsize 0)) = some (.error "too big a transaction") := by
  obtain ⟨s, o, hr, hp, hlog, hcall⟩ := three_calls (n := maxOpBlocks) [0, 1, 2, 3, 4, 5, 6, 7, 8, 9]
    [10, 11, 12, 13, 14, 15, 16, 17, 18, 19] [20, 21, 22, 23, 24, 25, 26, 27, 28]
    (by decide) (by decide) (by decide) (by decide)
  refine ⟨s, o, hr, ?_, ?_⟩
  · show (logAbsorb (callBlocks o 2) _).length ≤ maxOpBlocks
    rw [hcall]
    decide
  · simp only [LogSys.step, hp, hlog]
    rfl

theorem log_space_reserved_nines : ∃ (s : LogSys) (o : LogTrace),
    LogRun (fun o (a : LogAct mkfsSb) => OpBound (maxOpBlocks - 1) o a)
    (LogSys.boot mkfsSb blankDisk) s o ∧
    s.mem.log.lh.length = 27 ∧
    s.step (.write 2 (dataBlock 26) (Bytes.fill bsize 0)) ≠ some (.error "too big a transaction") := by
  obtain ⟨s, o, hr, hp, hlog, hcall⟩ := three_calls (n := maxOpBlocks - 1) [0, 1, 2, 3, 4, 5, 6, 7, 8]
    [9, 10, 11, 12, 13, 14, 15, 16, 17] [18, 19, 20, 21, 22, 23, 24, 25, 26]
    (by decide) (by decide) (by decide) (by decide)
  refine ⟨s, o, hr, ?_, log_space_reserved rfl (headN_blankDisk _) hr 2 _ _ _⟩
  rw [hlog]
  decide

end

end Xv6
