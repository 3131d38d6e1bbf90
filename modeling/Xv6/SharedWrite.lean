import Xv6.PathLookup

/-! Calls of `filewrite` on one struct file. A call writes chunk after chunk, each in its own
transaction and under the inode lock; between two chunks of one call other calls may write
theirs. A process that makes several calls counts as several here. -/

namespace Xv6

open Function (update_self update_of_ne update_eq_self update)

open Kern List

/-- Where a call is in the loop of `filewrite`, with the locals `i` and `r`. -/
inductive WritePc where
  | loop (i : Nat)
  | begun (i : Nat)
  | locked (i : Nat)
  | wrote (i : Nat) (r : Int)
  | unlocked (i : Nat) (r : Int)
  | done (ret : Int)

/-- The arguments of a call of `filewrite`. -/
structure WriteArgs where
  src : Src
  n : Int

/-- The size of the chunk that begins at `i`. -/
def WriteArgs.chunk (a : WriteArgs) (i : Nat) : Nat := min (a.n.toNat - i) writeMax

/-- What `filewrite` returns after `i` bytes. -/
def WriteArgs.ret (a : WriteArgs) (i : Nat) : Int := if (i : Int) = a.n then a.n else -1

structure SharedFile where
  fs : Fs
  off : UInt32
  pc : Nat → WritePc

namespace SharedFile

def goto (s : SharedFile) (fs : Fs) (c : Nat) (pc : WritePc) : SharedFile :=
  { s with fs := fs, pc := update s.pc c pc }

def exec (s : SharedFile) (c : Nat) (k : Kern Fs Unit) (pc : WritePc) :
    Option (SharedFile × List Nat) :=
  match k s.fs with
  | .ok (_, fs) => some (s.goto fs c pc, [c])
  | .error _ => none

def step (ip : Nat) (args : Nat → WriteArgs) (s : SharedFile) (c : Nat) :
    Option (SharedFile × List Nat) :=
  let a := args c
  match s.pc c with
  | .loop i =>
    if (i : Int) < a.n then
      -- begin_op sleeps while the log might not have room for one more call
      if (beginOp s.fs.log).isSome then s.exec c Fs.beginOp (.begun i) else none
    else some (s.goto s.fs c (.done (a.ret i)), [c])
  | .begun i =>
    -- ilock sleeps while another process has the lock
    if (s.fs.itable ip).ref < 1 ∨ (s.fs.itable ip).lock = none then s.exec c (ilockStep c ip)
      (.locked i) else none
  | .locked i =>
    match writei ip (fun k => a.src (i + k)) s.off (.ofNat (a.chunk i)) s.fs with
    | .ok (r, fs) =>
      some ({ s.goto fs c (.wrote i r) with
        off := if r > 0 then s.off + .ofNat r.toNat else s.off }, [c])
    | .error _ => none
  | .wrote i r => s.exec c (iunlockStep c ip) (.unlocked i r)
  | .unlocked i r =>
    s.exec c Fs.endOp (if r ≠ a.chunk i then .done (a.ret i) else .loop (i + a.chunk i))
  | .done _ => none

end SharedFile

/-- The file is open, no call has begun and no other transaction is on its way. -/
structure OpenedFile (ip inode : Nat) (m : FileNode) (off : UInt32) (s : SharedFile) : Prop where
  inv : FsInv s.fs
  lt : ip < ninode
  ref : 0 < (s.fs.itable ip).ref
  num : (s.fs.itable ip).inum = inode
  lock : (s.fs.itable ip).lock = none
  node : s.fs.node inode = some m
  quiet : s.fs.outstanding = 0
  empty : s.fs.logged = []
  cap : maxOpBlocks < s.fs.logCap
  off : s.off = off
  pc : ∀ c, s.pc c = .loop 0

def writeMachine (ip inode : Nat) (m : FileNode) (off : UInt32) (args : Nat → WriteArgs) :
    Machine SharedFile Nat Nat where
  init := OpenedFile ip inode m off
  step := SharedFile.step ip args

/-- `writei` does not run out of disk space, nor does the chunk end past the largest file. -/
def SpaceLeft (ip : Nat) (args : Nat → WriteArgs) (s : SharedFile) (c : Nat) : Prop :=
  ∀ i, s.pc c = .locked i → s.off.toNat + (args c).chunk i ≤ maxfile * bsize ∧
    ∀ r fs, writei ip (fun k => (args c).src (i + k)) s.off
    (.ofNat ((args c).chunk i)) s.fs = .ok (r, fs) → r < (args c).chunk i → ¬ fs.Full

/-- The chunks of the first `k` bytes. -/
def pieces (src : Src) (k : Nat) : List (List UInt8) :=
  (List.range ((k + writeMax - 1) / writeMax)).map fun q =>
    srcBytes (fun j => src (q * writeMax + j)) (min (k - q * writeMax) writeMax)

section

variable {src : Src} {i r k off : Nat} {m : FileNode}

lemma writeMax_eq : writeMax = 3072 := by decide

lemma pieces_zero : pieces src 0 = [] := by
  rw [pieces, writeMax_eq]
  rfl

lemma pieces_add (hi : i % writeMax = 0) (hr : 0 < r) (hle : r ≤ writeMax) :
    pieces src (i + r) = pieces src i ++ [srcBytes (fun j => src (i + j)) r] := by
  obtain ⟨q, rfl⟩ := Nat.dvd_of_mod_eq_zero hi
  unfold pieces
  rw [writeMax_eq] at *
  have hq : (3072 * q + r + 3072 - 1) / 3072 = q + 1 := by omega
  have hq' : (3072 * q + 3072 - 1) / 3072 = q := by omega
  have hlast : min (3072 * q + r - q * 3072) 3072 = r := by omega
  rw [hq, hq', range_succ, map_append, map_singleton, hlast, Nat.mul_comm q]
  refine congrArg (· ++ _) (map_congr_left fun x hx => ?_)
  have hx := mem_range.mp hx
  have h1 : 3072 ≤ 3072 * q + r - x * 3072 := by omega
  have h2 : 3072 ≤ 3072 * q - x * 3072 := by omega
  rw [Nat.min_eq_right h1, Nat.min_eq_right h2]

lemma srcBytes_add (src : Src) (i r : Nat) :
    srcBytes src (i + r) = srcBytes src i ++ srcBytes (fun j => src (i + j)) r := by
  unfold srcBytes
  rw [range_add, map_append, map_map]
  rfl

lemma pieces_flatten (src : Src) (k : Nat) : (pieces src k).flatten = srcBytes src k := by
  induction k using Nat.strong_induction_on with
  | _ k ih =>
    by_cases hk : k = 0
    · rw [hk, pieces_zero]
      rfl
    · -- the last chunk begins at the last multiple of writeMax below k
      obtain ⟨i, r, rfl, hi, hr, hle⟩ : ∃ i r, k = i + r ∧ i % writeMax = 0 ∧ 0 < r ∧ r ≤ writeMax := by
        rw [writeMax_eq]
        exact ⟨(k - 1) / 3072 * 3072, k - (k - 1) / 3072 * 3072, by omega, by omega, by omega, by omega⟩
      rw [pieces_add hi hr hle, flatten_append, ih i (by omega), flatten_singleton, srcBytes_add]

lemma FileNode.write_append (xs ys : List UInt8) :
    m.write off (xs ++ ys) = (m.write off xs).write (off + xs.length) ys := by
  have hsize : max m.size (off + (xs ++ ys).length) = max (max m.size (off + xs.length))
    (off + xs.length + ys.length) := by
    rw [length_append]
    omega
  have hdata : (fun x => if off ≤ x ∧ x < off + (xs ++ ys).length then (xs ++ ys).getD (x - off) 0
    else m.data x) = fun x => if off + xs.length ≤ x ∧ x < off + xs.length + ys.length then
      ys.getD (x - (off + xs.length)) 0
        else if off ≤ x ∧ x < off + xs.length then xs.getD (x - off) 0 else m.data x := by
    funext x
    rw [length_append]
    by_cases h1 : off + xs.length ≤ x ∧ x < off + xs.length + ys.length
    · rw [if_pos h1, if_pos (by omega), getD_append_right _ _ _ _ (by omega)]
      congr 1
      omega
    · by_cases h2 : off ≤ x ∧ x < off + xs.length
      · rw [if_neg h1, if_pos h2, if_pos (by omega), getD_append _ _ _ _ (by omega)]
      · rw [if_neg h1, if_neg h2, if_neg (by omega)]
  simp only [write]
  rw [hsize, hdata]

end

section

variable {ip : Nat} {s : Fs} {src : Src} {m : FileNode} {E : Panics}

lemma writei_chunk (hi : FsInv s) (hip : Loaded ip s) (htx : 1 ≤ s.outstanding)
    (hm : s.node (s.itable ip).inum = some m) (hfile : m.type ≠ tDir) (off n : UInt32)
    (hoff : off.toNat ≤ m.size)
    (hsrc : ∀ j < n.toNat, src j ≠ none) :
    Sat (writei ip src off n) s E fun r s' => FsInv s' ∧ SameRefs s s' ∧ r ≤ n.toNat ∧
      s'.node = update s.node (s.itable ip).inum (some (m.write off.toNat (srcBytes src r.toNat))) ∧
      (0 < r → off.toNat + n.toNat ≤ maxfile * bsize) ∧
      (r < n.toNat → off.toNat + n.toNat ≤ maxfile * bsize → s'.Full) := by
  refine ((writei_sat hi hip htx off n).and (writei_node hi hip htx hm off n hsrc)).imp ?_
  rintro r s' ⟨hsat, hnode⟩
  have hmax : maxfile * bsize = 274432 := rfl
  rcases hnode with ⟨rfl, rfl, hwhy⟩ | ⟨w, rfl, hw, -, -, hfull, hnode⟩
  · refine ⟨hi, ⟨rfl, rfl, fun _ => ⟨rfl, rfl, rfl, rfl⟩⟩, by omega, ?_, by omega, fun _ hend => ?_⟩
    · rw [show (-1 : Int).toNat = 0 from rfl, srcBytes, range_zero, map_nil,
        FileNode.write_nil hoff, ← hm, update_eq_self]
    · have hsum : (off + n).toNat = off.toNat + n.toNat := by
        rw [UInt32.toNat_add]
        omega
      rcases hwhy with h1 | h1 | h1
      · omega
      · rw [UInt32.lt_iff_toNat_lt] at h1
        omega
      · omega
  · rcases hsat with ⟨hneg, -⟩ | ⟨w', hw', hwf⟩
    · omega
    · have hend := hwf.end_le
      refine ⟨hi.wroteFile hip hwf fun hd => ?_, hwf.saved.sameRefs, by omega, hnode, fun _ => hend,
        fun hlt _ => hfull (by omega)⟩
      rw [hwf.type, (hi.node_type hip hm).1] at hd
      exact absurd hd hfile

end

namespace WritePc

def Inside : WritePc → Prop
  | .locked _ | .wrote _ _ => True
  | _ => False

def InTxn : WritePc → Prop
  | .begun _ | .locked _ | .wrote _ _ | .unlocked _ _ => True
  | _ => False

def At (full : Prop) (a : WriteArgs) (k : Nat) : WritePc → Prop
  | .loop i => k = i ∧ (i = 0 ∨ (i : Int) ≤ a.n) ∧ (i % writeMax = 0 ∨ (i : Int) = a.n)
  | .begun i | .locked i => k = i ∧ (i : Int) < a.n ∧ i % writeMax = 0
  | .wrote i r | .unlocked i r =>
    k = i + r.toNat ∧ (i : Int) < a.n ∧ i % writeMax = 0 ∧ r ≤ a.chunk i ∧ (full → r = a.chunk i)
  | .done ret => ret = a.ret k ∧ (full → k = a.n.toNat)

def rank (a : WriteArgs) : WritePc → Nat
  | .loop i => 6 * (a.n.toNat - i) + 1
  | .begun i => 6 * (a.n.toNat - i)
  | .locked i => 6 * (a.n.toNat - i) - 1
  | .wrote i _ => 6 * (a.n.toNat - i) - 2
  | .unlocked i _ => 6 * (a.n.toNat - i) - 3
  | .done _ => 0

end WritePc

/-- At most one call has the inode lock, and the log counts the calls in a transaction. -/
structure CallLocks (ip : Nat) (fs : Fs) (pc : Nat → WritePc) : Prop where
  lock : ∀ c, (fs.itable ip).lock = some c ↔ (pc c).Inside
  held : ∀ c, (fs.itable ip).lock = some c → (fs.itable ip).valid = true
  txn : ∃ L : Finset Nat, L.card ≤ fs.outstanding ∧ ∀ c, c ∈ L ↔ (pc c).InTxn

/-- The file is what it was with the chunks written one after the other from `off` on, and the
chunks of a call are those of the bytes that it has stored. -/
structure Stored (full : Prop) (inode : Nat) (m : FileNode) (off : UInt32) (args : Nat → WriteArgs)
    (s : SharedFile) (chunks : List (Nat × List UInt8)) (k : Nat → Nat) : Prop where
  node : s.fs.node inode = some (m.write off.toNat (chunks.flatMap Prod.snd))
  moved : s.off.toNat = off.toNat + (chunks.flatMap Prod.snd).length
  calls : ∀ c, (chunks.filter (·.1 = c)).map Prod.snd = pieces (args c).src (k c)
  pc : ∀ c, (s.pc c).At full (args c) (k c)

/-- What holds between the steps of the calls. -/
structure WriteInv (full : Prop) (ip inode : Nat) (m : FileNode) (off : UInt32)
    (args : Nat → WriteArgs) (s : SharedFile) : Prop where
  inv : FsInv s.fs
  lt : ip < ninode
  ref : 0 < (s.fs.itable ip).ref
  num : (s.fs.itable ip).inum = inode
  locks : CallLocks ip s.fs s.pc
  stored : ∃ chunks k, Stored full inode m off args s chunks k

section

variable {ip c i : Nat} {r : Int} {fs fs' : Fs} {pc : Nat → WritePc} {pc' : WritePc}

lemma update_iff {P : WritePc → Prop} {Q : Nat → Prop} (hc : Q c ↔ P pc')
    (ho : ∀ x, x ≠ c → (Q x ↔ P (pc x))) (x : Nat) : Q x ↔ P (update pc c pc' x) := by
  by_cases hx : x = c
  · rw [hx, update_self]
    exact hc
  · rw [update_of_ne hx]
    exact ho x hx

variable (h : CallLocks ip fs pc)
include h

lemma CallLocks.keep (hl : (fs'.itable ip).lock = (fs.itable ip).lock)
    (hv : (fs'.itable ip).valid = (fs.itable ip).valid) (hin : (pc c).Inside ↔ pc'.Inside)
    (htxn : ∃ L : Finset Nat, L.card ≤ fs'.outstanding ∧ (c ∈ L ↔ pc'.InTxn) ∧ ∀ x, x ≠ c →
      (x ∈ L ↔ (pc x).InTxn)) :
    CallLocks ip fs' (update pc c pc') := by
  obtain ⟨L, hcard, hself, hother⟩ := htxn
  refine ⟨fun x => ?_, fun x hx => ?_, L, hcard, fun x => update_iff (Q := (· ∈ L)) hself hother x⟩
  · rw [hl]
    exact update_iff (Q := fun x => (fs.itable ip).lock = some x) ((h.lock c).trans hin)
      (fun x _ => h.lock x) x
  · rw [hv]
    rw [hl] at hx
    exact h.held x hx

lemma CallLocks.same (hl : (fs'.itable ip).lock = (fs.itable ip).lock)
    (hv : (fs'.itable ip).valid = (fs.itable ip).valid) (hout : fs'.outstanding = fs.outstanding)
    (hin : (pc c).Inside ↔ pc'.Inside) (htx : (pc c).InTxn ↔ pc'.InTxn) :
    CallLocks ip fs' (update pc c pc') := by
  obtain ⟨L, hcard, hL⟩ := h.txn
  exact h.keep hl hv hin ⟨L, by rw [hout]; exact hcard, (hL c).trans htx, fun x _ => hL x⟩

lemma CallLocks.begin_op (hc : ¬ (pc c).InTxn) (hin : (pc c).Inside ↔ pc'.Inside)
    (hpc : pc'.InTxn) (hl : (fs'.itable ip) = fs.itable ip)
    (hout : fs'.outstanding = fs.outstanding + 1) :
    CallLocks ip fs' (update pc c pc') := by
  obtain ⟨L, hcard, hL⟩ := h.txn
  refine h.keep (by rw [hl])
    (by rw [hl]) hin ⟨insert c L, ?_, iff_of_true (Finset.mem_insert_self c L) hpc, fun x hx => ?_⟩
  · rw [Finset.card_insert_of_notMem fun hm => hc ((hL c).mp hm), hout]
    omega
  · rw [Finset.mem_insert, or_iff_right hx]
    exact hL x

lemma CallLocks.end_op (hc : (pc c).InTxn) (hin : (pc c).Inside ↔ pc'.Inside)
    (hpc : ¬ pc'.InTxn) (hl : (fs'.itable ip) = fs.itable ip)
    (hout : fs'.outstanding = fs.outstanding - 1) :
    CallLocks ip fs' (update pc c pc') := by
  obtain ⟨L, hcard, hL⟩ := h.txn
  refine h.keep (by rw [hl])
    (by rw [hl]) hin ⟨L.erase c, ?_, iff_of_false (Finset.notMem_erase c L) hpc, fun x hx => ?_⟩
  · rw [Finset.card_erase_of_mem ((hL c).mpr hc), hout]
    omega
  · rw [Finset.mem_erase, and_iff_right hx]
    exact hL x

lemma CallLocks.acquire (hpc : pc c = .begun i) (hl : (fs.itable ip).lock = none) :
    CallLocks ip (fs.locked c ip) (update pc c (.locked i)) := by
  have hself : (fs.locked c ip).itable ip = { fs.itable ip with
      lock := some c, valid := true, din := fs.dinode (fs.itable ip).inum } := update_self _ _ _
  obtain ⟨L, hcard, hL⟩ := h.txn
  refine ⟨fun x => ?_, fun x _ => by rw [hself], L, hcard, ?_⟩
  · rw [hself]
    refine update_iff (Q := fun x => some c = some x) (iff_of_true rfl trivial) (fun x hx => ?_) x
    refine iff_of_false (fun he => hx (Option.some.inj he).symm) fun hin => ?_
    have hlock := (h.lock x).mpr hin
    rw [hl] at hlock
    cases hlock
  · refine update_iff (Q := (· ∈ L)) (iff_of_true ((hL c).mpr ?_) trivial) fun x _ => hL x
    rw [hpc]
    trivial

lemma CallLocks.release (hpc : pc c = .wrote i r) :
    CallLocks ip (fs.setLock ip none) (update pc c (.unlocked i r)) := by
  have hself : (fs.setLock ip none).itable ip = { fs.itable ip with lock := none } := update_self _ _ _
  have hmine : (fs.itable ip).lock = some c := (h.lock c).mpr (by rw [hpc]; trivial)
  obtain ⟨L, hcard, hL⟩ := h.txn
  refine ⟨fun x => ?_, fun x hx => ?_, L, hcard, ?_⟩
  · rw [hself]
    refine update_iff (Q := fun x => (none : Option Nat) = some x) (iff_of_false nofun id)
      (fun x hx => ?_) x
    refine iff_of_false nofun fun hin => ?_
    have hlock := (h.lock x).mpr hin
    rw [hmine] at hlock
    exact hx (Option.some.inj hlock).symm
  · rw [hself] at hx
    cases hx
  · refine update_iff (Q := (· ∈ L)) (iff_of_true ((hL c).mpr ?_) trivial) fun x _ => hL x
    rw [hpc]
    trivial

omit h

end

section

variable {full : Prop} {ip inode c i : Nat} {m : FileNode} {off : UInt32} {args : Nat → WriteArgs}
  {s s' : SharedFile} {hist out : List Nat} {r : Int} {fs : Fs}

variable {k : Kern Fs Unit} {chunks : List (Nat × List UInt8)}

lemma SharedFile.exec_eq_some {pc : WritePc} (h : s.exec c k pc = some (s', out)) :
    ∃ fs, k s.fs = .ok ((), fs) ∧ s' = s.goto fs c pc := by
  unfold exec at h
  split at h
  next fs hk =>
    cases h
    exact ⟨fs, hk, rfl⟩
  next => cases h

inductive WriteStep (ip : Nat) (args : Nat → WriteArgs) (s : SharedFile) (c : Nat) :
    SharedFile → Prop
  | begun {i : Nat} (hpc : s.pc c = .loop i) (hlt : (i : Int) < (args c).n)
      (hlog : (beginOp s.fs.log).isSome = true) :
      WriteStep ip args s c (s.goto { s.fs with outstanding := s.fs.outstanding + 1 } c (.begun i))
  | done {i : Nat} (hpc : s.pc c = .loop i) (hge : ¬ (i : Int) < (args c).n) :
      WriteStep ip args s c (s.goto s.fs c (.done ((args c).ret i)))
  | locked {i : Nat} {fs : Fs} (hpc : s.pc c = .begun i)
      (hfree : (s.fs.itable ip).ref < 1 ∨ (s.fs.itable ip).lock = none)
      (hk : ilockStep c ip s.fs = .ok ((), fs)) : WriteStep ip args s c (s.goto fs c (.locked i))
  | wrote {i : Nat} {r : Int} {fs : Fs} (hpc : s.pc c = .locked i)
      (hk : writei ip (fun k => (args c).src (i + k)) s.off (.ofNat ((args c).chunk i)) s.fs =
        .ok (r, fs)) :
      WriteStep ip args s c
        { s.goto fs c (.wrote i r) with off := if r > 0 then s.off + .ofNat r.toNat else s.off }
  | unlocked {i : Nat} {r : Int} {fs : Fs} (hpc : s.pc c = .wrote i r)
      (hk : iunlockStep c ip s.fs = .ok ((), fs)) :
      WriteStep ip args s c (s.goto fs c (.unlocked i r))
  | ended {i : Nat} {r : Int} (hpc : s.pc c = .unlocked i r) :
      WriteStep ip args s c (s.goto { s.fs with
        outstanding := s.fs.outstanding - 1
        logged := if s.fs.outstanding = 1 then [] else s.fs.logged } c
        (if r ≠ (args c).chunk i then .done ((args c).ret i) else .loop (i + (args c).chunk i)))

lemma WriteStep.step (h : WriteStep ip args s c s') : s.step ip args c = some (s', [c]) := by
  unfold SharedFile.step
  cases h with
  | begun hpc hlt hlog =>
    simp only [hpc]
    rw [if_pos hlt, if_pos hlog]
    rfl
  | done hpc hge =>
    simp only [hpc]
    rw [if_neg hge]
  | locked hpc hfree hk =>
    simp only [hpc]
    rw [if_pos hfree, SharedFile.exec, hk]
  | wrote hpc hk => simp only [hpc, hk]
  | unlocked hpc hk => simp only [hpc, SharedFile.exec, hk]
  | ended hpc =>
    simp only [hpc]
    rfl

lemma SharedFile.step_cases (h : s.step ip args c = some (s', out)) : WriteStep ip args s c s' := by
  unfold SharedFile.step at h
  simp only at h
  split at h
  next i hpc =>
    split at h
    next hlt =>
      split at h
      next hlog =>
        obtain ⟨fs, hk, rfl⟩ := SharedFile.exec_eq_some h
        cases hk
        exact .begun hpc hlt hlog
      next => cases h
    next hge =>
      cases h
      exact .done hpc hge
  next i hpc =>
    split at h
    next hfree =>
      obtain ⟨fs, hk, rfl⟩ := SharedFile.exec_eq_some h
      exact .locked hpc hfree hk
    next => cases h
  next i hpc =>
    split at h
    next r fs hk =>
      cases h
      exact .wrote hpc hk
    next => cases h
  next i r hpc =>
    obtain ⟨fs, hk, rfl⟩ := SharedFile.exec_eq_some h
    exact .unlocked hpc hk
  next i r hpc =>
    obtain ⟨fs, hk, rfl⟩ := SharedFile.exec_eq_some h
    cases hk
    exact .ended hpc
  next => cases h

lemma WriteInv.quiet {pc : WritePc} (h : WriteInv full ip inode m off args s) (hi : FsInv fs)
    (href : (fs.itable ip).ref = (s.fs.itable ip).ref)
    (hnum : (fs.itable ip).inum = (s.fs.itable ip).inum)
    (hnode : fs.node = s.fs.node) (hlocks : CallLocks ip fs (update s.pc c pc))
    (hat : ∀ k, (s.pc c).At full (args c) k → pc.At full (args c) k) :
    WriteInv full ip inode m off args (s.goto fs c pc) := by
  obtain ⟨chunks, k, hst⟩ := h.stored
  refine ⟨hi, h.lt, Nat.lt_of_lt_of_eq h.ref href.symm, hnum.trans h.num, hlocks, chunks, k, ?_,
    hst.moved, hst.calls, ?_⟩
  · rw [← hst.node]
    exact congrFun hnode inode
  · intro x
    by_cases hx : x = c
    · subst hx
      simp only [SharedFile.goto, update_self]
      exact hat _ (hst.pc x)
    · simp only [SharedFile.goto, update_of_ne hx]
      exact hst.pc x

lemma FsInv.log (hi : FsInv fs) (a : Nat) (b : List Nat) :
    FsInv { fs with outstanding := a, logged := b } :=
  ⟨hi.toDiskInv.congr rfl rfl, hi.inum, hi.unique, hi.coherent⟩

lemma Stored.chunk {k : Nat → Nat} (h : Stored full inode m off args s chunks k)
    (hpc : s.pc c = .locked i)
    (hnode : fs.node inode = some ((m.write off.toNat (chunks.flatMap Prod.snd)).write s.off.toNat
      (srcBytes (fun j => (args c).src (i + j)) r.toNat)))
    (hr : r ≤ (args c).chunk i) (hfull : full → r = (args c).chunk i)
    (hend : 0 < r → s.off.toNat + r.toNat < 2 ^ 32) :
    ∃ chunks k, Stored full inode m off args
      { s.goto fs c (.wrote i r) with
        off := if r > 0 then s.off + .ofNat r.toNat else s.off } chunks k := by
  have hat := h.pc c
  rw [hpc] at hat
  obtain ⟨hk, hlt, hmod⟩ := hat
  have hpcs : ∀ x, x ≠ c → update s.pc c (.wrote i r) x = s.pc x := fun x hx => update_of_ne hx _ _
  rw [h.moved, ← FileNode.write_append] at hnode
  by_cases hpos : 0 < r
  · refine ⟨chunks ++ [(c, srcBytes (fun j => (args c).src (i + j)) r.toNat)],
      update k c (i + r.toNat), ?_, ?_, fun x => ?_, fun x => ?_⟩
    · rw [flatMap_append, flatMap_singleton]
      exact hnode
    · have hadd : (s.off + .ofNat r.toNat).toNat = s.off.toNat + r.toNat := by
        have hlt := hend hpos
        rw [UInt32.toNat_add, UInt32.toNat_ofNat']
        omega
      rw [flatMap_append, flatMap_singleton, length_append, srcBytes_length]
      simp only [if_pos hpos]
      rw [hadd, h.moved]
      omega
    · by_cases hx : x = c
      · subst hx
        have hchunk : (args x).chunk i ≤ writeMax := min_le_right _ _
        rw [update_self, filter_append, map_append, h.calls x, hk,
          pieces_add hmod (by omega) (by omega)]
        simp
      · rw [update_of_ne hx, filter_append, map_append, h.calls x,
          filter_cons_of_neg (by simpa using Ne.symm hx), filter_nil, map_nil, append_nil]
    · by_cases hx : x = c
      · subst hx
        simp only [SharedFile.goto, update_self]
        exact ⟨rfl, hlt, hmod, hr, hfull⟩
      · simp only [SharedFile.goto, hpcs x hx, update_of_ne hx]
        exact h.pc x
  · have hzero : r.toNat = 0 := by omega
    rw [hzero, srcBytes, range_zero, map_nil, append_nil] at hnode
    refine ⟨chunks, k, hnode, ?_, h.calls, fun x => ?_⟩
    · simp only [if_neg hpos]
      exact h.moved
    · by_cases hx : x = c
      · subst hx
        simp only [SharedFile.goto, update_self]
        exact ⟨by omega, hlt, hmod, hr, hfull⟩
      · simp only [SharedFile.goto, hpcs x hx]
        exact h.pc x

lemma WriteInv.writei_sat {E : Panics} (h : WriteInv full ip inode m off args s)
    (hpc : s.pc c = .locked i)
    (hfile : m.type ≠ tDir) (hsrc : ∀ c j, ((j : Nat) : Int) < (args c).n → (args c).src j ≠ none) :
    Sat (writei ip (fun k => (args c).src (i + k)) s.off (.ofNat ((args c).chunk i))) s.fs E fun r fs =>
      FsInv fs ∧ SameRefs s.fs fs ∧ r ≤ (args c).chunk i ∧
      (∀ chunks k, Stored full inode m off args s chunks k →
        fs.node inode = some ((m.write off.toNat (chunks.flatMap Prod.snd)).write s.off.toNat
          (srcBytes (fun j => (args c).src (i + j)) r.toNat))) ∧
      (0 < r → s.off.toNat + (args c).chunk i ≤ maxfile * bsize) ∧
      (r < (args c).chunk i → s.off.toNat + (args c).chunk i ≤ maxfile * bsize → fs.Full) := by
  obtain ⟨chunks, k, hst⟩ := h.stored
  have hat := hst.pc c
  rw [hpc] at hat
  have hlock : (s.fs.itable ip).lock = some c := (h.locks.lock c).mpr (by rw [hpc]; trivial)
  have hload : Loaded ip s.fs := ⟨h.lt, h.ref, h.locks.held c hlock⟩
  obtain ⟨L, hcard, hL⟩ := h.locks.txn
  have hmem : c ∈ L := (hL c).mpr (by rw [hpc]; trivial)
  have htx : 1 ≤ s.fs.outstanding := Nat.le_trans (Finset.card_pos.mpr ⟨c, hmem⟩) hcard
  have hn : (UInt32.ofNat ((args c).chunk i)).toNat = (args c).chunk i := by
    have hchunk : (args c).chunk i ≤ writeMax := min_le_right _ _
    rw [writeMax_eq] at hchunk
    rw [UInt32.toNat_ofNat']
    omega
  have hsize : s.off.toNat ≤ (m.write off.toNat (chunks.flatMap Prod.snd)).size := by
    rw [hst.moved]
    exact le_max_right _ _
  have hm := hst.node
  rw [← h.num] at hm
  refine (writei_chunk h.inv hload htx hm hfile s.off (.ofNat ((args c).chunk i)) hsize
    fun j hj => ?_).imp ?_
  · rw [hn] at hj
    have hle : (args c).chunk i ≤ (args c).n.toNat - i := min_le_left _ _
    exact hsrc c (i + j) (by omega)
  · rintro r fs ⟨hi, hrefs, hr, hnode, hend, hfull⟩
    rw [hn] at hr hend hfull
    refine ⟨hi, hrefs, hr, fun chunks' k' hst' => ?_, hend, hfull⟩
    have heq := hst'.node.symm.trans hst.node
    rw [hnode, h.num, update_self, Option.some.inj heq]

lemma WriteInv.step (h : WriteInv full ip inode m off args s) (hfile : m.type ≠ tDir)
    (hsrc : ∀ c j, ((j : Nat) : Int) < (args c).n → (args c).src j ≠ none)
    (hok : full → SpaceLeft ip args s c) (hs : WriteStep ip args s c s') :
    WriteInv full ip inode m off args s' := by
  cases hs with
  | begun hpc hlt =>
    refine h.quiet (h.inv.log _ _) rfl rfl (Fs.node_congr rfl rfl)
      (h.locks.begin_op (by rw [hpc]; exact id)
      (by rw [hpc]; exact Iff.rfl) trivial rfl rfl) fun k hat => ?_
    rw [hpc] at hat
    exact ⟨hat.1, hlt, hat.2.2.resolve_right (by omega)⟩
  | done hpc hge =>
    refine h.quiet h.inv rfl rfl rfl (h.locks.same rfl rfl rfl (by rw [hpc]; exact Iff.rfl)
      (by rw [hpc]; exact Iff.rfl)) fun k hat => ?_
    rw [hpc] at hat
    obtain ⟨rfl, hle, -⟩ := hat
    exact ⟨rfl, fun _ => by omega⟩
  | locked hpc hfree hk =>
    have href := h.ref
    have hlock := hfree.resolve_left (by omega)
    obtain ⟨rfl, htype⟩ :=
      (ilockStep_sat h.inv h.lt h.ref (.inl trivial) (E := fun _ => True)).of_ok hk
    refine h.quiet (h.inv.locked h.lt htype) ?_ ?_ (Fs.node_congr rfl rfl)
      (h.locks.acquire hpc hlock) fun k hat => ?_
    · rw [Fs.locked, Fs.setInode_self]
    · rw [Fs.locked, Fs.setInode_self]
    · rw [hpc] at hat
      exact hat
  | @wrote i r fs hpc hk =>
    obtain ⟨hi, hrefs, hr, hnode, hend, hfull⟩ := (h.writei_sat hpc hfile hsrc (E := .any)).of_ok hk
    obtain ⟨chunks, k, hst⟩ := h.stored
    have hslot := hrefs.slot ip
    have hmax : maxfile * bsize = 274432 := rfl
    refine ⟨hi, h.lt, Nat.lt_of_lt_of_eq h.ref hslot.1.symm, hslot.2.1.trans h.num,
      h.locks.same hslot.2.2.2 hslot.2.2.1 hrefs.outstanding (by rw [hpc]; exact Iff.rfl)
        (by rw [hpc]; exact Iff.rfl),
      hst.chunk hpc (hnode chunks k hst) hr (fun hf => ?_) fun hpos => ?_⟩
    · obtain ⟨hspace, hdisk⟩ := hok hf i hpc
      by_contra hne
      exact hdisk r fs hk (by omega) (hfull (by omega) hspace)
    · have hle := hend hpos
      omega
  | unlocked hpc hk =>
    obtain rfl := (iunlockStep_sat (.inl trivial) (E := fun _ => True)).of_ok hk
    refine h.quiet (h.inv.setLock h.lt none) ?_ ?_ (Fs.node_congr rfl rfl) (h.locks.release hpc)
      fun k hat => ?_
    · rw [Fs.setLock, Fs.setInode_self]
    · rw [Fs.setLock, Fs.setInode_self]
    · rw [hpc] at hat
      exact hat
  | @ended i r hpc =>
    refine h.quiet (h.inv.log _ _) rfl rfl (Fs.node_congr rfl rfl)
      (h.locks.end_op (by rw [hpc]; trivial) ?_ ?_ rfl rfl) fun k hat => ?_
    · rw [hpc]
      split <;> exact Iff.rfl
    · split <;> exact id
    · rw [hpc] at hat
      obtain ⟨hk, hlt, hmod, hr, hfull⟩ := hat
      have hle : (args c).chunk i ≤ (args c).n.toNat - i := min_le_left _ _
      split
      next hne =>
        refine ⟨?_, fun hf => absurd (hfull hf) hne⟩
        rw [WriteArgs.ret, WriteArgs.ret, if_neg (by omega), if_neg (by omega)]
      next heq =>
        have heq : r = (args c).chunk i := not_not.mp heq
        refine ⟨by omega, .inr (by omega), ?_⟩
        unfold WriteArgs.chunk at *
        rw [writeMax_eq] at *
        omega

def WritePc.Log (fs : Fs) : WritePc → Prop
  | .loop _ | .done _ => fs.outstanding = 0 ∧ fs.logged = []
  | .begun _ | .locked _ => fs.outstanding = 1 ∧ fs.logged = []
  | .wrote _ _ | .unlocked _ _ => fs.outstanding = 1

/-- The log has room for a call that runs alone. -/
structure LoneLog (s : SharedFile) : Prop where
  cap : maxOpBlocks < s.fs.logCap
  lone : ∀ c, (∀ x, x ≠ c → s.pc x = .loop 0) → (s.pc c).Log s.fs

lemma LoneLog.goto {pc : WritePc} (h : LoneLog s) (hsb : fs.sb = s.fs.sb) (hpc : pc ≠ .loop 0)
    (hlog : (s.pc c).Log s.fs → pc.Log fs) : LoneLog (s.goto fs c pc) := by
  refine ⟨?_, fun x hx => ?_⟩
  · have hcap := h.cap
    rwa [Fs.logCap, ← hsb] at hcap
  · by_cases hxc : x = c
    · subst hxc
      rw [SharedFile.goto] at hx ⊢
      dsimp only at hx ⊢
      rw [update_self]
      refine hlog (h.lone x fun y hy => ?_)
      have hy' := hx y hy
      rwa [update_of_ne hy] at hy'
    · have hc := hx c (Ne.symm hxc)
      rw [SharedFile.goto] at hc
      dsimp only at hc
      rw [update_self] at hc
      exact absurd hc hpc

lemma LoneLog.step (h : LoneLog s) (hw : WriteInv full ip inode m off args s)
    (hfile : m.type ≠ tDir) (hsrc : ∀ c j, ((j : Nat) : Int) < (args c).n → (args c).src j ≠ none)
    (hs : WriteStep ip args s c s') : LoneLog s' := by
  cases hs with
  | begun hpc hlt =>
    refine h.goto rfl nofun fun hl => ?_
    rw [hpc] at hl
    exact ⟨by rw [hl.1], hl.2⟩
  | done hpc hge =>
    refine h.goto rfl nofun fun hl => ?_
    rwa [hpc] at hl
  | locked hpc hfree hk =>
    obtain ⟨rfl, -⟩ :=
      (ilockStep_sat hw.inv hw.lt hw.ref (.inl trivial) (E := fun _ => True)).of_ok hk
    refine h.goto rfl nofun fun hl => ?_
    rwa [hpc] at hl
  | @wrote i r fs hpc hk =>
    obtain ⟨-, hrefs, -⟩ := (hw.writei_sat hpc hfile hsrc (E := .any)).of_ok hk
    have hlog : (s.pc c).Log s.fs → (WritePc.wrote i r).Log fs := by
      intro hl
      rw [hpc] at hl
      exact hrefs.outstanding.trans hl.1
    have hgo : LoneLog (s.goto fs c (.wrote i r)) := h.goto hrefs.sb nofun hlog
    exact ⟨hgo.cap, hgo.lone⟩
  | unlocked hpc hk =>
    obtain rfl := (iunlockStep_sat (.inl trivial) (E := fun _ => True)).of_ok hk
    refine h.goto rfl nofun fun hl => ?_
    rwa [hpc] at hl
  | @ended i r hpc =>
    obtain ⟨chunks, k, hst⟩ := hw.stored
    have hat := hst.pc c
    rw [hpc] at hat
    obtain ⟨-, hlt, -⟩ := hat
    have hpos : 0 < (args c).chunk i := by
      rw [WriteArgs.chunk, writeMax_eq]
      omega
    have hend : s.fs.outstanding = 1 → s.fs.outstanding - 1 = 0 ∧
        (if s.fs.outstanding = 1 then [] else s.fs.logged) = [] := fun hl => ⟨by rw [hl], if_pos hl⟩
    by_cases hr : r ≠ (args c).chunk i
    · rw [if_pos hr]
      refine h.goto rfl nofun fun hl => hend ?_
      rwa [hpc] at hl
    · rw [if_neg hr]
      refine h.goto rfl (fun heq => ?_) fun hl => hend ?_
      · have := WritePc.loop.inj heq
        omega
      · rwa [hpc] at hl

lemma writeBlocks_chunk (sb : Superblock) (off i : Nat) (a : WriteArgs) :
    writeBlocks sb off (UInt32.ofNat (a.chunk i)).toNat ≤ maxOpBlocks := by
  have hn : (UInt32.ofNat (a.chunk i)).toNat ≤ 3072 := by
    have hchunk : a.chunk i ≤ writeMax := min_le_right _ _
    rw [writeMax_eq] at hchunk
    rw [UInt32.toNat_ofNat']
    omega
  have hspan : spanBlocks off (UInt32.ofNat (a.chunk i)).toNat ≤ 4 := by
    have hb : bsize = 1024 := rfl
    rw [spanBlocks, hb]
    split <;> omega
  have hmax : maxOpBlocks = 10 := rfl
  unfold writeBlocks
  omega

/-- A call that is alone comes to its next point. -/
lemma WriteInv.progress (h : WriteInv full ip inode m off args s) (hlone : LoneLog s)
    (hfile : m.type ≠ tDir) (hsrc : ∀ c j, ((j : Nat) : Int) < (args c).n → (args c).src j ≠ none)
    (hc : ∀ ret, s.pc c ≠ .done ret) (ho : ∀ x, x ≠ c → s.pc x = .loop 0) :
    ∃ s', s.step ip args c = some (s', [c]) ∧ (s'.pc c).rank (args c) < (s.pc c).rank (args c) := by
  obtain ⟨chunks, k, hst⟩ := h.stored
  have hat := hst.pc c
  have hlog := hlone.lone c ho
  have hgoto : ∀ fs pc, (s.goto fs c pc).pc c = pc := fun fs pc => update_self _ _ _
  suffices hstep : ∃ s', WriteStep ip args s c s' ∧
      (s'.pc c).rank (args c) < (s.pc c).rank (args c) by
    obtain ⟨s', hs, hrank⟩ := hstep
    exact ⟨s', hs.step, hrank⟩
  cases hpc : s.pc c with
  | loop i =>
    rw [hpc] at hlog
    by_cases hlt : (i : Int) < (args c).n
    · have hroom : (beginOp s.fs.log).isSome = true := by
        rw [beginOp, Fs.log, hlog.1, hlog.2]
        rfl
      refine ⟨_, .begun hpc hlt hroom, ?_⟩
      rw [hgoto]
      exact Nat.lt_succ_self _
    · refine ⟨_, .done hpc hlt, ?_⟩
      rw [hgoto]
      exact Nat.succ_pos _
  | begun i =>
    rw [hpc] at hat
    obtain ⟨-, hlt, -⟩ := hat
    have hfree : (s.fs.itable ip).lock = none := by
      rw [Option.eq_none_iff_forall_ne_some]
      intro x hx
      have hin := (h.locks.lock x).mp hx
      by_cases hxc : x = c
      · rw [hxc, hpc] at hin
        exact hin
      · rw [ho x hxc] at hin
        exact hin
    have htype : (s.fs.dinode (s.fs.itable ip).inum).type ≠ 0 := by
      intro h0
      have hnode := hst.node
      rw [← h.num, Fs.node_of_lt (h.inv.inum ip h.lt h.ref), nodeOf_eq_none.mpr h0] at hnode
      cases hnode
    obtain ⟨_, fs, hk, -⟩ := (ilockStep_sat (p := c) h.inv h.lt h.ref (.inr htype)).returns
    refine ⟨_, .locked hpc (.inr hfree) hk, ?_⟩
    rw [hgoto]
    simp only [WritePc.rank]
    omega
  | locked i =>
    rw [hpc] at hat hlog
    obtain ⟨-, hlt, -⟩ := hat
    -- the log is empty, and has room for the blocks of a chunk
    have hroom : s.fs.logged.length +
        writeBlocks s.fs.sb s.off.toNat (UInt32.ofNat ((args c).chunk i)).toNat < s.fs.logCap := by
      have hle := writeBlocks_chunk s.fs.sb s.off.toNat i (args c)
      have hcap := hlone.cap
      rw [hlog.2, length_nil]
      omega
    have hsat := sat_of_cost (h.writei_sat hpc hfile hsrc) fun hroom =>
      (writei_cost (e := 0) h.inv.layout.bitmapFits (Nat.le_of_eq hlog.1.symm) _ _ hroom).imp
        fun _ _ _ => trivial
    have hno : Sat _ s.fs (fun _ => False) _ := hsat.mono (fun _ he => by
      have hfull := he.2
      omega) fun _ _ hq => hq
    obtain ⟨r, fs, hk, -⟩ := hno.returns
    refine ⟨_, .wrote hpc hk, ?_⟩
    simp only [hgoto, WritePc.rank]
    omega
  | wrote i r =>
    rw [hpc] at hat
    obtain ⟨-, hlt, -⟩ := hat
    have hlock := (h.locks.lock c).mpr (by rw [hpc]; trivial)
    obtain ⟨_, fs, hk, -⟩ := (iunlockStep_sat (p := c) (.inr ⟨hlock, h.ref⟩)).returns
    refine ⟨_, .unlocked hpc hk, ?_⟩
    rw [hgoto]
    simp only [WritePc.rank]
    omega
  | unlocked i r =>
    rw [hpc] at hat
    obtain ⟨-, hlt, -⟩ := hat
    refine ⟨_, .ended hpc, ?_⟩
    rw [hgoto]
    have hpos : 0 < (args c).chunk i := by
      rw [WriteArgs.chunk, writeMax_eq]
      omega
    split
    · simp only [WritePc.rank]
      omega
    · simp only [WritePc.rank]
      omega
  | done ret => exact absurd hpc (hc ret)

lemma OpenedFile.writeInv (h0 : OpenedFile ip inode m off s) (hoff : off.toNat ≤ m.size) :
    WriteInv full ip inode m off args s := by
  refine ⟨h0.inv, h0.lt, h0.ref, h0.num,
    ⟨fun c => ?_, fun c hc => ?_, ∅, Nat.zero_le _, fun c => ?_⟩,
    [], fun _ => 0, ?_, ?_, fun c => ?_, fun c => ?_⟩
  · rw [h0.lock, h0.pc]
    exact iff_of_false nofun id
  · rw [h0.lock] at hc
    cases hc
  · rw [h0.pc]
    exact iff_of_false (Finset.notMem_empty c) id
  · rw [flatMap_nil, FileNode.write_nil hoff]
    exact h0.node
  · rw [h0.off]
    rfl
  · exact pieces_zero.symm
  · rw [h0.pc]
    exact ⟨rfl, .inl rfl, .inl (Nat.zero_mod _)⟩

lemma writeMachine_inv (hoff : off.toNat ≤ m.size) (hfile : m.type ≠ tDir)
    (hsrc : ∀ c j, ((j : Nat) : Int) < (args c).n → (args c).src j ≠ none)
    (h : (writeMachine ip inode m off args).Reach (fun s c => full → SpaceLeft ip args s c) s hist) :
    WriteInv full ip inode m off args s ∧ LoneLog s := by
  refine h.invariant (I := fun s _ => WriteInv full ip inode m off args s ∧ LoneLog s)
    (fun s h0 => ?_) fun _ hI hok hs => ?_
  · refine ⟨OpenedFile.writeInv h0 hoff, h0.cap, fun c _ => ?_⟩
    rw [h0.pc c]
    exact ⟨h0.quiet, h0.empty⟩
  · have hs := SharedFile.step_cases hs
    exact ⟨hI.1.step hfile hsrc hok hs, hI.2.step hI.1 hfile hsrc hs⟩

lemma writeMachine_idle {ok : SharedFile → Nat → Prop}
    (h : (writeMachine ip inode m off args).Reach ok s hist) : c ∉ hist → s.pc c = .loop 0 := by
  refine h.invariant (I := fun s hist => c ∉ hist → s.pc c = .loop 0) (fun _ h0 _ => h0.pc c) ?_
  intro s s' hist out a _ ih _ hs hc
  have hstep := SharedFile.step_cases hs
  rw [mem_append, not_or] at hc
  have hca : c ≠ a := by
    rintro rfl
    have hout := Option.some.inj (hs.symm.trans hstep.step)
    cases hout
    exact hc.2 mem_cons_self
  rw [← ih hc.1]
  cases hstep <;> exact update_of_ne hca _ _

lemma chunks_length {C : Finset Nat} (hC : ∀ x ∈ chunks, x.1 ∈ C) :
    (chunks.flatMap Prod.snd).length = ∑ c ∈ C,
    ((chunks.filter (·.1 = c)).map Prod.snd).flatten.length := by
  induction chunks with
  | nil => simp
  | cons x l ih =>
    have hsum : ∀ c, (((x :: l).filter (·.1 = c)).map Prod.snd).flatten.length =
        (if x.1 = c then x.2.length else 0) + ((l.filter (·.1 = c)).map Prod.snd).flatten.length := by
      intro c
      by_cases hx : x.1 = c
      · rw [filter_cons_of_pos (by simpa using hx), if_pos hx, map_cons, flatten_cons, length_append]
      · rw [filter_cons_of_neg (by simpa using hx), if_neg hx, Nat.zero_add]
    rw [flatMap_cons, length_append, ih fun y hy => hC y (mem_cons_of_mem _ hy),
      Finset.sum_congr rfl fun c _ => hsum c,
      Finset.sum_add_distrib, Finset.sum_ite_eq, if_pos (hC x mem_cons_self)]

/-- What the calls leave in the file, where they leave the offset, and what they return. -/
theorem filewrite_shared (hoff : off.toNat ≤ m.size) (hfile : m.type ≠ tDir)
    (hsrc : ∀ c j, ((j : Nat) : Int) < (args c).n → (args c).src j ≠ none)
    (h : (writeMachine ip inode m off args).Reach (fun s c => full → SpaceLeft ip args s c) s hist) :
    ∃ (chunks : List (Nat × List UInt8)) (k : Nat → Nat),
      s.fs.node inode = some (m.write off.toNat (chunks.flatMap Prod.snd)) ∧
      s.off.toNat = off.toNat + (chunks.flatMap Prod.snd).length ∧
      (∀ c, (chunks.filter (·.1 = c)).map Prod.snd = pieces (args c).src (k c)) ∧
      (∀ c ret, s.pc c = .done ret → ret = (if (k c : Int) = (args c).n then (args c).n else -1) ∧
        (full → k c = (args c).n.toNat)) ∧
      (∀ C : Finset Nat, (∀ c, c ∉ C → s.pc c = .loop 0) → s.off.toNat = off.toNat + ∑ c ∈ C, k c ∧
        (full → (∀ c ∈ C, ∃ ret, s.pc c = .done ret) → s.off.toNat = off.toNat + ∑ c ∈ C,
          (args c).n.toNat)) ∧
      ∀ c, (∀ x, x ≠ c → s.pc x = .loop 0) →
        s.fs.node inode = some (m.write off.toNat (srcBytes (args c).src (k c))) ∧
        ((∀ ret, s.pc c ≠ .done ret) →
          ∃ s', s.step ip args c = some (s', [c]) ∧
          (s'.pc c).rank (args c) < (s.pc c).rank (args c)) := by
  obtain ⟨hinv, hlone⟩ := writeMachine_inv hoff hfile hsrc h
  obtain ⟨chunks, k, hst⟩ := hinv.stored
  have hdone : ∀ c ret, s.pc c = .done ret → ret = (args c).ret (k c) ∧
    (full → k c = (args c).n.toNat) := by
    intro c ret hpc
    have hat := hst.pc c
    rw [hpc] at hat
    exact hat
  -- calls that have not begun have no chunks
  have hids : ∀ C : Finset Nat, (∀ c, c ∉ C → s.pc c = .loop 0) → ∀ x ∈ chunks, x.1 ∈ C := by
    intro C hC x hx
    by_contra hn
    have hat := hst.pc x.1
    rw [hC x.1 hn] at hat
    have hcalls := hst.calls x.1
    rw [hat.1, pieces_zero, map_eq_nil_iff, filter_eq_nil_iff] at hcalls
    exact hcalls x hx (by simp)
  have hsum :
    ∀ C : Finset Nat, (∀ c, c ∉ C → s.pc c = .loop 0) → s.off.toNat = off.toNat + ∑ c ∈ C, k c := by
    intro C hC
    rw [hst.moved, chunks_length (hids C hC)]
    congr 1
    refine Finset.sum_congr rfl fun c _ => ?_
    rw [hst.calls c, pieces_flatten, srcBytes_length]
  refine ⟨chunks, k, hst.node, hst.moved, hst.calls, hdone, fun C hC =>
    ⟨hsum C hC, fun hf hret => ?_⟩, fun c ho => ⟨?_, fun hc => ?_⟩⟩
  · rw [hsum C hC]
    congr 1
    refine Finset.sum_congr rfl fun c hc => ?_
    obtain ⟨ret, hpc⟩ := hret c hc
    exact (hdone c ret hpc).2 hf
  · have hall : chunks.filter (·.1 = c) = chunks := by
      rw [filter_eq_self]
      intro x hx
      have hx := hids {c}
        (fun x hx => ho x fun he => hx (by rw [he]; exact Finset.mem_singleton_self c)) x hx
      simpa using hx
    have hcalls := congrArg List.flatten (hst.calls c)
    rw [hall, pieces_flatten] at hcalls
    rw [hst.node, flatMap_def, hcalls]
  · exact hinv.progress hlone hfile hsrc hc ho

end

def opensFile (t : Sys) (test : FileNode → Bool) : Bool :=
  decide ((t.file 0).ip < ninode) && decide ((t.fs.itable (t.file 0).ip).ref ≠ 0) &&
  decide ((t.fs.itable (t.file 0).ip).lock = none) && decide (t.fs.logged = []) &&
  decide (maxOpBlocks < t.fs.logCap) &&
  match t.fs.node (t.fs.itable (t.file 0).ip).inum with
  | some m => decide (m.type ≠ tDir) && test m
  | none => false

lemma openedFile_of_test {cs : List (Nat × Call)} {t : Sys} {test : FileNode → Bool}
    (ht : callsFromBoot cs = some t) (h : opensFile t test = true) :
    ∃ m, OpenedFile (t.file 0).ip (t.fs.itable (t.file 0).ip).inum m (t.file 0).off
      ⟨t.fs, (t.file 0).off, fun _ => .loop 0⟩ ∧ m.type ≠ tDir ∧ test m = true := by
  obtain ⟨hist, hr⟩ := reach_of_calls ht
  simp only [opensFile, Bool.and_eq_true, decide_eq_true_eq] at h
  obtain ⟨⟨⟨⟨⟨hip, href⟩, hlock⟩, hlog⟩, hcap⟩, hnode⟩ := h
  have hrun := (sysMachine_inv rootImage_image hr).run
  split at hnode
  next m hm =>
    simp only [Bool.and_eq_true, decide_eq_true_eq] at hnode
    exact ⟨m, ⟨hrun.inv, hip, Nat.pos_of_ne_zero href, rfl, hlock, hm, hrun.txn, hlog, hcap, rfl,
      fun _ => rfl⟩, hnode⟩
  next => cases hnode

def writeSeven : Nat → WriteArgs := fun _ => ⟨fun _ => some 7, 1⟩

theorem filewrite_shared_two : ∃ (ip inode : Nat) (m : FileNode) (s : SharedFile) (hist : List Nat),
    (writeMachine ip inode m 0 writeSeven).Reach (fun s c => False →
      SpaceLeft ip writeSeven s c) s hist ∧
    hist = [0, 1, 0, 0, 0, 1, 1, 1, 0, 1, 0, 1] ∧ (∃ ret, s.pc 0 = .done ret) ∧
    (∃ ret, s.pc 1 = .done ret) ∧
    ∃ (chunks : List (Nat × List UInt8)) (k : Nat → Nat),
      s.fs.node inode = some (m.write 0 (chunks.flatMap Prod.snd)) ∧
      ∀ c, (chunks.filter (·.1 = c)).map Prod.snd = pieces (fun _ => some 7) (k c) := by
  have htest : (callsFromBoot [(0, .open (some [102]) (oCreate ||| oRdwr))]).any (fun t =>
      decide ((t.file 0).off = 0) && opensFile t fun m =>
        match (writeMachine (t.file 0).ip (t.fs.itable (t.file 0).ip).inum m 0 writeSeven).run
            ⟨t.fs, 0, fun _ => .loop 0⟩ [0, 1, 0, 0, 0, 1, 1, 1, 0, 1, 0, 1] with
        | some (s, hist) => decide (hist = [0, 1, 0, 0, 0, 1, 1, 1, 0, 1, 0, 1]) &&
          match s.pc 0, s.pc 1 with
          | .done _, .done _ => true
          | _, _ => false
        | none => false) = true := by
    decide +kernel
  obtain ⟨t, ht, htest⟩ := (Option.any_eq_true _ _).mp htest
  simp only [Bool.and_eq_true, decide_eq_true_eq] at htest
  obtain ⟨hoff, htest⟩ := htest
  obtain ⟨m, h0, hfile, htest⟩ := openedFile_of_test ht htest
  rw [hoff] at h0
  split at htest
  next s hist hrun =>
    simp only [Bool.and_eq_true, decide_eq_true_eq] at htest
    obtain ⟨hhist, hpc⟩ := htest
    split at hpc
    next ret ret' hpc0 hpc1 =>
      have hr : (writeMachine (t.file 0).ip (t.fs.itable (t.file 0).ip).inum m 0 writeSeven).Reach
          (fun s c => False → SpaceLeft (t.file 0).ip writeSeven s c) s ([] ++ hist) :=
        (Machine.Reach.init h0).run _ (fun _ _ hf => False.elim hf) hrun
      obtain ⟨chunks, k, hnode, -, hcalls, -⟩ := filewrite_shared (Nat.zero_le _) hfile
        (fun _ _ _ => Option.some_ne_none _) hr
      exact ⟨_, _, m, s, _, hr, hhist, ⟨ret, hpc0⟩, ⟨ret', hpc1⟩, chunks, k, hnode, hcalls⟩
    next => cases hpc
  next => cases htest

def spaceTest (ip : Nat) (args : Nat → WriteArgs) (s : SharedFile) (c : Nat) : Bool :=
  match s.pc c with
  | .locked i => decide (s.off.toNat + (args c).chunk i ≤ maxfile * bsize) &&
    match writei ip (fun k => (args c).src (i + k)) s.off (.ofNat ((args c).chunk i)) s.fs with
    | .ok (_, fs) => decide (900 < fs.sb.size) && decide (fs.bit 900 = false)
    | .error _ => true
  | _ => true

lemma spaceLeft_of_test {ip c : Nat} {args : Nat → WriteArgs} {s : SharedFile}
    (h : spaceTest ip args s c = true) : SpaceLeft ip args s c := by
  intro i hpc
  simp only [spaceTest, hpc, Bool.and_eq_true, decide_eq_true_eq] at h
  refine ⟨h.1, fun r fs hk _ hfull => ?_⟩
  have hbit := h.2
  rw [hk] at hbit
  simp only [Bool.and_eq_true, decide_eq_true_eq] at hbit
  rw [hfull 900 hbit.1] at hbit
  cases hbit.2

/-- A file with one byte is cut to length 0 through another descriptor. The offset of the first
one stays at 1, and its next write fails although there is space. -/
theorem filewrite_truncated : ∃ (ip inode : Nat) (m : FileNode) (off : UInt32) (s : SharedFile)
    (hist : List Nat),
    m.type ≠ tDir ∧ (∀ c j, ((j : Nat) : Int) < (writeSeven c).n → (writeSeven c).src j ≠ none) ∧
    (writeMachine ip inode m off writeSeven).Reach (SpaceLeft ip writeSeven) s hist ∧
    s.pc 0 = .done (-1) ∧ (∀ c, c ≠ 0 → s.pc c = .loop 0) ∧
    s.off.toNat ≠ off.toNat + (writeSeven 0).n.toNat := by
  have htest : (callsFromBoot [(0, .open (some [102]) (oCreate ||| oRdwr)),
      (0, .write 0 (fun _ => some 7) 1 0), (0, .open (some [102]) (oTrunc ||| oRdwr))]).any (fun t =>
      decide ((t.file 0).off = 1) && opensFile t fun m =>
        match ((writeMachine (t.file 0).ip (t.fs.itable (t.file 0).ip).inum m 1 writeSeven).guard
            (spaceTest (t.file 0).ip writeSeven)).run
            ⟨t.fs, 1, fun _ => .loop 0⟩ [0, 0, 0, 0, 0] with
        | some (s, hist) => decide (hist = [0, 0, 0, 0, 0]) && decide (s.off = 1) &&
          match s.pc 0 with
          | .done r => decide (r = -1)
          | _ => false
        | none => false) = true := by
    decide +kernel
  obtain ⟨t, ht, htest⟩ := (Option.any_eq_true _ _).mp htest
  simp only [Bool.and_eq_true, decide_eq_true_eq] at htest
  obtain ⟨hoff, htest⟩ := htest
  obtain ⟨m, h0, hfile, htest⟩ := openedFile_of_test ht htest
  rw [hoff] at h0
  split at htest
  next s hist hrun =>
    simp only [Bool.and_eq_true, decide_eq_true_eq] at htest
    obtain ⟨⟨rfl, hsoff⟩, hpc⟩ := htest
    split at hpc
    next r hr =>
      rw [of_decide_eq_true hpc] at hr
      have hguard : ((writeMachine (t.file 0).ip (t.fs.itable (t.file 0).ip).inum m 1
          writeSeven).guard (spaceTest (t.file 0).ip writeSeven)).Reach (fun _ _ => True) s _ :=
        (Machine.Reach.init h0).run _ (fun _ _ => trivial) hrun
      have hreach := hguard.of_guard spaceLeft_of_test
      refine ⟨_, _, m, 1, s, _, hfile, fun _ _ _ => Option.some_ne_none _, hreach, hr,
        fun c hc => writeMachine_idle hreach (by simpa using hc), ?_⟩
      rw [hsoff]
      decide
    next => cases hpc
  next => cases htest

end Xv6
