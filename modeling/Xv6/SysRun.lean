import Xv6.ProcCalls
import Xv6.RootImage
import Xv6.Lib.Machine

/-! Sequences of system calls by any processes, from the first process on. -/

namespace Xv6

open Kern List

/-- Arguments as the calls fetch them, and what memory and devices answer. -/
inductive Call where
  | open (path : Option (List UInt8)) (omode : UInt32)
  | mkdir (path : Option (List UInt8))
  | mknod (path : Option (List UInt8)) (major minor : Nat)
  | link (old new : Option (List UInt8))
  | unlink (path : Option (List UInt8))
  | chdir (path : Option (List UInt8))
  | dup (fd : Int)
  | close (fd : Int)
  | pipe (page out0 out1 : Bool)
  | read (fd : Int) (dst : Dst) (n : UInt32) (ext : Int)
  | write (fd : Int) (src : Src) (n ext : Int)
  | fork (mem : Bool)
  | exit
  | wait (q : Nat)

def Call.prog (p : Nat) : Call → SysProg Int
  | .open path omode => sysOpen p path omode
  | .mkdir path => sysMkdir p path
  | .mknod path major minor => sysMknod p path major minor
  | .link (some old) (some new) => do
    let cwd ← sysStep (cwdOf p)
    onFs (sysLink p cwd old new)
  | .link _ _ => pure (-1)
  | .unlink (some path) => do
    let cwd ← sysStep (cwdOf p)
    onFs (sysUnlink p cwd path)
  | .unlink none => pure (-1)
  | .chdir path => sysChdir p path
  | .dup fd => sysDup p fd
  | .close fd => sysClose p fd
  | .pipe page out0 out1 => sysPipe p page out0 out1
  | .read fd dst n ext => sysRead p fd dst n ext
  | .write fd src n ext => sysWrite p fd src n ext
  | .fork mem => Xv6.fork p mem
  | .exit => Xv6.exit p
  | .wait q => if q < nproc then reap q else pure (-1)

def bootSys (sb : Superblock) (disk : Disk) : Sys where
  fs := mount sb disk
  file := fun _ => ⟨.none, 0, false, false, 0, 0, 0, 0⟩
  npipe := 0
  pipes := fun _ => ⟨fun _ => 0, 0, 0, false, false⟩
  freed := fun _ => 0
  proc := fun _ => ⟨.unused, 0, fun _ => none, none⟩
  nextpid := 1

/-- The process can make a system call. -/
def Sys.CanCall (s : Sys) (p : Nat) : Prop := p < nproc ∧ (s.proc p).state = .runnable

instance (s : Sys) (p : Nat) : Decidable (s.CanCall p) := inferInstanceAs (Decidable (_ ∧ _))

def sysMachine (sb : Superblock) (disk : Disk) : Machine Sys (Nat × Call) Unit where
  init := fun s => userinit.run (bootSys sb disk) = some (.ok ((), s))
  step := fun s a =>
    if s.CanCall a.1 then
      match (a.2.prog a.1).run s with
      | some (.ok (_, s')) => some (s', [])
      | _ => none
    else none

/-- The inodes that path lookup can come to. -/
inductive Reached (N : Nat → Option FileNode) : Nat → Prop
  | root : Reached N rootino
  | entry {d k : Nat} {m : FileNode} (h : Reached N d) (hm : N d = some m) (ht : m.type = tDir)
      (hk : 16 * k + 16 ≤ m.size) (hi : (m.entry k).inum ≠ 0) : Reached N (m.entry k).inum

/-- A well-formed image with a root directory, in which what can be looked up has links. -/
structure Image (sb : Superblock) (disk : Disk) : Prop extends WellFormed sb disk where
  root : (mount sb disk).node rootino ≠ none
  linked : ∀ i m, Reached (mount sb disk).node i → (mount sb disk).node i = some m → m.nlink ≠ 0

/-- An inode of the image that no path reaches. -/
def Stray (sb : Superblock) (disk : Disk) (i : Nat) : Prop :=
  (mount sb disk).node i ≠ none ∧ ¬ Reached (mount sb disk).node i

section

variable {sb : Superblock} {disk : Disk} {s s' : Sys} {ok : Sys → Nat × Call → Prop}
  {hist : List Unit} {p : Nat} {lost : Nat → Prop} {E : Panics}

lemma Image.run (h : Image sb disk) : Run sb (Stray sb disk) (mount sb disk) [] [] 0 where
  inv := h.toWellFormed.working.inv
  sb := rfl
  txn := rfl
  lt := fun hr => absurd hr not_mem_nil
  num := fun hr => absurd hr not_mem_nil
  exact := fun _ _ => rfl
  held := fun _ hr => absurd hr not_mem_nil
  valid := fun _ hr => absurd hr not_mem_nil
  clean := fun hr => absurd hr not_mem_nil
  tidy := by
    refine ⟨fun hh => hh.2 .root, fun i hi hh => hh.1 hi, fun i m hi hm ht k hk hne hh => ?_⟩
    refine hi ⟨by rw [hm]; exact Option.some_ne_none m, fun hr => hh.2 (.entry hr hm ht hk hne)⟩
  settled := by
    intro i m hi hm hz
    refine absurd hz (h.linked i m (by_contra fun hr => hi ⟨?_, hr⟩) hm)
    rw [hm]
    exact Option.some_ne_none m
  unread := fun _ _ hr => absurd hr (Nat.lt_irrefl 0)

lemma bootSys_handles : (bootSys sb disk).handles = [] :=
  eq_nil_iff_forall_not_mem.mpr fun f hf => by
    obtain ⟨p, -, hf⟩ := mem_gather.mp hf
    obtain ⟨fd, -, hf⟩ := mem_gather.mp hf
    exact absurd hf not_mem_nil

lemma bootSys_slots : (bootSys sb disk).slots = [] := by
  refine eq_nil_iff_forall_not_mem.mpr fun ip hip => ?_
  rcases mem_append.mp hip with hip | hip
  · obtain ⟨f, -, hip⟩ := mem_gather.mp hip
    exact absurd hip not_mem_nil
  · obtain ⟨q, -, hip⟩ := mem_gather.mp hip
    exact absurd hip not_mem_nil

lemma Image.boot (h : Image sb disk) : SysInv sb (Stray sb disk) (bootSys sb disk) where
  tables := by
    refine ⟨fun f _ => ?_, fun f hf => ?_, fun _ _ _ => rfl, fun _ _ hr =>
      absurd hr (Nat.lt_irrefl 0), fun _ _ _ => ⟨rfl, fun _ _ => rfl⟩⟩
    · rw [bootSys_handles]
      rfl
    · rw [bootSys_handles] at hf
      cases hf
  pipes := ⟨fun _ _ hr => absurd hr (Nat.lt_irrefl 0), fun _ _ _ _ _ _ he =>
    absurd he.1 (Nat.lt_irrefl 0), fun _ hk => absurd hk (Nat.not_lt_zero _), fun _ hk =>
      absurd hk (Nat.not_lt_zero _), fun _ _ => rfl⟩
  run := by
    rw [Sys.refs, bootSys_slots]
    exact h.run
  alive := by
    rw [Sys.refs, bootSys_slots]
    exact fun hr => absurd hr not_mem_nil
  writes := fun _ _ hr => absurd hr (Nat.lt_irrefl 0)
  live := fun _ _ hst => by cases hst

lemma nameiRoot_run {fs : Fs} {refs : List (Nat × Nat)} {locked : List Nat} {n : Nat}
    (h : Run sb lost fs refs locked n) (hE : ∀ e ∈ stepPanics, E e) :
    Thread.Upholds FsInv (namei p 0 [slash]) fs E fun r fs' => fs'.node = fs.node ∧
      ∃ ip, r = some ip ∧ Run sb lost fs' ((ip, rootino) :: refs) locked n := by
  unfold namei namex
  have hstep :
    Thread.Upholds FsInv (fsStep (if [slash].head? = some slash then iget rootino else idup 0)) fs E
      fun ip fs' => fs'.node = fs.node ∧ Run sb lost fs' ((ip, rootino) :: refs) locked n := by
    refine Thread.upholds_step h.inv ?_ fun _ _ h' => h'.2.inv
    rw [if_pos (by decide)]
    refine (iget_sat (.inl (hE _ (by simp [stepPanics])))).imp fun ip fs1 hg => ?_
    have hlt := h.inv.layout.root_lt
    rw [h.sb] at hlt
    obtain ⟨h1, hnode1⟩ := h.got hlt h.tidy.root hg
    exact ⟨hnode1, h1⟩
  refine Thread.Upholds.bind (hstep.bind (R := fun r fs' => fs'.node = fs.node ∧
    ∃ ip, r = some (ip, []) ∧ Run sb lost fs' ((ip, rootino) :: refs) locked n) ?_) ?_
  · rintro ip fs1 ⟨hnode1, h1⟩
    have hel : pathElems [slash].length [slash] = [] := by decide
    rw [hel]
    exact Thread.upholds_pure h1.inv ⟨hnode1, ip, rfl, h1⟩
  · rintro r fs1 ⟨hnode1, ip, rfl, h1⟩
    exact Thread.upholds_pure h1.inv ⟨hnode1, ip, rfl, h1⟩

lemma userinit_sat (h : SysInv sb lost s) (hroot : s.fs.node rootino ≠ none)
    (hE : ∀ e ∈ stepPanics, E e) :
    Thread.Sat userinit s E fun _ s' => SysInv sb lost s' ∧ s'.fs.node = s.fs.node := by
  unfold userinit
  refine Thread.Sat.bind (Thread.sat_step allocproc_sat) ?_
  rintro r s1 (⟨rfl, rfl⟩ | ⟨q, rfl, hq, h0, hs1⟩)
  · exact ⟨h, rfl⟩
  have h1 := h.forking hq h0
  rw [← hs1] at h1
  refine Thread.Sat.bind (onFs_sat (nameiRoot_run h1.sound.run hE)) ?_
  rintro c s2 ⟨fs2, rfl, hnode2, ip, rfl, hr2⟩
  refine modify_sat.bind ?_
  rintro _ s3 rfl
  refine modify_sat.imp ?_
  rintro _ s4 rfl
  refine ⟨h1.start h hq hr2 hnode2 (by rw [h1.fs]; exact hroot), ?_⟩
  rw [← h1.fs]
  exact hnode2

lemma Sys.cwd_slot {ip : Nat} (hp : p < nproc) (hc : (s.proc p).cwd = some ip) : ip ∈ s.slots := by
  refine mem_append_right _ (mem_gather.mpr ⟨p, hp, ?_⟩)
  rw [hc]
  exact mem_singleton.mpr rfl

lemma SysInv.paths (h : SysInv sb lost s) (hE : ∀ e ∈ sysPanics, E e) (hno : E "ilock: no type") :
    Paths E (fun i => ¬ lost i) s where
  root := h.run.tidy.root
  cwd := by
    intro q hq ip hc
    exact h.run.clean (Sys.mem_refs.mpr ⟨Sys.cwd_slot hq hc, rfl⟩)
  closed := h.run.tidy.closed
  safe := Or.inl hno
  panics := hE

/-- The calls that create or remove names. -/
def Call.OnPath : Call → Prop
  | .open _ _ | .mkdir _ | .mknod _ _ _ | .link _ _ | .unlink _ => True
  | _ => False

/-- When a failed call leaves the tree as it was. -/
def Call.FailsClean (s : Sys) (p : Nat) : Call → Prop
  | .open path omode => OpenSafe s p path omode
  | _ => True

lemma Call.sat_paths {P : Nat → Prop} (c : Call) (h : SysInv sb lost s) (hP : Paths E P s)
    (hp : s.CanCall p) :
    Thread.Sat (c.prog p) s E fun r s' => Called sb lost P (fun _ => True) s s' r ∧
      (c.OnPath → ((r = -1 → s'.fs.node = s.fs.node) ↔ c.FailsClean s p)) := by
  have hE' : ∀ e ∈ stepPanics, E e := fun e he => hP.panic he
  obtain ⟨hlt, hst⟩ := hp
  obtain ⟨cwd, hcwd, hmem⟩ := h.cwd_ref hlt hst
  cases c with
  | «open» path omode =>
    exact (sysOpen_sat h hP hlt hst fun _ _ _ _ => trivial).imp fun _ _ h' => ⟨h'.1, fun _ => h'.2⟩
  | mkdir path =>
    exact (sysMake_sat h hP hlt hst (by decide) (by decide) fun _ _ _ _ =>
      trivial).imp fun _ _ h' =>
      ⟨h'.1, fun _ => iff_of_true h'.2 trivial⟩
  | mknod path major minor =>
    exact (sysMake_sat h hP hlt hst (by decide) (by decide) fun _ _ _ _ =>
      trivial).imp fun _ _ h' =>
      ⟨h'.1, fun _ => iff_of_true h'.2 trivial⟩
  | link old new =>
    cases old with
    | none => exact ⟨h.same, fun _ => iff_of_true (fun _ => rfl) trivial⟩
    | some old =>
    cases new with
    | none => exact ⟨h.same, fun _ => iff_of_true (fun _ => rfl) trivial⟩
    | some new =>
    refine (cwdOf_some hcwd).bind ?_
    rintro c s1 ⟨rfl, hc⟩
    subst c
    exact (sysLink_sat h hP hlt hcwd hmem fun _ _ => trivial).imp fun _ _ h' =>
      ⟨h'.1, fun _ => iff_of_true h'.2 trivial⟩
  | unlink path =>
    cases path with
    | none => exact ⟨h.same, fun _ => iff_of_true (fun _ => rfl) trivial⟩
    | some path =>
    refine (cwdOf_some hcwd).bind ?_
    rintro c s1 ⟨rfl, hc⟩
    subst c
    exact (sysUnlink_sat h hP hlt hcwd hmem).imp fun _ _ h' =>
      ⟨h'.1, fun _ => iff_of_true h'.2 trivial⟩
  | chdir path => exact (sysChdir_sat h hP hlt hst).imp fun _ _ h' => ⟨h', False.elim⟩
  | dup fd => exact (sysDup_sat h hlt hst).imp fun _ _ h' => ⟨h', False.elim⟩
  | close fd => exact (sysClose_sat h hlt hE').imp fun _ _ h' => ⟨h', False.elim⟩
  | pipe page out0 out1 => exact (sysPipe_sat h hlt hst hE').imp fun _ _ h' => ⟨h', False.elim⟩
  | read fd dst n ext => exact (sysRead_sat h hlt hE').imp fun _ _ h' => ⟨h', False.elim⟩
  | write fd src n ext => exact (sysWrite_sat h hlt hE').imp fun _ _ h' => ⟨h', False.elim⟩
  | fork mem => exact (fork_sat h hlt hst).imp fun _ _ h' => ⟨h', False.elim⟩
  | exit => exact (exit_sat h hlt hst hP.panics).imp fun _ _ h' => ⟨h', False.elim⟩
  | wait q =>
    change Thread.Sat (if q < nproc then reap q else pure (-1)) s E _
    split
    next hq => exact (reap_sat h hq).imp fun _ _ h' => ⟨h', False.elim⟩
    next => exact ⟨h.same, False.elim⟩

lemma Call.sat (c : Call) (h : SysInv sb lost s) (hp : s.CanCall p) (hE : ∀ e ∈ sysPanics, E e)
    (hno : E "ilock: no type") :
    Thread.Sat (c.prog p) s E fun r s' => Called sb lost (fun i => ¬ lost i)
    (fun _ => True) s s' r ∧ (c.OnPath → ((r = -1 → s'.fs.node = s.fs.node) ↔ c.FailsClean s p)) :=
  c.sat_paths h (h.paths hE hno) hp

def CountPanic (e : String) : Prop := e = "filedup" ∨ e = "fileclose"

def notCount : Panics := ⟨fun e => ¬ CountPanic e, by unfold CountPanic; decide⟩

lemma sysPanics_not_count : ∀ e ∈ sysPanics, ¬ CountPanic e := by
  unfold sysPanics fsPanics CountPanic
  decide

lemma Call.sat_counts (c : Call) (h : SysInv sb lost s) (hp : s.CanCall p) :
    Thread.Sat (c.prog p) s notCount fun r s' =>
      Called sb lost (fun i => ¬ lost i) (fun _ => True) s s' r ∧
        (c.OnPath → ((r = -1 → s'.fs.node = s.fs.node) ↔ c.FailsClean s p)) :=
  c.sat h hp sysPanics_not_count (show ¬ CountPanic _ by unfold CountPanic; decide)

lemma sysMachine_step {a : Nat × Call} {out : List Unit}
    (hs : (sysMachine sb disk).step s a = some (s', out)) :
    s.CanCall a.1 ∧ ∃ r, (a.2.prog a.1).run s = some (.ok (r, s')) := by
  change (if s.CanCall a.1 then _ else _) = _ at hs
  split at hs
  next hc =>
    split at hs
    next r s1 hr =>
      cases hs
      exact ⟨hc, r, hr⟩
    next => cases hs
  next => cases hs

lemma sysMachine_run {c : Call} {r : Int} (hp : s.CanCall p)
    (hr : (c.prog p).run s = some (.ok (r, s'))) :
    (sysMachine sb disk).step s (p, c) = some (s', []) := by
  change (if s.CanCall p then _ else _) = _
  rw [if_pos hp, hr]

lemma sysMachine_inv (hw : Image sb disk) (h : (sysMachine sb disk).Reach ok s hist) :
    SysInv sb (Stray sb disk) s := by
  refine h.invariant (I := fun s _ => SysInv sb (Stray sb disk) s) (fun s0 h0 => ?_) fun _ hi _ hs => ?_
  · exact ((userinit_sat (E := .any) hw.boot hw.root fun _ _ => trivial).of_run h0).1
  · obtain ⟨hc, r, hr⟩ := sysMachine_step hs
    exact ((Call.sat_counts _ hi hc).of_run hr).1.inv

end

end Xv6
