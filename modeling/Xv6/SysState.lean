import Xv6.FileTable

/-! The invariant between system calls, and what the pieces of `file.c` and `sysfile.c`
do to it. -/

namespace Xv6

open Kern List

/-- No directory is open for writing. -/
def Sys.Writes (s : Sys) : Prop :=
  ∀ f < nfile, 0 < (s.file f).ref → (s.file f).type = .inode → (s.file f).writable = true →
    ∀ m, s.fs.node (s.fs.itable (s.file f).ip).inum = some m → m.type ≠ tDir

/-- The tables agree with each other and with the file system while a call runs. -/
structure Sound (sb : Superblock) (lost : Nat → Prop) (s : Sys) (pend fresh : List Nat)
    (held : List (Nat × Nat)) (locked : List Nat) (n : Nat) : Prop where
  tables : Tables s pend fresh
  pipes : PipeEnds s
  run : Run sb lost s.fs (held ++ s.refs) locked n
  alive : Alive s.fs.node s.refs
  writes : s.Writes

/-- The invariant between system calls. -/
structure SysInv (sb : Superblock) (lost : Nat → Prop) (s : Sys) :
    Prop extends Sound sb lost s [] [] [] [] 0 where
  live : ∀ p < nproc, (s.proc p).state = .runnable → (s.proc p).cwd ≠ none

def sysPanics : List String := "init exiting" :: fsPanics

/-- Path lookup stays in `P`, which has allocated inodes only unless `ilock` may find none. -/
structure Paths (E : Panics) (P : Nat → Prop) (s : Sys) : Prop where
  root : P rootino
  cwd : ∀ p < nproc, ∀ ip, (s.proc p).cwd = some ip → P (s.fs.itable ip).inum
  closed : Closed s.fs.node P
  safe : E "ilock: no type" ∨ ∀ j, P j → s.fs.node j ≠ none
  panics : ∀ e ∈ sysPanics, E e

/-- The same descriptors, counts and pipes. -/
structure SameHandles (s s' : Sys) : Prop where
  ofile : ∀ p < nproc, ∀ fd < nofile, (s'.proc p).ofile fd = (s.proc p).ofile fd
  ref : ∀ f < nfile, (s'.file f).ref = (s.file f).ref
  pipe : ∀ k < s.npipe, s'.pipes k = s.pipes k ∧ s'.freed k = s.freed k

section

variable {sb : Superblock} {lost : Nat → Prop} {s s' : Sys} {pend pend' fresh fresh' : List Nat}
  {held held' : List (Nat × Nat)} {locked locked' : List Nat} {n n' f p fd ip i : Nat} {E : Panics}
  {P : Nat → Prop}

lemma onFs_sat {α : Type} {t : FsProg α} {Q : α → Fs → Prop} (h : Thread.Upholds FsInv t s.fs E Q) :
    Thread.Sat (onFs t) s E fun a s' => ∃ fs, s' = { s with fs := fs } ∧ Q a fs := by
  have hz : (onFs t).Upholds (fun x => FsInv x.fs) s E fun a s' => ∃ fs,
    s' = { s with fs := fs } ∧ Q a fs := by
    refine Thread.Upholds.zoom (fun _ _ => rfl) (fun _ _ _ => rfl) (fun _ => rfl) ?_
    exact h.imp fun a fs hQ => ⟨fs, rfl, hQ⟩
  exact hz.sat

lemma Sys.mem_refs {ip i : Nat} : (ip, i) ∈ s.refs ↔ ip ∈ s.slots ∧ (s.fs.itable ip).inum = i := by
  simp [refs]

lemma Sys.refs_perm (hp : s'.slots.Perm s.slots) (hfs : s'.fs = s.fs) : s'.refs.Perm s.refs := by
  unfold refs
  rw [hfs]
  exact hp.map _

lemma Alive.perm {N : Nat → Option FileNode} {R R' : List (Nat × Nat)} (h : Alive N R)
    (hp : R'.Perm R) : Alive N R' :=
  fun hr => h (hp.mem_iff.mp hr)

lemma Sound.files (h : Sound sb lost s pend fresh held locked n) (hfs : s'.fs = s.fs)
    (ht : Tables s' pend' fresh')
    (hp : PipeEnds s') (hslots : s'.slots.Perm s.slots) (hw : s'.Writes) :
    Sound sb lost s' pend' fresh' held locked n := by
  have hrefs := Sys.refs_perm hslots hfs
  refine ⟨ht, hp, ?_, ?_, hw⟩
  · rw [hfs]
    exact h.run.perm (hrefs.symm.append_left _)
  · rw [hfs]
    exact Alive.perm h.alive hrefs

lemma Sys.refs_cons (hp : s'.slots.Perm (ip :: s.slots)) (hfs : s'.fs = s.fs) :
    s'.refs.Perm ((ip, (s.fs.itable ip).inum) :: s.refs) := by
  unfold refs
  rw [hfs]
  exact hp.map _

lemma Sound.release (h : Sound sb lost s pend fresh held locked n) (hfs : s'.fs = s.fs)
    (ht : Tables s' pend' fresh')
    (hp : PipeEnds s') (hslots : s.slots.Perm (ip :: s'.slots)) (hw : s'.Writes) :
    Sound sb lost s' pend' fresh' ((ip, (s.fs.itable ip).inum) :: held) locked n := by
  have hrefs : s.refs.Perm ((ip, (s.fs.itable ip).inum) :: s'.refs) := by
    rw [← hfs]
    exact Sys.refs_cons hslots hfs.symm
  refine ⟨ht, hp, ?_, ?_, hw⟩
  · rw [hfs]
    exact h.run.perm ((hrefs.append_left held).trans perm_middle)
  · rw [hfs]
    exact fun hr => h.alive (hrefs.mem_iff.mpr (mem_cons_of_mem _ hr))

lemma Sound.acquire (h : Sound sb lost s pend fresh ((ip, i) :: held) locked n) (hfs : s'.fs = s.fs)
    (ht : Tables s' pend' fresh') (hp : PipeEnds s') (hslots : s'.slots.Perm (ip :: s.slots))
    (hw : s'.Writes)
    (hne : s.fs.node i ≠ none) : Sound sb lost s' pend' fresh' held locked n := by
  have hi : (s.fs.itable ip).inum = i := h.run.num mem_cons_self
  have hrefs := Sys.refs_cons hslots hfs
  rw [hi] at hrefs
  refine ⟨ht, hp, ?_, ?_, hw⟩
  · rw [hfs]
    exact h.run.perm ((hrefs.append_left held).trans perm_middle).symm
  · rw [hfs]
    intro x j hr
    rcases mem_cons.mp (hrefs.mem_iff.mp hr) with hr | hr
    · cases hr
      exact hne
    · exact h.alive hr

variable {fs : Fs} {v : File} {g : Nat → Proc}

lemma Run.inum_eq (h : Run sb lost fs (held ++ s.refs) locked n) :
    ∀ ip ∈ s.slots, (fs.itable ip).inum = (s.fs.itable ip).inum := fun _ hip =>
  h.num (mem_append_right _ (Sys.mem_refs.mpr ⟨hip, rfl⟩))

lemma Run.refs_eq (h : Run sb lost fs (held ++ s.refs) locked n) :
    ({ s with fs := fs } : Sys).refs = s.refs :=
  map_congr_left fun ip hip => Prod.ext rfl (h.inum_eq ip hip)

lemma Sound.onFs (h : Sound sb lost s pend fresh held locked n)
    (hr : Run sb lost fs (held' ++ s.refs) locked' n')
    (hk : Kept (s.refs.map Prod.snd) s.fs.node fs.node) :
    Sound sb lost { s with fs := fs } pend fresh held' locked' n' := by
  have hnum := hr.inum_eq
  have hrefs := hr.refs_eq
  refine ⟨⟨h.tables.count, h.tables.lt, h.tables.free, h.tables.typed, h.tables.idle⟩,
    ⟨h.pipes.known, h.pipes.single, h.pipes.ends, h.pipes.freed, h.pipes.unborn⟩, ?_, ?_, ?_⟩
  · rw [hrefs]
    exact hr
  · rw [hrefs]
    exact hk.alive h.alive
  · intro f hf hpos ht hw m hm
    change fs.node (fs.itable (s.file f).ip).inum = some m at hm
    have hslot : (s.file f).ip ∈ s.slots := by
      refine mem_append_left _ (mem_gather.mpr ⟨f, hf, ?_⟩)
      rw [File.slots, if_pos ⟨hpos, .inl ht⟩]
      exact mem_cons_self
    rw [hnum _ hslot] at hm
    have href := Sys.mem_refs.mpr ⟨hslot, rfl⟩
    obtain ⟨m0, hm0⟩ := Option.ne_none_iff_exists'.mp (h.alive href)
    obtain ⟨m1, hm1, htype⟩ := hk _ (mem_map_of_mem href) m0 hm0
    rw [hm] at hm1
    cases hm1
    rw [htype]
    exact h.writes f hf hpos ht hw m0 hm0

lemma Sys.Writes.setFile (h : s.Writes) (hv : 0 < v.ref → v.type = .inode → v.writable = true →
    0 < (s.file f).ref ∧ (s.file f).type = .inode ∧ (s.file f).writable = true ∧ v.ip = (s.file f).ip) :
    (s.setFile f v).Writes := by
  intro g hg hr ht hw m hm
  by_cases hgf : g = f
  · rw [hgf, Sys.setFile_self] at hr ht hw hm
    obtain ⟨h1, h2, h3, h4⟩ := hv hr ht hw
    rw [h4] at hm
    exact h f (hgf ▸ hg) h1 h2 h3 m hm
  · rw [Sys.setFile_of_ne hgf] at hr ht hw hm
    exact h g hg hr ht hw m hm

/-- A free file, if there is one. -/
lemma filealloc_sat (h : Sound sb lost s pend fresh held locked n) :
    Sat filealloc s E fun r s' => (r = none ∧ s' = s ∧ ∀ f < nfile, (s.file f).ref ≠ 0) ∨
      ∃ f, r = some f ∧ f < nfile ∧ (s.file f).ref = 0 ∧ s' = s.setFile f { s.file f with ref := 1 } ∧
        Sound sb lost s' (f :: pend) (f :: fresh) held locked n := by
  unfold filealloc
  rw [sat_bind, sat_getState]
  split
  next f hfind =>
    have h0 : (s.file f).ref = 0 := by simpa using List.find?_some hfind
    have hf : f < nfile := mem_range.mp (mem_of_find?_eq_some hfind)
    have ht := h.tables.free f hf h0
    rw [sat_bind, sat_modifyState, sat_pure]
    refine Or.inr ⟨f, rfl, hf, h0, rfl, h.files rfl (h.tables.alloc hf h0) ?_ ?_ ?_⟩
    · exact h.pipes.setOther (.inr (by simp [ht])) (.inl h0)
    · exact Sys.slots_setFile hf (by simp [File.slots, ht])
    · exact h.writes.setFile fun _ hi => by simp [ht] at hi
  next hfind =>
    rw [sat_pure]
    refine Or.inl ⟨rfl, rfl, fun f hf => ?_⟩
    simpa using List.find?_eq_none.mp hfind f (mem_range.mpr hf)

lemma fdalloc_sat : Sat (fdalloc p f) s E fun r s' =>
    (r = none ∧ s' = s ∧ ∀ fd < nofile, (s.proc p).ofile fd ≠ none) ∨
      ∃ fd, r = some fd ∧ fd < nofile ∧ (s.proc p).ofile fd = none ∧ s' = s.setOfile p fd (some f) := by
  unfold fdalloc
  rw [sat_bind, sat_getState]
  split
  next fd hfind =>
    have h0 : (s.proc p).ofile fd = none := by simpa using List.find?_some hfind
    have hfd : fd < nofile := mem_range.mp (mem_of_find?_eq_some hfind)
    rw [sat_bind, sat_modifyState, sat_pure]
    exact .inr ⟨fd, rfl, hfd, h0, rfl⟩
  next hfind =>
    rw [sat_pure]
    refine Or.inl ⟨rfl, rfl, fun fd hfd h0 => ?_⟩
    simpa [h0] using List.find?_eq_none.mp hfind fd (mem_range.mpr hfd)

lemma argfd_sat {x : Int} : Sat (argfd p x) s E fun r s' => s' = s ∧
    ∀ fd f, r = some (fd, f) → fd < nofile ∧ (s.proc p).ofile fd = some f := by
  unfold argfd
  rw [sat_bind, sat_getState]
  split
  next =>
    rw [sat_pure]
    exact ⟨rfl, fun _ _ h => by cases h⟩
  next hx =>
    rw [sat_pure]
    refine ⟨rfl, fun fd f h => ?_⟩
    obtain ⟨f', hf', he⟩ := Option.map_eq_some_iff.mp h
    cases he
    simp only [not_or, not_lt, ge_iff_le, not_le] at hx
    exact ⟨by omega, hf'⟩

lemma cwdOf_sat : Sat (cwdOf p) s E fun r s' => s' = s ∧ r = (s.proc p).cwd.getD 0 := by
  unfold cwdOf
  rw [sat_bind, sat_getState, sat_pure]
  exact ⟨rfl, rfl⟩

lemma filedup_sat (hr : 0 < (s.file f).ref) : Sat (filedup f) s E fun r s' =>
    r = f ∧ s' = s.setFile f { s.file f with ref := (s.file f).ref + 1 } := by
  unfold filedup
  rw [sat_bind, sat_getState, if_neg (by omega), sat_bind, sat_modifyState, sat_pure]
  exact ⟨rfl, rfl⟩

lemma Sys.slots_setRef {r : Nat} (hf : f < nfile) (hr : 0 < r) (hpos : 0 < (s.file f).ref) :
    (s.setFile f { s.file f with ref := r }).slots.Perm s.slots :=
  slots_setFile hf (by simp [File.slots, hr, hpos])

lemma Sound.setRef {r : Nat} (h : Sound sb lost s pend fresh held locked n)
    (hf : f < nfile) (hr : 0 < r) (hpos : 0 < (s.file f).ref)
    (ht : Tables (s.setFile f { s.file f with ref := r }) pend' fresh') :
    Sound sb lost (s.setFile f { s.file f with ref := r }) pend' fresh' held locked n :=
  h.files rfl ht (h.pipes.setRef hr hpos) (Sys.slots_setRef hf hr hpos)
    (h.writes.setFile fun _ hi hw => ⟨hpos, hi, hw, rfl⟩)

lemma filecloseRef_sat (hr : 0 < (s.file f).ref) : Sat (filecloseRef f) s E fun r s' =>
    (r = none ∧ 1 < (s.file f).ref ∧ s' = s.setFile f { s.file f with ref := (s.file f).ref - 1 }) ∨
    (r = some (s.file f) ∧ (s.file f).ref = 1 ∧
      s' = s.setFile f { s.file f with ref := 0, type := .none }) := by
  unfold filecloseRef
  rw [sat_bind, sat_getState, if_neg (by omega)]
  split
  next h1 =>
    rw [sat_bind, sat_modifyState, sat_pure]
    exact .inl ⟨rfl, by omega, rfl⟩
  next h1 =>
    rw [sat_bind, sat_modifyState, sat_pure]
    exact .inr ⟨rfl, by omega, rfl⟩

lemma fileclose_fresh (h1 : (s.file f).ref = 1) (ht : (s.file f).type = .none) :
    Thread.Sat (fileclose p f) s E fun _ s' => s' = s.setFile f { s.file f with
      ref := 0, type := .none } := by
  unfold fileclose
  refine Thread.Sat.bind (Thread.sat_step (filecloseRef_sat (by omega))) ?_
  rintro r s1 (⟨rfl, hlt, -⟩ | ⟨rfl, -, rfl⟩)
  · omega
  · simp only [ht]
    rfl

/-- What `fileclose` may change. -/
structure FileClosed (s s' : Sys) (f : Nat) : Prop where
  proc : s'.proc = s.proc
  npipe : s'.npipe = s.npipe
  files : ∀ g ≠ f, s'.file g = s.file g
  fs : (s.file f).type = .pipe → s'.fs = s.fs
  pipes : ∀ k, (∀ w, ¬ (s.file f).IsEnd k w) → s'.pipes k = s.pipes k ∧ s'.freed k = s.freed k

lemma Sound.pend_pos (h : Sound sb lost s (f :: pend) fresh held locked n) : 0 < (s.file f).ref := by
  rw [h.tables.pend_ref]
  exact Nat.succ_pos _

lemma Sys.slots_close (hf : f < nfile) (hs : (s.file f).slots = [ip]) (hv : v.slots = []) :
    s.slots.Perm (ip :: (s.setFile f v).slots) := by
  rw [perm_iff_count]
  intro a
  have hx := Sys.count_slots_setFile (s := s) hf v a
  rw [hs, hv] at hx
  simp only [count_nil, count_cons] at hx ⊢
  omega

lemma Sys.slots_open (hf : f < nfile) (hs : (s.file f).slots = []) (hv : v.slots = [ip]) :
    (s.setFile f v).slots.Perm (ip :: s.slots) := by
  rw [perm_iff_count]
  intro a
  have hx := Sys.count_slots_setFile (s := s) hf v a
  rw [hs, hv] at hx
  simp only [count_nil, count_cons] at hx ⊢
  omega

lemma putRef_run {R : List (Nat × Nat)} (h : Run sb lost fs ((ip, i) :: R) locked n)
    (hl : ∀ x ∈ locked, x ∈ R.map Prod.fst) (hE : ∀ e ∈ stepPanics, E e) : Thread.Upholds FsInv (do
        fsStep Fs.beginOp
        iput p ip
        fsStep Fs.endOp) fs E fun _ fs' => Run sb lost fs' R locked n ∧
        fs'.node = putNode fs.node R i := by
  refine (beginOp_run h).bind ?_
  rintro _ fs1 ⟨h₁, hnode1⟩
  refine (iput_run h₁ (Nat.le_add_left 1 n) hl hE).bind ?_
  rintro _ fs2 ⟨h₂, hnode2⟩
  refine (endOp_run h₂).imp ?_
  rintro _ fs3 ⟨h₃, hnode3⟩
  exact ⟨h₃, by rw [hnode3, hnode2, hnode1]⟩

lemma Sound.put (h : Sound sb lost s pend fresh ((ip, i) :: held) locked n)
    (hr : Run sb lost fs (held ++ s.refs) locked n')
    (hnode : fs.node = putNode s.fs.node (held ++ s.refs) i) :
    Sound sb lost { s with fs := fs } pend fresh held locked n' ∧
    Minors (s.refs.map Prod.snd) s.fs.node fs.node := by
  have hminors : Minors (s.refs.map Prod.snd) s.fs.node fs.node := by
    rw [hnode]
    refine putNode_minors (fun j hj => ?_) _
    rw [map_append]
    exact mem_append_right _ hj
  exact ⟨h.onFs hr hminors.kept, hminors⟩

lemma Sound.dropInode (h : Sound sb lost s (f :: pend) [] [] [] 0) (h1 : (s.file f).ref = 1)
    (hty : (s.file f).type = .inode ∨ (s.file f).type = .device) :
    Sound sb lost (s.setFile f { s.file f with ref := 0, type := .none }) pend []
      [((s.file f).ip, (s.fs.itable (s.file f).ip).inum)] [] 0 := by
  have hnp : (s.file f).type ≠ .pipe := by rcases hty with hty | hty <;> simp [hty]
  refine h.release rfl (h.tables.drop h1) (h.pipes.setOther (.inl rfl) (.inr hnp)) ?_
    (h.writes.setFile fun hr => absurd hr (by simp))
  exact Sys.slots_close h.tables.pend_lt (by rw [File.slots, if_pos ⟨by omega, hty⟩])
    (by simp [File.slots])

lemma closeInode_sat (h : Sound sb lost { s with proc := g } (f :: pend) [] [] [] 0)
    (h1 : (s.file f).ref = 1) (hty : (s.file f).type = .inode ∨ (s.file f).type = .device)
    (hE : ∀ e ∈ stepPanics, E e) :
    Thread.Sat (onFs do
        fsStep Fs.beginOp
        iput p (s.file f).ip
        fsStep Fs.endOp) (s.setFile f { s.file f with ref := 0, type := .none }) E fun _ s' =>
      Sound sb lost { s' with proc := g } pend [] [] [] 0 ∧ FileClosed s s' f ∧
        Minors [] s.fs.node s'.fs.node := by
  have hnp : (s.file f).type ≠ .pipe := by rcases hty with hty | hty <;> simp [hty]
  have h₁ := h.dropInode h1 hty
  refine (onFs_sat (s := s.setFile f { s.file f with ref := 0, type := .none })
    (putRef_run h₁.run (fun x hx => absurd hx not_mem_nil) hE)).imp ?_
  rintro _ _ ⟨fs, rfl, hr, hnode⟩
  obtain ⟨h₂, hm⟩ := h₁.put hr hnode
  exact ⟨h₂, ⟨rfl, rfl, fun g hg => Sys.setFile_of_ne hg, fun hp => absurd hp hnp,
    fun _ _ => ⟨rfl, rfl⟩⟩, hm.mono fun _ hi => absurd hi not_mem_nil⟩

lemma Tables.congr (h : Tables s pend fresh) (hf : s'.file = s.file) (hp : s'.proc = s.proc) :
    Tables s' pend fresh := by
  have hh : s'.handles = s.handles := by
    unfold Sys.handles
    rw [hp]
  exact ⟨by rw [hf, hh]; exact h.count, by rw [hh]; exact h.lt, by rw [hf]; exact h.free,
    by rw [hf]; exact h.typed, by rw [hp]; exact h.idle⟩

lemma Sys.slots_congr (hf : s'.file = s.file) (hp : s'.proc = s.proc) : s'.slots = s.slots := by
  unfold slots
  rw [hf, hp]

lemma Sys.Writes.congr (h : s.Writes) (hf : s'.file = s.file) (hfs : s'.fs = s.fs) : s'.Writes := by
  unfold Sys.Writes
  rw [hf, hfs]
  exact h

lemma Sys.closeEnd_setProcs (k : Nat) (w : Bool) (g : Nat → Proc) :
    { s.closeEnd k w with proc := g } = ({ s with proc := g } : Sys).closeEnd k w :=
  apply_ite (fun x : Sys => { x with proc := g }) _ _ _

lemma Sound.closeEnd (h : Sound sb lost s (f :: pend) [] [] [] 0) (h1 : (s.file f).ref = 1)
    (he : (s.file f).IsEnd (s.file f).pipe (s.file f).writable) :
    Sound sb lost ((s.setFile f { s.file f with ref := 0, type := .none }).closeEnd (s.file f).pipe
      (s.file f).writable) pend [] [] [] 0 := by
  have hf := h.tables.pend_lt
  have ht := h.tables.drop h1
  have hw : (s.setFile f { s.file f with ref := 0, type := .none }).Writes :=
    h.writes.setFile fun hr => absurd hr (by simp)
  have hslots : (s.setFile f { s.file f with ref := 0, type := .none }).slots.Perm s.slots :=
    Sys.slots_setFile hf (by simp [File.slots, he.2.1])
  obtain ⟨hfs, hfile, hproc, -, -⟩ := Sys.closeEnd_rest
    (s := s.setFile f { s.file f with ref := 0, type := .none }) (s.file f).pipe (s.file f).writable
  exact h.files hfs (ht.congr hfile hproc) (h.pipes.close hf he)
    (by rw [Sys.slots_congr hfile hproc]; exact hslots) (hw.congr hfile hfs)

lemma closePipe_sat (h : Sound sb lost { s with proc := g } (f :: pend) [] [] [] 0)
    (h1 : (s.file f).ref = 1) (hty : (s.file f).type = .pipe) :
    Thread.Sat (sysStep (Sys.pipeclose (s.file f).pipe (s.file f).writable))
      (s.setFile f { s.file f with ref := 0, type := .none }) E fun _ s' =>
      Sound sb lost { s' with proc := g } pend [] [] [] 0 ∧ FileClosed s s' f ∧
        Minors [] s.fs.node s'.fs.node := by
  have he : (s.file f).IsEnd (s.file f).pipe (s.file f).writable := by
    obtain ⟨k, -, w, he⟩ := h.pipes.known f h.tables.pend_lt (by simp [h1]) hty
    change (s.file f).IsEnd k w at he
    rw [he.2.2.1, he.2.2.2.1]
    exact he
  obtain ⟨hfs, hfile, hproc, hn, hfr⟩ := Sys.closeEnd_rest
    (s := s.setFile f { s.file f with ref := 0, type := .none }) (s.file f).pipe (s.file f).writable
  refine Thread.sat_step (pipeclose_sat.imp ?_)
  rintro _ s2 rfl
  refine ⟨?_, ⟨hproc, hn, fun g hg => ?_, fun _ => hfs, fun k hk => ⟨?_, ?_⟩⟩, ?_⟩
  · rw [Sys.closeEnd_setProcs]
    exact h.closeEnd h1 he
  · rw [hfile]
    exact Sys.setFile_of_ne hg
  · rw [Sys.closeEnd_pipes, Function.update_of_ne fun hc => hk _ (hc ▸ he)]
    rfl
  · exact hfr k fun hc => hk _ (hc ▸ he)
  · rw [hfs]
    exact Minors.refl

/-- `fileclose` where the reference to `f` does not count among those of the descriptors
`g`. The descriptors themselves may still be as they were. -/
lemma fileclose_sat (h : Sound sb lost { s with proc := g } (f :: pend) [] [] [] 0)
    (hE : ∀ e ∈ stepPanics, E e) :
    Thread.Sat (fileclose p f) s E fun _ s' => Sound sb lost { s' with proc := g } pend [] [] [] 0 ∧
      FileClosed s s' f ∧ Minors [] s.fs.node s'.fs.node := by
  have hf := h.tables.pend_lt
  have hpos : 0 < (s.file f).ref := h.pend_pos
  unfold fileclose
  refine Thread.Sat.bind (Thread.sat_step (filecloseRef_sat hpos)) ?_
  rintro r s1 (⟨rfl, hlt, rfl⟩ | ⟨rfl, h1, rfl⟩)
  · exact ⟨h.setRef hf (by omega) hpos (h.tables.decRef hlt), ⟨rfl, rfl,
      fun g hg => Sys.setFile_of_ne hg, fun _ => rfl, fun _ _ => ⟨rfl, rfl⟩⟩, Minors.refl⟩
  cases hty : (s.file f).type with
  | none => exact absurd ((h.tables.typed f hf hpos).mp hty) not_mem_nil
  | pipe =>
    simp only [hty]
    exact closePipe_sat h h1 hty
  | inode =>
    simp only [hty]
    exact closeInode_sat h h1 (.inl hty) hE
  | device =>
    simp only [hty]
    exact closeInode_sat h h1 (.inr hty) hE

end

end Xv6
