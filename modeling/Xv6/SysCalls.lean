import Xv6.SysState

/-! What each system call does to the tables and to the files. -/

namespace Xv6

open Kern List

/-- What a system call with the result `r` leaves. -/
structure Called (sb : Superblock) (lost P : Nat → Prop) (W : List UInt8 → Prop) (s s' : Sys)
    (r : Int) : Prop where
  inv : SysInv sb lost s'
  evolves : Evolves [] P W s.fs.node s'.fs.node
  failed : r = -1 → SameHandles s s'

def OpenSafe (s : Sys) (p : Nat) (path : Option (List UInt8)) (omode : UInt32) : Prop :=
  omode &&& oCreate = 0 ∨
    ((∃ f < nfile, (s.file f).ref = 0) ∧ ∃ fd < nofile, (s.proc p).ofile fd = none) ∨
    ∀ q, path = some q →
      resolve s.fs.node (s.fs.itable ((s.proc p).cwd.getD 0)).inum q ≠ none ∨
        CreateFails s.fs p ((s.proc p).cwd.getD 0) q

section

variable {sb : Superblock} {lost : Nat → Prop} {s s' : Sys} {pend fresh : List Nat}
  {held : List (Nat × Nat)}
  {locked : List Nat} {n f p fd ip i : Nat} {E : Panics} {P : Nat → Prop} {W : List UInt8 → Prop}

lemma SameHandles.of_fs (s : Sys) (fs : Fs) : SameHandles s { s with fs := fs } :=
  ⟨fun _ _ _ _ => rfl, fun _ _ => rfl, fun _ _ => ⟨rfl, rfl⟩⟩

lemma Paths.panic {e : String} (h : Paths E P s) (he : e ∈ stepPanics) : E e :=
  h.panics e (mem_cons_of_mem _ (mem_fsPanics e he))

lemma Sound.sysInv (h : Sound sb lost s' [] [] [] [] 0)
    (hl : ∀ p < nproc, (s'.proc p).state = .runnable → (s'.proc p).cwd ≠ none) : SysInv sb lost s' :=
  ⟨h, hl⟩

variable {fs : Fs} {r : Int} {omode : UInt32} {m : FileNode} {c cwd : Nat} {path : List UInt8}

lemma SysInv.fsCall {keep : List Nat} (h : SysInv sb lost s) (hr : Run sb lost fs s.refs [] 0)
    (hk : ∀ i ∈ s.refs.map Prod.snd, i ∈ keep) (he : Evolves keep P W s.fs.node fs.node) :
    Called sb lost P W s { s with fs := fs } r :=
  ⟨⟨h.toSound.onFs hr (he.mono hk).kept, h.live⟩, he.mono fun _ hi => absurd hi not_mem_nil,
    fun _ => SameHandles.of_fs s fs⟩

lemma SysInv.unchanged (h : SysInv sb lost s) (hr : Run sb lost fs s.refs [] 0)
    (hn : fs.node = s.fs.node) : Called sb lost P W s { s with fs := fs } r :=
  h.fsCall hr (fun _ hi => hi) (Evolves.of_eq hn)

lemma SysInv.cwd_ref (h : SysInv sb lost s) (hp : p < nproc) (hst : (s.proc p).state = .runnable) :
    ∃ ip, (s.proc p).cwd = some ip ∧ (ip, (s.fs.itable ip).inum) ∈ s.refs := by
  obtain ⟨ip, hip⟩ := Option.ne_none_iff_exists'.mp (h.live p hp hst)
  refine ⟨ip, hip, Sys.mem_refs.mpr ⟨mem_append_right _ (mem_gather.mpr ⟨p, hp, ?_⟩), rfl⟩⟩
  rw [hip]
  exact mem_singleton.mpr rfl

lemma cwdOf_some (hc : (s.proc p).cwd = some ip) :
    Thread.Sat (sysStep (cwdOf p)) s E fun r s' => s' = s ∧ r = ip := by
  refine Thread.sat_step (cwdOf_sat.imp ?_)
  rintro r s' ⟨rfl, rfl⟩
  rw [hc]
  exact ⟨rfl, rfl⟩

lemma Sound.setOfile {pend' fresh' : List Nat} {v : Option Nat}
    (h : Sound sb lost s pend fresh held locked n)
    (hp : p < nproc) (ht : Tables (s.setOfile p fd v) pend' fresh') :
    Sound sb lost (s.setOfile p fd v) pend' fresh' held locked n :=
  h.files rfl ht (h.pipes.setProc _ _) (Sys.slots_setProc hp rfl) (h.writes.congr rfl rfl)

lemma Sys.setOfile_rest (fd : Nat) (v : Option Nat) (q : Nat) :
    ((s.setOfile p fd v).proc q).state = (s.proc q).state ∧
    ((s.setOfile p fd v).proc q).cwd = (s.proc q).cwd := by
  unfold setOfile
  by_cases hq : q = p
  · rw [hq, setProc_self]
    exact ⟨rfl, rfl⟩
  · rw [setProc_of_ne hq]
    exact ⟨rfl, rfl⟩

lemma Sys.alloc_close (h0 : (s.file f).ref = 0) (ht : (s.file f).type = .none) :
    (s.setFile f { s.file f with ref := 1 }).setFile f
      { (s.setFile f { s.file f with ref := 1 }).file f with ref := 0, type := .none } = s := by
  have hv : { (s.setFile f { s.file f with ref := 1 }).file f with
    ref := 0, type := .none } = s.file f := by
    rw [setFile_self, ← h0, ← ht]
  rw [hv]
  unfold setFile
  simp

lemma SameHandles.of_tables (h : Tables s [] fresh) {fresh' : List Nat} (h' : Tables s' [] fresh')
    (ho : ∀ p < nproc, ∀ fd < nofile, (s'.proc p).ofile fd = (s.proc p).ofile fd)
    (hp : ∀ k < s.npipe, s'.pipes k = s.pipes k ∧ s'.freed k = s.freed k) : SameHandles s s' := by
  have hh : s'.handles = s.handles := gather_congr fun p hp => gather_congr fun fd hfd => by
    rw [ho p hp fd hfd]
  exact ⟨ho, fun f hf => by rw [h.count f hf, h'.count f hf, hh], hp⟩

lemma Sound.called (h' : Sound sb lost s' [] [] [] [] 0) (h : SysInv sb lost s)
    (hrest : ∀ q, (s'.proc q).state = (s.proc q).state ∧ (s'.proc q).cwd = (s.proc q).cwd)
    (he : Evolves [] P W s.fs.node s'.fs.node) (hr : r ≠ -1) : Called sb lost P W s s' r := by
  refine ⟨h'.sysInv fun q hq hst => ?_, he, fun hh => absurd hh hr⟩
  rw [(hrest q).2]
  rw [(hrest q).1] at hst
  exact h.live q hq hst

def openedFile (ff : File) (d : Dinode) (ip : Nat) (omode : UInt32) : File :=
  if d.type = tDevice then { ff with
    ip := ip
    readable := omode &&& oWronly = 0
    writable := omode &&& oWronly ≠ 0 ∨ omode &&& oRdwr ≠ 0
    type := .device
    major := d.major }
  else { ff with
    ip := ip
    readable := omode &&& oWronly = 0
    writable := omode &&& oWronly ≠ 0 ∨ omode &&& oRdwr ≠ 0
    type := .inode
    off := 0 }

lemma openedFile_spec (ff : File) (d : Dinode) (ip : Nat) (omode : UInt32) :
    (openedFile ff d ip omode).ref = ff.ref ∧
    ((openedFile ff d ip omode).type = .inode ∨ (openedFile ff d ip omode).type = .device) ∧
    (openedFile ff d ip omode).ip = ip ∧
    (openedFile ff d ip omode).writable = decide (omode &&& oWronly ≠ 0 ∨ omode &&& oRdwr ≠ 0) := by
  unfold openedFile
  split
  · exact ⟨rfl, .inr rfl, rfl, rfl⟩
  · exact ⟨rfl, .inl rfl, rfl, rfl⟩

lemma openFile_sat (h : Sound sb lost s [] [f] [(ip, i)] locked n)
    (hf : f < nfile) (h1 : (s.file f).ref = 1) (hm : s.fs.node i = some m)
    (hd : m.type = tDir → omode = oRdonly) :
    Sat (openFile f ip omode) s E fun _ s' =>
      Sound sb lost s' [] [] [] locked n ∧ s'.fs = s.fs ∧ s'.proc = s.proc ∧ (ip, i) ∈ s'.refs := by
  have ht : (s.file f).type = .none := (h.tables.typed f hf (by omega)).mpr (mem_singleton.mpr rfl)
  have hi : (s.fs.itable ip).inum = i := h.run.num mem_cons_self
  refine (sat_modifyState (g := fun s : Sys =>
    s.setFile f (openedFile (s.file f) (s.fs.itable ip).din ip omode))).mpr ?_
  obtain ⟨hr, hty, hip, hwr⟩ := openedFile_spec (s.file f) (s.fs.itable ip).din ip omode
  generalize openedFile (s.file f) (s.fs.itable ip).din ip omode = v at hr hty hip hwr ⊢
  have hslots : v.slots = [ip] := by rw [File.slots, if_pos ⟨by omega, hty⟩, hip]
  have hnn : v.type ≠ .none := by rcases hty with hty | hty <;> simp [hty]
  have hnp : v.type ≠ .pipe := by rcases hty with hty | hty <;> simp [hty]
  have hperm : (s.setFile f v).slots.Perm (ip :: s.slots) :=
    Sys.slots_open hf (by simp [File.slots, ht]) hslots
  refine ⟨h.acquire rfl (h.tables.setup hf hr (by omega) hnn not_mem_nil)
    (h.pipes.setOther (.inr hnp) (.inr (by simp [ht]))) hperm ?_
    (by rw [hm]; exact Option.some_ne_none m), rfl, rfl, ?_⟩
  · intro g hg hpos htype hw m' hm' hdir
    by_cases hgf : g = f
    · rw [hgf, Sys.setFile_self] at hw hm'
      rw [hip] at hm'
      change s.fs.node (s.fs.itable ip).inum = some m' at hm'
      rw [hi, hm] at hm'
      cases hm'
      rw [hwr, hd hdir] at hw
      exact absurd hw (by decide)
    · rw [Sys.setFile_of_ne hgf] at hpos htype hw hm'
      exact h.writes g hg hpos htype hw m' hm' hdir
  · exact Sys.mem_refs.mpr ⟨hperm.mem_iff.mpr mem_cons_self, hi⟩

/-- What holds after `sys_open`. -/
def OpenRest (sb : Superblock) (lost P : Nat → Prop) (W : List UInt8 → Prop) (s : Sys) (p : Nat)
    (path : Option (List UInt8)) (omode : UInt32) (r : Int) (s' : Sys) : Prop :=
  Called sb lost P W s s' r ∧ ((r = -1 → s'.fs.node = s.fs.node) ↔ OpenSafe s p path omode)

lemma Opened.failed {fs' : Fs}
    (h : SysInv sb lost s) (hcwd : (s.proc p).cwd = some cwd)
    (hfull : ¬ ((∃ f < nfile, (s.file f).ref = 0) ∧ ∃ fd < nofile, (s.proc p).ofile fd = none))
    (ho : Opened s.fs.node fs.node s.refs P (s.fs.itable cwd).inum path omode ip i m)
    (hok : omode &&& oCreate ≠ 0 → ¬ CreateFails s.fs p cwd path)
    (hW : ∀ name ∈ pathElems path.length path, W name) (hr : Run sb lost fs' s.refs [] 0)
    (hlost : ¬ lost i) (hnode : fs'.node = putNode fs.node s.refs i) :
    OpenRest sb lost P W s p (some path) omode (-1) { s with fs := fs' } := by
  have hev : Evolves (s.refs.map Prod.snd) P (fun name => name ∈ pathElems path.length path)
      s.fs.node fs'.node := by
    rw [hnode]
    exact (ho.evolves fun _ hj => hj).minors (putNode_minors (fun _ hj => hj) i)
  refine ⟨h.fsCall hr (fun _ hi => hi) (hev.names hW), ?_⟩
  have hget : (s.proc p).cwd.getD 0 = cwd := by rw [hcwd]; rfl
  rw [OpenSafe, hget]
  cases ho with
  | found hP hpath hN =>
    refine iff_of_true (fun _ => ?_) (.inr (.inr fun q hq => .inl ?_))
    · change fs'.node = s.fs.node
      rw [hnode, hN]
      exact putNode_eq_self fun m hm hz => h.run.settled i m hlost hm hz
    · cases hq
      rw [hpath]
      exact Option.some_ne_none i
  | made hnew hpath ht hcr =>
    refine iff_of_false (fun hsame => ?_) ?_
    · obtain ⟨m', hm', ⟨-, -, -, hsome⟩ | ⟨-, -, hfree, hlinks⟩⟩ := hcr.node
      · rw [hpath] at hsome
        cases hsome
      have hkept : fs'.node i = some m' := by
        rw [hnode, putNode_eq_self fun m'' hm'' hz => ?_, hm']
        rw [hm'] at hm''
        cases hm''
        rw [hlinks] at hz
        cases hz
      have hsame : fs'.node = s.fs.node := hsame rfl
      rw [hsame, hfree] at hkept
      cases hkept
    · rintro (h0 | hroom | hres)
      · exact hnew h0
      · exact hfull hroom
      · exact (hres path rfl).elim (fun hne => hne hpath) (hok hnew)

lemma openFail_sat
    (h : SysInv sb lost s) (hP : Paths E P s) (hcwd : (s.proc p).cwd = some cwd)
    (hr : Run sb lost fs ((ip, i) :: s.refs) [ip] 1)
    (hfull : ¬ ((∃ f < nfile, (s.file f).ref = 0) ∧ ∃ fd < nofile, (s.proc p).ofile fd = none))
    (ho : Opened s.fs.node fs.node s.refs P (s.fs.itable cwd).inum path omode ip i m)
    (hok : omode &&& oCreate ≠ 0 → ¬ CreateFails s.fs p cwd path)
    (hW : ∀ name ∈ pathElems path.length path, W name) :
    Thread.Sat (do onFs (openFail p ip); pure (-1)) { s with fs := fs } E fun r s' =>
      OpenRest sb lost P W s p (some path) omode r s' := by
  refine Thread.Sat.bind (onFs_sat (openFail_run hr (by simp) fun e he => hP.panic he)) ?_
  rintro _ s4 ⟨fs', rfl, hr', hnode'⟩
  exact Opened.failed h hcwd hfull ho hok hW hr' (hr.clean mem_cons_self) hnode'

lemma sysOpen_sat {path : Option (List UInt8)} (h : SysInv sb lost s) (hP : Paths E P s)
    (hp : p < nproc) (hst : (s.proc p).state = .runnable)
    (hW : ∀ q, path = some q → ∀ name ∈ pathElems q.length q, W name) :
    Thread.Sat (sysOpen p path omode) s E fun r s' => OpenRest sb lost P W s p path omode r s' := by
  cases path with
  | none =>
    exact ⟨h.unchanged h.run rfl, iff_of_true (fun _ => rfl) (.inr (.inr fun _ hq => nomatch hq))⟩
  | some path =>
  obtain ⟨cwd, hcwd, hmem⟩ := h.cwd_ref hp hst
  have hget : (s.proc p).cwd.getD 0 = cwd := by rw [hcwd]; rfl
  unfold sysOpen
  refine (cwdOf_some hcwd).bind ?_
  rintro c s1 ⟨rfl, hc⟩
  subst c
  refine Thread.Sat.bind
    (onFs_sat (openInode_run h.run hmem ⟨hP.root, hP.cwd p hp cwd hcwd⟩ hP.closed hP.safe h.alive
    fun e he => hP.panic he)) ?_
  rintro r s2 ⟨fs, rfl, hr⟩
  rcases hr with ⟨rfl, hr, hnode, hfail⟩ | ⟨ip, i, m, rfl, hr, hm, hd, ho, hok⟩
  · refine ⟨h.unchanged hr hnode, iff_of_true (fun _ => hnode) ?_⟩
    by_cases hc : omode &&& oCreate = 0
    · exact .inl hc
    · refine .inr (.inr fun q hq => ?_)
      cases hq
      rw [hget]
      exact hfail hc
  have hev : Evolves (s1.refs.map Prod.snd) P W s1.fs.node fs.node :=
    (ho.evolves fun _ hj => hj).names (hW path rfl)
  have h2 : Sound sb lost { s1 with fs := fs } [] [] [(ip, i)] [ip] 1 := h.toSound.onFs hr hev.kept
  refine Thread.Sat.bind (Thread.sat_step (filealloc_sat h2)) ?_
  rintro r s3 (⟨rfl, rfl, hfull⟩ | ⟨f, rfl, hf, h0, rfl, h3⟩)
  · exact openFail_sat h hP hcwd hr (fun hh => hh.1.elim fun f hf =>
      hfull f hf.1 hf.2) ho hok (hW path rfl)
  refine Thread.Sat.bind (Thread.sat_step fdalloc_sat) ?_
  rintro r s4 (⟨rfl, rfl, hfull⟩ | ⟨fd, rfl, hfd, hfree, rfl⟩)
  · have ht := h2.tables.free f hf h0
    refine Thread.Sat.bind (fileclose_fresh (congrArg File.ref Sys.setFile_self)
      ((congrArg File.type Sys.setFile_self).trans ht)) ?_
    rintro _ s5 rfl
    rw [Sys.alloc_close h0 ht]
    exact openFail_sat h hP hcwd hr (fun hh => hh.2.elim fun fd hfd =>
      hfull fd hfd.1 hfd.2) ho hok (hW path rfl)
  · have hidle : ¬ ((s1.proc p).state = .unused ∨ (s1.proc p).state = .zombie) := by simp [hst]
    have h4 := h3.setOfile hp (h3.tables.give hp hfd hfree hidle)
    refine Thread.Sat.bind
      (Thread.sat_step (openFile_sat h4 hf (congrArg File.ref Sys.setFile_self) hm hd)) ?_
    rintro _ s5 ⟨h5, hfs5, hproc5, hmem5⟩
    refine Thread.Sat.bind
      (onFs_sat (openDone_run h5.run hmem5 (by rw [hfs5]; exact hm) fun e he => hP.panic he)) ?_
    rintro _ s6 ⟨fs', rfl, hr', hminors⟩
    rw [hfs5] at hminors
    have hlast : ((fd : Nat) : Int) ≠ -1 := by omega
    refine ⟨(h5.onFs hr' ?_).called h (fun q => ?_) ?_ hlast,
      iff_of_true (fun hh => absurd hh hlast) (.inr (.inl ⟨⟨f, hf, h0⟩, fd, hfd, hfree⟩))⟩
    · rw [hfs5]
      exact (hminors _).kept
    · change (s5.proc q).state = _ ∧ (s5.proc q).cwd = _
      rw [hproc5]
      exact Sys.setOfile_rest _ (some f) q
    · exact (hev.mono fun _ hi => absurd hi not_mem_nil).minors (hminors [])

/-- What holds after the other calls on paths. -/
def PathCalled (sb : Superblock) (lost P : Nat → Prop) (W : List UInt8 → Prop) (s s' : Sys)
    (r : Int) : Prop :=
  Called sb lost P W s s' r ∧ (r = -1 → s'.fs.node = s.fs.node)

variable (h : SysInv sb lost s)
include h

lemma SysInv.pathUnchanged (hr : Run sb lost fs s.refs [] 0)
    (hn : fs.node = s.fs.node) : PathCalled sb lost P W s { s with fs := fs } r :=
  ⟨h.unchanged hr hn, fun _ => hn⟩

lemma endOp_sat (hr : Run sb lost fs s.refs [] 1)
    (hn : fs.node = s.fs.node) :
    Thread.Sat (do onFs (fsStep Fs.endOp); pure r) { s with fs := fs } E fun r s' =>
    PathCalled sb lost P W s s' r := by
  refine Thread.Sat.bind (onFs_sat (endOp_run hr)) ?_
  rintro _ s2 ⟨fs', rfl, hr', hnode'⟩
  exact h.pathUnchanged hr' (hnode'.trans hn)

lemma sysMake_sat {path : Option (List UInt8)} {type major minor : Nat} (hP : Paths E P s)
    (hp : p < nproc) (hst : (s.proc p).state = .runnable) (ht : type % 2 ^ 16 ≠ 0)
    (htype : type < 2 ^ 16)
    (hW : ∀ q, path = some q → ∀ name ∈ pathElems q.length q, W name) :
    Thread.Sat (sysMake p path type major minor) s E fun r s' => PathCalled sb lost P W s s' r := by
  obtain ⟨cwd, hcwd, hmem⟩ := h.cwd_ref hp hst
  unfold sysMake
  refine Thread.Sat.bind (onFs_sat (beginOp_run h.run)) ?_
  rintro _ s1 ⟨fs, rfl, hr, hnode⟩
  cases path with
  | none => exact endOp_sat h hr hnode
  | some path =>
  refine (cwdOf_some (s := { s with fs := fs }) hcwd).bind ?_
  rintro c s1 ⟨rfl, hc⟩
  subst c
  have hdone : Thread.Upholds FsInv (create p cwd path type major minor) fs E _ :=
    create_run hr le_rfl hmem
    ⟨hP.root, hP.cwd p hp cwd hcwd⟩ (by rw [hnode]; exact hP.closed) (by rw [hnode]; exact hP.safe)
    (by rw [hnode]; exact h.alive) ht fun e he => hP.panic he
  refine Thread.Sat.bind (onFs_sat (s := { s with fs := fs }) hdone) ?_
  rintro r s2 ⟨fs2, rfl, hr2⟩
  rcases hr2 with ⟨rfl, hr2, hnode2⟩ | ⟨ip, i, rfl, hr2, hcr⟩
  · exact endOp_sat h hr2 (hnode2.trans hnode)
  refine Thread.Sat.bind
    (onFs_sat (s := { s with fs := fs2 }) (iunlockput_run hr2 le_rfl (L := []) (by simp) fun e he =>
      hP.panic he)) ?_
  rintro _ s3 ⟨fs3, rfl, hr3, hnode3⟩
  refine Thread.Sat.bind (onFs_sat (s := { s with fs := fs3 }) (endOp_run hr3)) ?_
  rintro _ s4 ⟨fs4, rfl, hr4, hnode4⟩
  refine ⟨h.fsCall hr4 (fun i (hi : i ∈ s.refs.map Prod.snd) => hi) ?_, fun hh => absurd hh (by decide)⟩
  rw [hnode4, hnode3]
  rw [hnode] at hcr
  exact ((hcr.evolves htype fun _ hj => hj).names (hW path rfl)).minors
    (putNode_minors (fun _ hj => hj) i)

lemma sysLink_sat {old new : List UInt8} (hP : Paths E P s) (hp : p < nproc)
    (hcwd : (s.proc p).cwd = some cwd) (hmem : (cwd, (s.fs.itable cwd).inum) ∈ s.refs)
    (hW : ∀ name ∈ pathElems new.length new, W name) :
    Thread.Sat (onFs (sysLink p cwd old new)) s E fun r s' => PathCalled sb lost P W s s' r := by
  refine (onFs_sat (sysLink_run h.run hmem ⟨hP.root, hP.cwd p hp cwd hcwd⟩ hP.closed hP.safe
    fun e he => hP.panic he)).imp ?_
  rintro r s1 ⟨fs, rfl, hr, hres⟩
  rcases hres with ⟨rfl, hnode⟩ | ⟨rfl, hmade⟩
  · exact h.pathUnchanged hr hnode
  · exact ⟨h.fsCall hr (fun i (hi : i ∈ s.refs.map Prod.snd) => hi)
      ((hmade.evolves fun _ hj => hj).names hW), fun hh => absurd hh (by decide)⟩

lemma sysUnlink_sat (hP : Paths E P s) (hp : p < nproc)
    (hcwd : (s.proc p).cwd = some cwd) (hmem : (cwd, (s.fs.itable cwd).inum) ∈ s.refs) :
    Thread.Sat (onFs (sysUnlink p cwd path)) s E fun r s' => PathCalled sb lost P W s s' r := by
  refine (onFs_sat (sysUnlink_run h.run hmem ⟨hP.root, hP.cwd p hp cwd hcwd⟩ hP.closed hP.safe
    (.inl (hP.panics _ (by simp [sysPanics, fsPanics]))) fun e he => hP.panic he)).imp ?_
  rintro r s1 ⟨fs, rfl, hr, hres⟩
  rcases hres with ⟨rfl, hnode⟩ | ⟨rfl, hgone⟩
  · exact h.pathUnchanged hr hnode
  · exact ⟨h.fsCall hr (fun i (hi : i ∈ s.refs.map Prod.snd) => hi) (hgone.evolves fun _ hj => hj),
      fun hh => absurd hh (by decide)⟩

omit h

end

end Xv6
