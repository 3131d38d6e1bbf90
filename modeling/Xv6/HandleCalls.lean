import Xv6.SysCalls

/-! The calls on descriptors, and `chdir`, `fork`, `exit` and `wait`. -/

namespace Xv6

open Kern List
open Function (update_apply update_comm update_of_ne)

section

variable {sb : Superblock} {lost : Nat → Prop} {s s' t : Sys} {pend fresh : List Nat}
  {held : List (Nat × Nat)}
  {locked : List Nat} {n f p q fd ip i : Nat} {E : Panics} {P : Nat → Prop} {W : List UInt8 → Prop}

variable {r x ext : Int} {g f0 f1 : Nat} {off k : UInt32} {src : Src} {v : Option Nat}

lemma SysInv.same (h : SysInv sb lost s) : Called sb lost P W s s r := h.unchanged h.run rfl

lemma modify_sat {g : Sys → Sys} : Thread.Sat (sysStep (modifyState g)) s E fun _ s' => s' = g s :=
  Thread.sat_step (sat_modifyState.mpr rfl)

lemma getState_sat : Thread.Sat (sysStep getState) s E fun r s' => s' = s ∧ r = s :=
  Thread.sat_step (sat_getState.mpr ⟨rfl, rfl⟩)

lemma SysInv.handle (h : SysInv sb lost s) (hp : p < nproc) (hfd : fd < nofile)
    (hof : (s.proc p).ofile fd = some f) : f < nfile ∧ 0 < (s.file f).ref :=
  h.tables.handle_pos (Tables.mem_handles hp hfd hof)

lemma sysDup_sat (h : SysInv sb lost s) (hp : p < nproc) (hst : (s.proc p).state = .runnable) :
    Thread.Sat (sysDup p x) s E fun r s' => Called sb lost P W s s' r := by
  unfold sysDup
  refine Thread.Sat.bind (Thread.sat_step argfd_sat) ?_
  rintro r s1 ⟨rfl, hfd⟩
  cases r with
  | none => exact h.same
  | some y =>
  obtain ⟨fd₀, f⟩ := y
  obtain ⟨hlt, hof⟩ := hfd fd₀ f rfl
  obtain ⟨hf, hpos⟩ := h.handle hp hlt hof
  refine Thread.Sat.bind (Thread.sat_step fdalloc_sat) ?_
  rintro r s2 (⟨rfl, rfl, -⟩ | ⟨fd, rfl, hfd', hfree, rfl⟩)
  · exact h.same
  refine Thread.Sat.bind (Thread.sat_step (filedup_sat (s := s1.setOfile p fd (some f)) hpos)) ?_
  rintro _ s3 ⟨rfl, rfl⟩
  have hidle : ¬ ((s1.proc p).state = .unused ∨ (s1.proc p).state = .zombie) := by simp [hst]
  have h₃ := h.setRef hf (Nat.succ_pos _) hpos (h.tables.incRef hf hpos)
  exact (h₃.setOfile hp (h₃.tables.give hp hfd' hfree hidle)).called h (Sys.setOfile_rest _ _)
    (Evolves.of_eq rfl) (by omega)

lemma FileClosed.sound (hc : FileClosed s s' f)
    (h : Sound sb lost { s' with proc := s.proc } pend fresh held locked n) :
    Sound sb lost s' pend fresh held locked n := by
  rw [← hc.proc] at h
  exact h

lemma sysClose_sat (h : SysInv sb lost s) (hp : p < nproc) (hE : ∀ e ∈ stepPanics, E e) :
    Thread.Sat (sysClose p x) s E fun r s' => Called sb lost P W s s' r := by
  unfold sysClose
  refine Thread.Sat.bind (Thread.sat_step argfd_sat) ?_
  rintro r s1 ⟨rfl, hfd⟩
  cases r with
  | none => exact h.same
  | some y =>
  obtain ⟨fd, f⟩ := y
  obtain ⟨hlt, hof⟩ := hfd fd f rfl
  refine modify_sat.bind ?_
  rintro _ s2 rfl
  have h₂ := h.setOfile hp (h.tables.take hp hlt hof)
  refine (fileclose_sat (s := s1.setOfile p fd none) (g := (s1.setOfile p fd none).proc) h₂ hE).bind ?_
  rintro _ s3 ⟨h₃, hc, hm⟩
  refine (hc.sound h₃).called h (fun q => ?_) hm.evolves (by decide)
  rw [hc.proc]
  exact Sys.setOfile_rest _ none q

lemma Sound.setOff (h : Sound sb lost s pend fresh held locked n) (hf : f < nfile) :
    Sound sb lost (s.setFile f { s.file f with off := off }) pend fresh held locked n := by
  refine h.files rfl ?_ ?_ (Sys.slots_setFile hf rfl) ?_
  · exact h.tables.setFile (h.tables.count f hf) (fun _ _ => rfl)
      (fun g hg => h.tables.lt g (mem_append_left _ hg)) (h.tables.free f hf) (h.tables.typed f hf)
      fun _ _ => Iff.rfl
  · exact h.pipes.setFile (fun _ _ => Iff.rfl) fun hr ht => ⟨hr, ht⟩
  · exact h.writes.setFile fun hr hi hw => ⟨hr, hi, hw, rfl⟩

lemma Sys.mem_refs_file (hf : f < nfile) (hpos : 0 < (s.file f).ref)
    (hty : (s.file f).type = .inode ∨ (s.file f).type = .device) :
    ((s.file f).ip, (s.fs.itable (s.file f).ip).inum) ∈ s.refs := by
  refine mem_refs.mpr ⟨mem_append_left _ (mem_gather.mpr ⟨f, hf, ?_⟩), rfl⟩
  rw [File.slots, if_pos ⟨hpos, hty⟩]
  exact mem_singleton.mpr rfl

structure OnFile (sb : Superblock) (lost : Nat → Prop) (f : Nat) (s s' : Sys) : Prop where
  sound : Sound sb lost s' [] [] [] [] 0
  minors : Minors [] s.fs.node s'.fs.node
  proc : s'.proc = s.proc
  pipes : s'.pipes = s.pipes ∧ s'.freed = s.freed
  file : ∃ off, s'.file f = { s.file f with off := off }

lemma OnFile.refl (h : Sound sb lost s [] [] [] [] 0) : OnFile sb lost f s s :=
  ⟨h, Minors.refl, rfl, ⟨rfl, rfl⟩, (s.file f).off, rfl⟩

lemma OnFile.trans {s1 s2 : Sys} (h : OnFile sb lost f s s1) (h' : OnFile sb lost f s1 s2) :
    OnFile sb lost f s s2 := by
  obtain ⟨o, ho⟩ := h.file
  obtain ⟨o', ho'⟩ := h'.file
  refine ⟨h'.sound, h.minors.trans h'.minors, h'.proc.trans h.proc,
    ⟨h'.pipes.1.trans h.pipes.1, h'.pipes.2.trans h.pipes.2⟩, o', ?_⟩
  rw [ho', ho]

lemma OnFile.called (h' : OnFile sb lost f s s') (h : SysInv sb lost s) :
    Called sb lost P W s s' r := by
  refine ⟨h'.sound.sysInv fun q hq hst => ?_, h'.minors.evolves,
    fun _ => .of_tables h.tables h'.sound.tables (fun p _ fd _ => ?_) fun k _ => ?_⟩
  · rw [h'.proc] at hst ⊢
    exact h.live q hq hst
  · rw [h'.proc]
  · rw [h'.pipes.1, h'.pipes.2]
    exact ⟨rfl, rfl⟩

lemma Sound.onFile {fs : Fs} (h : Sound sb lost s [] [] [] [] 0) (hf : f < nfile)
    (hr : Run sb lost fs s.refs [] 0) (hm : ∀ keep, Minors keep s.fs.node fs.node) :
    OnFile sb lost f s ({ s with fs := fs }.setFile f { s.file f with off := off }) :=
  ⟨(h.onFs hr (hm _).kept).setOff (s := { s with fs := fs }) hf, hm [], rfl, ⟨rfl, rfl⟩, off,
    Sys.setFile_self⟩

lemma Sys.setOff_self : s.setFile f { s.file f with off := (s.file f).off } = s := by simp [setFile]

lemma fileread_sat {dst : Dst} (h : SysInv sb lost s) (hf : f < nfile)
    (hpos : 0 < (s.file f).ref) (hE : ∀ e ∈ stepPanics, E e) :
    Thread.Sat (fileread p f dst k ext) s E fun _ s' => OnFile sb lost f s s' := by
  have hself : OnFile sb lost f s s := .refl h.toSound
  unfold fileread
  refine getState_sat.bind ?_
  rintro x s1 ⟨rfl, hx⟩
  subst x
  dsimp only
  split
  · exact hself
  cases hty : (s1.file f).type with
  | none => exact absurd ((h.tables.typed f hf hpos).mp hty) not_mem_nil
  | pipe => exact hself
  | device =>
    dsimp only
    split
    · exact hself
    · exact hself
  | inode =>
    have hmem := Sys.mem_refs_file hf hpos (.inl hty)
    refine Thread.Sat.bind (onFs_sat (ilock_run h.run hmem (.inr (h.alive hmem)))) ?_
    rintro _ s2 ⟨fs2, rfl, hr2, hnode2, -⟩
    refine Thread.Sat.bind (onFs_sat (s := { s1 with fs := fs2 }) (readi_run hr2 hmem mem_cons_self)) ?_
    rintro ⟨r, d⟩ s3 ⟨fs3, rfl, rfl⟩
    have hnext : ∀ off, Thread.Sat (do onFs (iunlock p (s1.file f).ip); pure r)
        ({ s1 with fs := fs3 }.setFile f { s1.file f with off := off }) E fun _ s' =>
        OnFile sb lost f s1 s' := by
      intro off
      refine Thread.Sat.bind (onFs_sat (iunlock_run hr2 hmem hE)) ?_
      rintro _ s5 ⟨fs5, rfl, hr5, hnode5⟩
      exact h.toSound.onFile hf (hr5.forget (by simp)) fun keep => Minors.of_eq (hnode5.trans hnode2)
    dsimp only
    split
    · refine modify_sat.bind ?_
      rintro _ _ rfl
      exact hnext _
    · have hsame := hnext (s1.file f).off
      rw [Sys.setOff_self (s := { s1 with fs := fs3 })] at hsame
      exact hsame

lemma filewriteLoop_sat {rem k : Nat} (h : Sound sb lost s [] [] [] [] 0) (hf : f < nfile)
    (hpos : 0 < (s.file f).ref) (hty : (s.file f).type = .inode) (hw : (s.file f).writable = true)
    (hip : (s.file f).ip = ip) (hE : ∀ e ∈ stepPanics, E e) :
    Thread.Sat (filewriteLoop p f ip src rem k) s E fun _ s' => OnFile sb lost f s s' := by
  induction rem using Nat.strong_induction_on generalizing s k with
  | _ rem ih =>
  unfold filewriteLoop
  split
  · exact OnFile.refl h
  next hrem =>
    have hmem := Sys.mem_refs_file hf hpos (.inl hty)
    rw [hip] at hmem
    obtain ⟨m, hm⟩ := Option.ne_none_iff_exists'.mp (h.alive hmem)
    have hdir : m.type ≠ tDir := h.writes f hf hpos hty hw m (by rw [hip]; exact hm)
    refine Thread.Sat.bind (onFs_sat (beginOp_run h.run)) ?_
    rintro _ s1 ⟨fs1, rfl, hr1, hnode1⟩
    refine Thread.Sat.bind
      (onFs_sat (s := { s with fs := fs1 })
        (ilock_run hr1 hmem (.inr (by rw [hnode1]; exact h.alive hmem)))) ?_
    rintro _ s2 ⟨fs2, rfl, hr2, hnode2, -⟩
    refine getState_sat.bind ?_
    rintro x s3 ⟨rfl, hx⟩
    subst x
    have hm2 : fs2.node (s.fs.itable ip).inum = some m := by rw [hnode2, hnode1, hm]
    refine Thread.Sat.bind
      (onFs_sat (s := { s with fs := fs2 }) (writei_run hr2 hmem mem_cons_self le_rfl hm2 hdir)) ?_
    rintro r s4 ⟨fs4, rfl, hr4, hminors⟩
    have hnext : ∀ off, Thread.Sat (do
          onFs (iunlock p ip)
          onFs (fsStep Fs.endOp)
          if r ≠ (min rem writeMax : Nat) then pure k
          else filewriteLoop p f ip src (rem - min rem writeMax) (k + min rem writeMax))
        ({ s with fs := fs4 }.setFile f { s.file f with off := off }) E fun _ s' =>
        OnFile sb lost f s s' := by
      intro off
      refine Thread.Sat.bind (onFs_sat (iunlock_run hr4 hmem hE)) ?_
      rintro _ s6 ⟨fs6, rfl, hr6, hnode6⟩
      refine Thread.Sat.bind (onFs_sat (endOp_run (hr6.forget (L := []) (by simp)))) ?_
      rintro _ s7 ⟨fs7, rfl, hr7, hnode7⟩
      have hstep :
        OnFile sb lost f s ({ s with fs := fs7 }.setFile f { s.file f with off := off }) := by
        refine h.onFile hf hr7 fun keep => ?_
        rw [hnode7, hnode6]
        have hkeep := hminors keep
        rw [hnode2, hnode1] at hkeep
        exact hkeep
      split
      · exact hstep
      · have hfile : ({ s with fs := fs7 }.setFile f { s.file f with off := off }).file f =
          { s.file f with off := off } :=
          Sys.setFile_self
        refine (ih _ ?_ hstep.sound ?_ ?_ ?_ ?_).imp fun _ _ h' => hstep.trans h'
        · have hmax : 0 < writeMax := by decide
          omega
        · rw [hfile]; exact hpos
        · rw [hfile]; exact hty
        · rw [hfile]; exact hw
        · rw [hfile]; exact hip
    dsimp only
    split
    · refine modify_sat.bind ?_
      rintro _ _ rfl
      exact hnext _
    · have hsame := hnext (s.file f).off
      rw [Sys.setOff_self (s := { s with fs := fs4 })] at hsame
      exact hsame

lemma filewrite_sat {k : Int} (h : SysInv sb lost s) (hf : f < nfile)
    (hpos : 0 < (s.file f).ref) (hE : ∀ e ∈ stepPanics, E e) :
    Thread.Sat (filewrite p f src k ext) s E fun _ s' => OnFile sb lost f s s' := by
  have hself : OnFile sb lost f s s := .refl h.toSound
  unfold filewrite
  refine getState_sat.bind ?_
  rintro x s1 ⟨rfl, hx⟩
  subst x
  dsimp only
  split
  · exact hself
  next hw =>
  cases hty : (s1.file f).type with
  | none => exact absurd ((h.tables.typed f hf hpos).mp hty) not_mem_nil
  | pipe => exact hself
  | device =>
    dsimp only
    split
    · exact hself
    · exact hself
  | inode =>
    exact (filewriteLoop_sat h.toSound hf hpos hty (by simpa using hw) rfl hE).bind fun _ _ h' => h'

lemma sysRead_sat {dst : Dst} (h : SysInv sb lost s) (hp : p < nproc)
    (hE : ∀ e ∈ stepPanics, E e) : Thread.Sat (sysRead p x dst k ext) s E fun r s' =>
    Called sb lost P W s s' r := by
  unfold sysRead
  refine Thread.Sat.bind (Thread.sat_step argfd_sat) ?_
  rintro r s1 ⟨rfl, hfd⟩
  cases r with
  | none => exact h.same
  | some y =>
    obtain ⟨fd, f⟩ := y
    obtain ⟨hf, hpos⟩ := h.handle hp (hfd fd f rfl).1 (hfd fd f rfl).2
    exact (fileread_sat h hf hpos hE).imp fun _ _ h' => h'.called h

lemma sysWrite_sat {k : Int} (h : SysInv sb lost s) (hp : p < nproc)
    (hE : ∀ e ∈ stepPanics, E e) : Thread.Sat (sysWrite p x src k ext) s E fun r s' =>
    Called sb lost P W s s' r := by
  unfold sysWrite
  refine Thread.Sat.bind (Thread.sat_step argfd_sat) ?_
  rintro r s1 ⟨rfl, hfd⟩
  cases r with
  | none => exact h.same
  | some y =>
    obtain ⟨fd, f⟩ := y
    obtain ⟨hf, hpos⟩ := h.handle hp (hfd fd f rfl).1 (hfd fd f rfl).2
    exact (filewrite_sat h hf hpos hE).imp fun _ _ h' => h'.called h

lemma Tables.perm {pend' fresh' : List Nat} (h : Tables s pend fresh) (hp : pend'.Perm pend)
    (hf : ∀ g, g ∈ fresh' ↔ g ∈ fresh) : Tables s pend' fresh' where
  count := fun g hg => by rw [h.count g hg, (hp.append_right s.handles).count_eq]
  lt := fun g hg => h.lt g ((hp.append_right s.handles).mem_iff.mp hg)
  free := h.free
  typed := fun g hg hr => (h.typed g hg hr).trans (hf g).symm
  idle := h.idle

lemma Sys.setFile_comm {v w : File} (hne : f ≠ g) :
    (s.setFile f v).setFile g w = (s.setFile g w).setFile f v := by
  unfold setFile
  rw [update_comm hne]

lemma Sys.alloc_close_two (hne : f ≠ g) (h0 : (s.file f).ref = 0) (ht : (s.file f).type = .none)
    {A B : Sys} (hA : A = s.setFile f { s.file f with ref := 1 })
    (hB : B = A.setFile g { A.file g with ref := 1 }) :
    B.setFile f { B.file f with ref := 0, type := .none } = s.setFile g { s.file g with ref := 1 } := by
  have hBf : B.file f = A.file f := by rw [hB, setFile_of_ne hne]
  have hAg : A.file g = s.file g := by rw [hA, setFile_of_ne (Ne.symm hne)]
  rw [hBf, hB, setFile_comm (Ne.symm hne), hA, alloc_close h0 ht, setFile_of_ne (Ne.symm hne)]

structure NewPipe (sb : Superblock) (lost : Nat → Prop) (s₀ s : Sys) (f0 f1 : Nat) : Prop where
  sound : Sound sb lost s [f0, f1] [] [] [] 0
  fs : s.fs = s₀.fs
  proc : s.proc = s₀.proc
  pipes : ∀ k < s₀.npipe, s.pipes k = s₀.pipes k ∧ s.freed k = s₀.freed k
  ne : f0 ≠ f1
  ends : ∀ f, f = f0 ∨ f = f1 → (s.file f).type = .pipe ∧ ∀ k < s₀.npipe, ∀ w, ¬ (s.file f).IsEnd k w

lemma Sys.withPipe_file0 (hne : f0 ≠ f1) : (s.withPipe f0 f1).file f0 =
    { s.file f0 with type := .pipe, readable := true, writable := false, pipe := s.npipe } := by
  simp [withPipe, setFile, setPipe, update_of_ne hne]

lemma Sys.withPipe_file1 (hne : f0 ≠ f1) : (s.withPipe f0 f1).file f1 =
    { s.file f1 with type := .pipe, readable := false, writable := true, pipe := s.npipe } := by
  simp [withPipe, setFile, setPipe, update_of_ne (Ne.symm hne)]

lemma Sound.withPipe (h : Sound sb lost s [f1, f0] [f1, f0] [] [] 0) (hne : f0 ≠ f1)
    (h0 : (s.file f0).ref = 1) (h1 : (s.file f1).ref = 1) :
    NewPipe sb lost s (s.withPipe f0 f1) f0 f1 := by
  have hlt1 := h.tables.pend_lt
  have hlt0 : f0 < nfile := h.tables.lt f0 (by simp)
  have ht0 : (s.file f0).type = .none := (h.tables.typed f0 hlt0 (by omega)).mpr (by simp)
  have ht1 : (s.file f1).type = .none := (h.tables.typed f1 hlt1 (by omega)).mpr (by simp)
  have hpipes := h.pipes.withPipe hne hlt0 hlt1 (by omega) (by omega) ht0 ht1
  -- the two files, without the pipe
  let v0 : File :=
    { s.file f0 with type := .pipe, readable := true, writable := false, pipe := s.npipe }
  let v1 : File :=
    { s.file f1 with type := .pipe, readable := false, writable := true, pipe := s.npipe }
  have hfile : (s.withPipe f0 f1).file = ((s.setFile f0 v0).setFile f1 v1).file := by
    simp [Sys.withPipe, Sys.setFile, Sys.setPipe, v0, v1, update_of_ne (Ne.symm hne)]
  have hof1 : (s.setFile f0 v0).file f1 = s.file f1 := Sys.setFile_of_ne (Ne.symm hne)
  have htab : Tables s [f0, f1] [f0, f1] :=
    h.tables.perm (List.Perm.swap f1 f0 []) fun g => by simp [or_comm]
  have htab0 : Tables (s.setFile f0 v0) [f0, f1] [f1] :=
    htab.setup hlt0 rfl (by omega) (by simp [v0]) (by simpa using hne)
  have htab1 : Tables ((s.setFile f0 v0).setFile f1 v1) [f0, f1] [] :=
    htab0.setup hlt1 (by rw [hof1]) (by rw [hof1]; omega) (by simp [v1]) not_mem_nil
  have hslots : ((s.setFile f0 v0).setFile f1 v1).slots.Perm s.slots := by
    refine (Sys.slots_setFile hlt1 ?_).trans (Sys.slots_setFile hlt0 ?_)
    · rw [hof1]
      simp [File.slots, v1, ht1]
    · simp [File.slots, v0, ht0]
  have hwrites : ((s.setFile f0 v0).setFile f1 v1).Writes :=
    (h.writes.setFile fun _ hi => by simp [v0] at hi).setFile fun _ hi => by simp [v1] at hi
  refine ⟨h.files rfl (htab1.congr hfile rfl) hpipes ?_ (hwrites.congr hfile rfl), rfl,
    rfl, ?_, hne, ?_⟩
  · rw [Sys.slots_congr hfile rfl]
    exact hslots
  · intro k hk
    refine ⟨?_, rfl⟩
    simp [Sys.withPipe, Sys.setFile, Sys.setPipe, update_of_ne (Nat.ne_of_lt hk)]
  · rintro f (rfl | rfl)
    · rw [Sys.withPipe_file0 hne]
      exact ⟨rfl, fun k hk w he => Nat.ne_of_gt hk he.2.2.1⟩
    · rw [Sys.withPipe_file1 hne]
      exact ⟨rfl, fun k hk w he => Nat.ne_of_gt hk he.2.2.1⟩

lemma pipealloc_sat {page : Bool} (h : SysInv sb lost s) : Thread.Sat (pipealloc p page) s E fun r s' =>
    (r = none ∧ s' = s) ∨ ∃ f0 f1, r = some (f0, f1) ∧ NewPipe sb lost s s' f0 f1 := by
  unfold pipealloc
  refine Thread.Sat.bind (Thread.sat_step (filealloc_sat h.toSound)) ?_
  rintro r s1 (⟨rfl, rfl, -⟩ | ⟨f0, rfl, hf0, h0, hs1, h₁⟩)
  · exact .inl ⟨rfl, rfl⟩
  have ht0 := h.tables.free f0 hf0 h0
  have hr0 : (s1.file f0).ref = 1 := by rw [hs1, Sys.setFile_self]
  refine Thread.Sat.bind (Thread.sat_step (filealloc_sat h₁)) ?_
  rintro r s2 (⟨rfl, rfl, -⟩ | ⟨f1, rfl, hf1, h1, hs2, h₂⟩)
  · refine Thread.Sat.bind (fileclose_fresh hr0 (by rw [hs1, Sys.setFile_self]; exact ht0)) ?_
    rintro _ s3 rfl
    rw [hs1, Sys.alloc_close h0 ht0]
    exact .inl ⟨rfl, rfl⟩
  have hne : f0 ≠ f1 := by
    rintro rfl
    omega
  have hs1f1 : s1.file f1 = s.file f1 := by rw [hs1, Sys.setFile_of_ne (Ne.symm hne)]
  rw [hs1f1] at h1
  have ht1 := h.tables.free f1 hf1 h1
  have hs2f0 : s2.file f0 = s1.file f0 := by rw [hs2, Sys.setFile_of_ne hne]
  have hs2f1 : s2.file f1 = { s1.file f1 with ref := 1 } := by rw [hs2, Sys.setFile_self]
  cases page with
  | true =>
    refine modify_sat.bind ?_
    rintro _ s3 rfl
    have hnew := h₂.withPipe hne (by rw [hs2f0, hr0]) (by rw [hs2f1])
    refine Or.inr ⟨f0, f1, rfl, hnew.sound, ?_, ?_, ?_, hne, ?_⟩
    · rw [hnew.fs, hs2, hs1]
      rfl
    · rw [hnew.proc, hs2, hs1]
      rfl
    · intro k hk
      have hk' := hnew.pipes k (by rw [hs2, hs1]; exact hk)
      rw [hs2, hs1] at hk'
      rw [hs2, hs1]
      exact hk'
    · intro f hf
      obtain ⟨hty, hend⟩ := hnew.ends f hf
      exact ⟨hty, fun k hk => hend k (by rw [hs2, hs1]; exact hk)⟩
  | false =>
    have hback := Sys.alloc_close_two hne h0 ht0 hs1 hs2
    refine Thread.Sat.bind
      (fileclose_fresh (by rw [hs2f0, hr0]) (by rw [hs2f0, hs1, Sys.setFile_self]; exact ht0)) ?_
    rintro _ s3 rfl
    rw [hback]
    refine Thread.Sat.bind (fileclose_fresh (congrArg File.ref Sys.setFile_self)
      ((congrArg File.type Sys.setFile_self).trans ht1)) ?_
    rintro _ s4 rfl
    rw [Sys.alloc_close h1 ht1]
    exact .inl ⟨rfl, rfl⟩

lemma NewPipe.close_sat {s₀ : Sys} (h : NewPipe sb lost s₀ s f0 f1) (h₀ : SysInv sb lost s₀)
    (hE : ∀ e ∈ stepPanics, E e) :
    Thread.Sat (do fileclose p f0; fileclose p f1; pure (-1)) s E fun r s' =>
    Called sb lost P W s₀ s' r := by
  obtain ⟨ht0, hend0⟩ := h.ends f0 (.inl rfl)
  obtain ⟨ht1, hend1⟩ := h.ends f1 (.inr rfl)
  refine (fileclose_sat (g := s.proc) h.sound hE).bind ?_
  rintro _ s1 ⟨h₁, hc1, -⟩
  have hf1 : s1.file f1 = s.file f1 := hc1.files f1 (Ne.symm h.ne)
  refine (fileclose_sat (g := s1.proc) (hc1.sound h₁) hE).bind ?_
  rintro _ s2 ⟨h₂, hc2, -⟩
  have hproc : s2.proc = s₀.proc := by rw [hc2.proc, hc1.proc, h.proc]
  have hfs : s2.fs = s₀.fs := by rw [hc2.fs (by rw [hf1, ht1]), hc1.fs ht0, h.fs]
  have hs2 := hc2.sound h₂
  refine ⟨hs2.sysInv fun q hq hst => ?_, Evolves.of_eq (by rw [hfs]), fun _ =>
    .of_tables h₀.tables hs2.tables (fun q _ fd _ => by rw [hproc]) fun k hk => ?_⟩
  · rw [hproc] at hst ⊢
    exact h₀.live q hq hst
  · have hp1 := hc1.pipes k (hend0 k hk)
    have hp2 := hc2.pipes k (by rw [hf1]; exact hend1 k hk)
    have hp := h.pipes k hk
    exact ⟨hp2.1.trans (hp1.1.trans hp.1), hp2.2.trans (hp1.2.trans hp.2)⟩

lemma Sys.setOfile_ofile {x : Nat} : ((s.setOfile p fd v).proc p).ofile x =
    if x = fd then v else (s.proc p).ofile x := by
  unfold setOfile
  rw [setProc_self]
  exact update_apply _ _ _ _

lemma Sys.setOfile_undo (h0 : (s.proc p).ofile fd = none) :
    (s.setOfile p fd v).setOfile p fd none = s := by
  unfold setOfile setProc
  simp [← h0]

lemma Sys.setOfile_comm {fd' : Nat} {w : Option Nat} (hne : fd ≠ fd') :
    (s.setOfile p fd v).setOfile p fd' w = (s.setOfile p fd' w).setOfile p fd v := by
  unfold setOfile setProc
  simp [update_comm hne]

lemma sysPipe_sat {page out0 out1 : Bool} (h : SysInv sb lost s) (hp : p < nproc)
    (hst : (s.proc p).state = .runnable) (hE : ∀ e ∈ stepPanics, E e) :
    Thread.Sat (sysPipe p page out0 out1) s E fun r s' => Called sb lost P W s s' r := by
  unfold sysPipe
  refine (pipealloc_sat h).bind ?_
  rintro r s1 (⟨rfl, rfl⟩ | ⟨f0, f1, rfl, hnew⟩)
  · exact h.same
  refine Thread.Sat.bind (Thread.sat_step fdalloc_sat) ?_
  rintro r s2 (⟨rfl, rfl, -⟩ | ⟨fd0, rfl, hfd0, hfree0, rfl⟩)
  · exact hnew.close_sat h hE
  refine Thread.Sat.bind (Thread.sat_step fdalloc_sat) ?_
  rintro r s3 (⟨rfl, rfl, -⟩ | ⟨fd1, rfl, hfd1, hfree1, rfl⟩)
  · refine modify_sat.bind ?_
    rintro _ s4 rfl
    rw [Sys.setOfile_undo hfree0]
    exact hnew.close_sat h hE
  have hne : fd1 ≠ fd0 := by
    rintro rfl
    rw [Sys.setOfile_ofile, if_pos rfl] at hfree1
    cases hfree1
  have hfree1' : (s1.proc p).ofile fd1 = none := by rwa [Sys.setOfile_ofile, if_neg hne] at hfree1
  dsimp only
  split
  · have hidle : ¬ ((s1.proc p).state = .unused ∨ (s1.proc p).state = .zombie) := by
      rw [hnew.proc]
      simp [hst]
    have h₂ := hnew.sound.setOfile hp (hnew.sound.tables.give hp hfd0 hfree0 hidle)
    have h₃ := h₂.setOfile hp
      (h₂.tables.give hp hfd1 hfree1 (by rw [(Sys.setOfile_rest fd0 (some f0) p).1]; exact hidle))
    refine h₃.called h (fun q => ?_) (Evolves.of_eq (congrArg Fs.node hnew.fs)) (by decide)
    obtain ⟨h1, h2⟩ := Sys.setOfile_rest (s := s1.setOfile p fd0 (some f0)) (p := p) fd1 (some f1) q
    obtain ⟨h3, h4⟩ := Sys.setOfile_rest (s := s1) (p := p) fd0 (some f0) q
    rw [hnew.proc] at h3 h4
    exact ⟨h1.trans h3, h2.trans h4⟩
  · refine modify_sat.bind ?_
    rintro _ s4 rfl
    refine modify_sat.bind ?_
    rintro _ s5 rfl
    rw [Sys.setOfile_comm hne, Sys.setOfile_undo hfree0, Sys.setOfile_undo hfree1']
    exact hnew.close_sat h hE

end

end Xv6
