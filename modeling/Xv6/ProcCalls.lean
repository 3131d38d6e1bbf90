import Xv6.HandleCalls

/-! `chdir`, `fork`, `exit` and `wait`: current directories come and go. -/

namespace Xv6

open Kern List

section

variable {sb : Superblock} {lost : Nat → Prop} {s s' t : Sys} {pend fresh : List Nat}
  {held : List (Nat × Nat)}
  {locked : List Nat} {n f p q fd ip i : Nat} {E : Panics} {P : Nat → Prop} {W : List UInt8 → Prop}

variable {v : Proc} {fs : Fs} {fds : List Nat}

lemma Sys.slots_leave (hp : p < nproc) (hc : (s.proc p).cwd = some ip) (hv : v.cwd = none) :
    s.slots.Perm (ip :: (s.setProc p v).slots) := by
  rw [perm_iff_count]
  intro a
  have hx := Sys.count_slots_setProc (s := s) hp v a
  rw [hc, hv] at hx
  simp only [Option.toList_some, Option.toList_none, count_nil, count_cons] at hx ⊢
  omega

lemma Sys.slots_enter (hp : p < nproc) (hc : (s.proc p).cwd = none) (hv : v.cwd = some ip) :
    (s.setProc p v).slots.Perm (ip :: s.slots) := by
  rw [perm_iff_count]
  intro a
  have hx := Sys.count_slots_setProc (s := s) hp v a
  rw [hc, hv] at hx
  simp only [Option.toList_some, Option.toList_none, count_nil, count_cons] at hx ⊢
  omega

lemma Sound.leave (h : Sound sb lost s pend fresh held locked n) (hp : p < nproc)
    (hc : (s.proc p).cwd = some ip) :
    Sound sb lost (s.setProc p { s.proc p with cwd := none }) pend fresh
    ((ip, (s.fs.itable ip).inum) :: held) locked n :=
  h.release rfl (h.tables.setProc (fun _ _ => rfl) fun hst => ⟨rfl, (h.tables.idle p hp hst).2⟩)
    (h.pipes.setProc _ _) (Sys.slots_leave hp hc rfl) (h.writes.congr rfl rfl)

lemma Sound.enter (h : Sound sb lost s pend fresh ((ip, i) :: held) locked n) (hp : p < nproc)
    (hc : (s.proc p).cwd = none) (hidle : ¬ ((s.proc p).state = .unused ∨ (s.proc p).state = .zombie))
    (hne : s.fs.node i ≠ none) :
    Sound sb lost (s.setProc p { s.proc p with cwd := some ip }) pend fresh held locked n :=
  h.acquire rfl (h.tables.setProc (fun _ _ => rfl) fun hst => absurd hst hidle)
    (h.pipes.setProc _ _) (Sys.slots_enter hp hc rfl) (h.writes.congr rfl rfl) hne

lemma Sys.setProc_setProc {w : Proc} : (s.setProc p v).setProc p w = s.setProc p w := by
  unfold setProc
  simp

lemma Sound.moved {cwd : Nat} (h : Sound sb lost s [] [] [] [] 0) (hp : p < nproc)
    (hc : (s.proc p).cwd = some cwd) (hst : (s.proc p).state = .runnable)
    (hr : Run sb lost fs ((ip, i) :: (s.setProc p { s.proc p with cwd := none }).refs) [] 0)
    (hk : Minors ((s.setProc p { s.proc p with cwd := none }).refs.map Prod.snd) s.fs.node fs.node)
    (hne : fs.node i ≠ none) :
    Sound sb lost ({ s with fs := fs }.setProc p { s.proc p with cwd := some ip }) [] [] [] [] 0 := by
  have h1 : Sound sb lost { s.setProc p { s.proc p with cwd := none } with fs := fs } [] []
    [(ip, i)] [] 0 :=
    (h.leave hp hc).onFs hr hk.kept
  have hself : ({ s.setProc p { s.proc p with cwd := none } with fs := fs } : Sys).proc p =
    { s.proc p with cwd := none } :=
    Sys.setProc_self
  have h2 := h1.enter hp (by rw [hself]) (by rw [hself]; simp [hst]) hne
  rw [hself] at h2
  have hback : ({ s.setProc p { s.proc p with cwd := none } with fs := fs } : Sys).setProc p
    { s.proc p with cwd := some ip } =
      { s with fs := fs }.setProc p { s.proc p with cwd := some ip } :=
    Sys.setProc_setProc (s := { s with fs := fs })
  rw [← hback]
  exact h2

lemma sysChdir_sat {path : Option (List UInt8)} (h : SysInv sb lost s) (hP : Paths E P s)
    (hp : p < nproc) (hst : (s.proc p).state = .runnable) :
    Thread.Sat (sysChdir p path) s E fun r s' => Called sb lost P W s s' r := by
  obtain ⟨cwd, hcwd, hmem⟩ := h.cwd_ref hp hst
  have hE : ∀ e ∈ stepPanics, E e := fun e he => hP.panic he
  unfold sysChdir
  refine Thread.Sat.bind (onFs_sat (beginOp_run h.run)) ?_
  rintro _ s1 ⟨fs1, rfl, hr1, hnode1⟩
  cases path with
  | none => exact (endOp_sat h hr1 hnode1).imp fun _ _ h' => h'.1
  | some path =>
  refine (cwdOf_some (s := { s with fs := fs1 }) hcwd).bind ?_
  rintro c s1 ⟨rfl, hc⟩
  subst c
  refine Thread.Sat.bind (onFs_sat (s := { s with fs := fs1 }) (namei_run (P := P) hr1 le_rfl hmem
    ⟨hP.root, hP.cwd p hp cwd hcwd⟩ (by rw [hnode1]; exact hP.closed)
    (by rw [hnode1]; exact hP.safe) hE)) ?_
  rintro r s2 ⟨fs2, rfl, hnode2, hr2⟩
  rw [hnode1] at hnode2
  rcases hr2 with ⟨rfl, -, hr2⟩ | ⟨ip, i, rfl, -, hPi, hr2⟩
  · exact (endOp_sat h hr2 hnode2).imp fun _ _ h' => h'.1
  have hno : E "ilock: no type" ∨ fs2.node i ≠ none := by
    rw [hnode2]
    exact hP.safe.imp_right fun hh => hh i hPi
  refine Thread.Sat.bind (onFs_sat (s := { s with fs := fs2 }) (ilock_run hr2 mem_cons_self hno)) ?_
  rintro _ s3 ⟨fs3, rfl, hr3, hnode3, hsome⟩
  rw [hnode2] at hnode3 hsome
  obtain ⟨m, hm⟩ := Option.ne_none_iff_exists'.mp hsome
  refine Thread.Sat.bind
    (onFs_sat (s := { s with fs := fs3 }) (typeOf_run hr3 mem_cons_self mem_cons_self
    (by rw [hnode3]; exact hm))) ?_
  rintro type s4 ⟨fs4, rfl, -, rfl⟩
  split
  · refine Thread.Sat.bind (onFs_sat (s := { s with fs := fs4 }) (iunlockput_settled hr3 le_rfl
      (by rw [hnode3]; exact h.run.settled) (L := []) (by simp) hE)) ?_
    rintro _ s5 ⟨fs5, rfl, hr5, hnode5⟩
    exact (endOp_sat h hr5 (hnode5.trans hnode3)).imp fun _ _ h' => h'.1
  · -- the old directory is put while the new one is held
    refine Thread.Sat.bind (onFs_sat (s := { s with fs := fs4 }) (iunlock_run hr3 mem_cons_self hE)) ?_
    rintro _ s5 ⟨fs5, rfl, hr5, hnode5⟩
    have hleave := (h.toSound.leave hp hcwd).run
    have hperm : ((ip, i) :: s.refs).Perm ((cwd, (s.fs.itable cwd).inum) :: (ip, i) ::
        (s.setProc p { s.proc p with cwd := none }).refs) :=
      ((Sys.refs_cons (Sys.slots_leave hp hcwd rfl) rfl).cons _).trans (List.Perm.swap _ _ _)
    refine Thread.Sat.bind
      (onFs_sat (s := { s with fs := fs5 }) (iput_run ((hr5.forget (L := []) (by simp)).perm hperm)
      le_rfl (by simp) hE)) ?_
    rintro _ s6 ⟨fs6, rfl, hr6, hnode6⟩
    refine Thread.Sat.bind (onFs_sat (s := { s with fs := fs6 }) (endOp_run hr6)) ?_
    rintro _ s7 ⟨fs7, rfl, hr7, hnode7⟩
    refine modify_sat.bind ?_
    rintro _ s8 rfl
    have hnode :
      fs7.node = putNode s.fs.node ((ip, i) :: (s.setProc p { s.proc p with cwd := none }).refs)
        (s.fs.itable cwd).inum := by rw [hnode7, hnode6, hnode5, hnode3]
    have hminors :
      Minors ((s.setProc p { s.proc p with cwd := none }).refs.map Prod.snd) s.fs.node
      fs7.node := by
      rw [hnode]
      have hkeep : ∀ j ∈ (s.setProc p { s.proc p with cwd := none }).refs.map Prod.snd,
          j ∈ ((ip, i) :: (s.setProc p { s.proc p with cwd := none }).refs).map Prod.snd :=
        fun j hj => mem_cons_of_mem _ hj
      exact putNode_minors hkeep _
    have hi : fs7.node i = some m := by
      rw [hnode]
      exact putNode_some hm mem_cons_self
    have hs := h.toSound.moved hp hcwd hst hr7 hminors (by rw [hi]; exact Option.some_ne_none m)
    refine ⟨hs.sysInv fun q hq hst => ?_, (hminors.mono fun _ hj => absurd hj not_mem_nil).evolves,
      fun hh => absurd hh (by decide)⟩
    by_cases hqp : q = p
    · rw [hqp, Sys.setProc_self]
      exact Option.some_ne_none _
    · rw [Sys.setProc_of_ne hqp] at hst ⊢
      exact h.live q hq hst

lemma Sound.nextpid {k : Nat} (h : Sound sb lost s pend fresh held locked n) :
    Sound sb lost { s with nextpid := k } pend fresh held locked n :=
  h.files rfl (h.tables.congr rfl rfl)
    (h.pipes.congr (fun _ _ _ _ => Iff.rfl) (fun _ _ hr ht => ⟨hr, ht⟩) rfl rfl rfl)
    (List.Perm.of_eq (Sys.slots_congr rfl rfl)) (h.writes.congr rfl rfl)

lemma Sound.setState (h : Sound sb lost s pend fresh held locked n) (hq : q < nproc)
    (ho : v.ofile = (s.proc q).ofile) (hc : v.cwd = (s.proc q).cwd)
    (hidle : v.state = .unused ∨ v.state = .zombie → v.cwd = none ∧ ∀ fd < nofile, v.ofile fd = none) :
    Sound sb lost (s.setProc q v) pend fresh held locked n :=
  h.files rfl (h.tables.setProc (fun fd _ => by rw [ho]) hidle) (h.pipes.setProc _ _)
    (Sys.slots_setProc hq hc) (h.writes.congr rfl rfl)

lemma allocproc_sat : Sat allocproc s E fun r s' => (r = none ∧ s' = s) ∨
    ∃ q, r = some q ∧ q < nproc ∧ (s.proc q).state = .unused ∧
    s' = { s.setProc q { s.proc q with state := .used, pid := s.nextpid } with
      nextpid := s.nextpid + 1 } := by
  unfold allocproc
  rw [sat_bind, sat_getState]
  split
  next q hfind =>
    have h0 : (s.proc q).state = .unused := by simpa using List.find?_some hfind
    rw [sat_bind, sat_modifyState, sat_pure]
    exact .inr ⟨q, rfl, mem_range.mp (mem_of_find?_eq_some hfind), h0, rfl⟩
  next =>
    rw [sat_pure]
    exact .inl ⟨rfl, rfl⟩

structure Forking (sb : Superblock) (lost : Nat → Prop) (s t : Sys) (q : Nat) : Prop where
  sound : Sound sb lost t [] [] [] [] 0
  fs : t.fs = s.fs
  others : ∀ x ≠ q, t.proc x = s.proc x
  state : (t.proc q).state = .used
  cwd : (t.proc q).cwd = none
  pipes : t.pipes = s.pipes ∧ t.freed = s.freed

lemma SysInv.forking (h : SysInv sb lost s) (hq : q < nproc) (h0 : (s.proc q).state = .unused) :
    Forking sb lost s { s.setProc q { s.proc q with state := .used, pid := s.nextpid } with
      nextpid := s.nextpid + 1 } q := by
  have hself : (s.setProc q { s.proc q with state := .used, pid := s.nextpid }).proc q =
    { s.proc q with state := .used, pid := s.nextpid } := Sys.setProc_self
  have hs : Sound sb lost (s.setProc q { s.proc q with state := .used, pid := s.nextpid })
    [] [] [] [] 0 :=
    h.setState hq rfl rfl fun hh => by rcases hh with hh | hh <;> cases hh
  refine ⟨hs.nextpid, rfl, fun x hx => Sys.setProc_of_ne hx, ?_, ?_, rfl, rfl⟩
  · exact congrArg Proc.state hself
  · exact (congrArg Proc.cwd hself).trans (h.tables.idle q hq (.inl h0)).1

lemma forkFiles_sat (h : Forking sb lost s t q) (hq : q < nproc) (hp : p < nproc)
    (hlt : ∀ fd ∈ fds, fd < nofile) (hnd : fds.Nodup) (hnone : ∀ fd ∈ fds, (t.proc q).ofile fd = none) :
    Thread.Sat (forkFiles p q fds) t E fun _ t' => Forking sb lost s t' q := by
  induction fds generalizing t with
  | nil => exact h
  | cons fd fds ih =>
    obtain ⟨hnot, hnd⟩ := nodup_cons.mp hnd
    unfold forkFiles
    refine getState_sat.bind ?_
    rintro x t1 ⟨rfl, hx⟩
    subst x
    cases hof : (t1.proc p).ofile fd with
    | none =>
      exact ih h (fun x hx => hlt x (mem_cons_of_mem _ hx)) hnd fun x hx =>
        hnone x (mem_cons_of_mem _ hx)
    | some f =>
      have hfd := hlt fd mem_cons_self
      obtain ⟨hf, hpos⟩ := h.sound.tables.handle_pos (Tables.mem_handles hp hfd hof)
      refine Thread.Sat.bind (Thread.sat_step (filedup_sat hpos)) ?_
      rintro g t2 ⟨hg, rfl⟩
      subst g
      refine modify_sat.bind ?_
      rintro _ t3 rfl
      have h2 := h.sound.setRef hf (Nat.succ_pos _) hpos (h.sound.tables.incRef hf hpos)
      have h3 := h2.setOfile (v := some f) hq (h2.tables.give hq hfd (hnone fd mem_cons_self)
        (by intro hh; rcases hh with hh | hh <;> exact absurd (h.state.symm.trans hh) (by decide)))
      have hrest := fun x => Sys.setOfile_rest
        (s := t1.setFile f { t1.file f with ref := (t1.file f).ref + 1 }) (p := q) fd (some f) x
      refine ih ⟨h3, h.fs, fun x hx => ?_, (hrest q).1.trans h.state, (hrest q).2.trans h.cwd, h.pipes⟩
        (fun x hx => hlt x (mem_cons_of_mem _ hx)) hnd fun x hx => ?_
      · exact (Sys.setProc_of_ne hx).trans (h.others x hx)
      · rw [Sys.setOfile_ofile, if_neg fun hh : x = fd => hnot (hh ▸ hx)]
        exact hnone x (mem_cons_of_mem _ hx)

lemma idup_run {refs : List (Nat × Nat)} (h : Run sb lost fs refs locked n) (hip : (ip, i) ∈ refs) :
    Thread.Upholds FsInv (fsStep (idup ip)) fs E fun r fs' => r = ip ∧
    Run sb lost fs' ((ip, i) :: refs) locked n ∧ fs'.node = fs.node := by
  refine Thread.upholds_step h.inv ?_ fun _ _ h => h.2.1.inv
  unfold idup
  rw [sat_bind, sat_modifyState, sat_pure]
  exact ⟨rfl, h.dup hip⟩

lemma Forking.start {c : Nat} (h : Forking sb lost s t q) (h₀ : SysInv sb lost s) (hq : q < nproc)
    (hr : Run sb lost fs ((c, i) :: t.refs) [] 0) (hnode : fs.node = t.fs.node)
    (hne : t.fs.node i ≠ none) :
    SysInv sb lost (({ t with fs := fs }.setProc q { t.proc q with cwd := some c }).setProc q
      { ({ t with fs := fs }.setProc q { t.proc q with cwd := some c }).proc q with
        state := .runnable }) := by
  have h1 : Sound sb lost { t with fs := fs } [] [] [(c, i)] [] 0 :=
    h.sound.onFs hr (Minors.of_eq hnode).kept
  have hused : ¬ ((t.proc q).state = .unused ∨ (t.proc q).state = .zombie) := by simp [h.state]
  have h2 := h1.enter hq h.cwd hused (by rw [hnode]; exact hne)
  have hself : ({ t with fs := fs }.setProc q { t.proc q with cwd := some c }).proc q =
    { t.proc q with cwd := some c } :=
    Sys.setProc_self
  have h3 : Sound sb lost (({ t with fs := fs }.setProc q { t.proc q with cwd := some c }).setProc q
      { t.proc q with cwd := some c, state := .runnable }) [] [] [] [] 0 :=
    h2.setState hq (by rw [hself]) (by rw [hself]) fun hh => by rcases hh with hh | hh <;> cases hh
  rw [hself]
  refine h3.sysInv fun x hx hst => ?_
  by_cases hxq : x = q
  · rw [hxq, Sys.setProc_self]
    exact Option.some_ne_none _
  · rw [Sys.setProc_of_ne hxq, Sys.setProc_of_ne hxq] at hst ⊢
    rw [show ({ t with fs := fs } : Sys).proc x = s.proc x from h.others x hxq] at hst ⊢
    exact h₀.live x hx hst

lemma fork_sat {mem : Bool} (h : SysInv sb lost s) (hp : p < nproc)
    (hst : (s.proc p).state = .runnable) :
    Thread.Sat (fork p mem) s E fun r s' => Called sb lost P W s s' r := by
  obtain ⟨cwd, hcwd, hmem⟩ := h.cwd_ref hp hst
  unfold fork
  refine Thread.Sat.bind (Thread.sat_step allocproc_sat) ?_
  rintro r s1 (⟨rfl, rfl⟩ | ⟨q, rfl, hq, h0, hs1⟩)
  · exact h.same
  have hpq : p ≠ q := by
    rintro rfl
    rw [hst] at h0
    cases h0
  have hidle := h.tables.idle q hq (.inl h0)
  have h1 := h.forking hq h0
  rw [← hs1] at h1
  have hself : s1.proc q = { s.proc q with state := .used, pid := s.nextpid } := by
    rw [hs1]
    exact Sys.setProc_self
  have hof : (s1.proc q).ofile = (s.proc q).ofile := by rw [hself]
  cases mem with
  | false =>
    refine modify_sat.bind ?_
    rintro _ s2 rfl
    have h2 : Sound sb lost (s1.setProc q { s1.proc q with state := .unused, pid := 0 })
      [] [] [] [] 0 :=
      h1.sound.setState hq rfl rfl fun _ => ⟨h1.cwd, by rw [hof]; exact hidle.2⟩
    refine ⟨h2.sysInv fun x hx hst => ?_, Evolves.of_eq (congrArg Fs.node h1.fs), fun _ =>
      .of_tables h.tables h2.tables (fun x _ fd _ => ?_) fun k _ => ?_⟩
    · by_cases hxq : x = q
      · rw [hxq, Sys.setProc_self] at hst
        cases hst
      · rw [Sys.setProc_of_ne hxq, h1.others x hxq] at hst ⊢
        exact h.live x hx hst
    · by_cases hxq : x = q
      · rw [hxq, Sys.setProc_self, hof]
      · rw [Sys.setProc_of_ne hxq, h1.others x hxq]
    · change s1.pipes k = _ ∧ s1.freed k = _
      rw [h1.pipes.1, h1.pipes.2]
      exact ⟨rfl, rfl⟩
  | true =>
    refine (forkFiles_sat h1 hq hp (fun fd hfd => mem_range.mp hfd) nodup_range
      fun fd hfd => by rw [hof]; exact hidle.2 fd (mem_range.mp hfd)).bind ?_
    rintro _ s2 h2
    have hcwd2 : (s2.proc p).cwd = some cwd := by rw [h2.others p hpq, hcwd]
    refine (cwdOf_some hcwd2).bind ?_
    rintro c s2 ⟨rfl, hc⟩
    subst c
    have hmem2 : (cwd, (s.fs.itable cwd).inum) ∈ s2.refs := by
      refine Sys.mem_refs.mpr ⟨mem_append_right _ (mem_gather.mpr ⟨p, hp, ?_⟩), by rw [h2.fs]⟩
      rw [hcwd2]
      exact mem_singleton.mpr rfl
    refine Thread.Sat.bind (onFs_sat (idup_run h2.sound.run hmem2)) ?_
    rintro c s3 ⟨fs3, rfl, hc, hr3, hnode3⟩
    subst c
    refine modify_sat.bind ?_
    rintro _ s4 rfl
    refine getState_sat.bind ?_
    rintro x s4 ⟨rfl, hx⟩
    subst x
    refine modify_sat.bind ?_
    rintro _ s5 rfl
    have hpid : ∀ k : Nat, (k : Int) ≠ -1 := fun k => by omega
    exact ⟨h2.start h hq hr3 hnode3 (h2.sound.alive hmem2),
      Evolves.of_eq (hnode3.trans (congrArg Fs.node h2.fs)), fun hh => absurd hh (hpid _)⟩

structure Exiting (sb : Superblock) (lost : Nat → Prop) (s t : Sys) (p : Nat) : Prop where
  sound : Sound sb lost t [] [] [] [] 0
  minors : Minors [] s.fs.node t.fs.node
  others : ∀ x ≠ p, t.proc x = s.proc x
  cwd : (t.proc p).cwd = (s.proc p).cwd

lemma exitFiles_sat (h : Exiting sb lost s t p) (hp : p < nproc) (hlt : ∀ fd ∈ fds, fd < nofile)
    (hE : ∀ e ∈ stepPanics, E e) : Thread.Sat (exitFiles p fds) t E fun _ t' => Exiting sb lost s t' p ∧
      ∀ fd, fd ∈ fds ∨ (t.proc p).ofile fd = none → (t'.proc p).ofile fd = none := by
  induction fds generalizing t with
  | nil => exact ⟨h, fun fd hfd => hfd.resolve_left not_mem_nil⟩
  | cons fd fds ih =>
    unfold exitFiles
    refine getState_sat.bind ?_
    rintro x t1 ⟨rfl, hx⟩
    subst x
    cases hof : (t1.proc p).ofile fd with
    | none =>
      refine (ih h fun x hx => hlt x (mem_cons_of_mem _ hx)).imp ?_
      rintro _ t' ⟨h', hnone⟩
      refine ⟨h', fun x hx => hnone x ?_⟩
      rcases hx with hx | hx
      · rcases mem_cons.mp hx with rfl | hx
        · exact .inr hof
        · exact .inl hx
      · exact .inr hx
    | some f =>
      -- the reference is given up before the descriptor is cleared
      have h1 : Sound sb lost { t1 with proc := (t1.setOfile p fd none).proc } [f] [] [] [] 0 :=
        h.sound.setOfile hp (h.sound.tables.take hp (hlt fd mem_cons_self) hof)
      refine (fileclose_sat h1 hE).bind ?_
      rintro _ t2 ⟨h2, hc, hm⟩
      refine modify_sat.bind ?_
      rintro _ t3 rfl
      have hs : t2.setOfile p fd none = { t2 with proc := (t1.setOfile p fd none).proc } := by
        unfold Sys.setOfile Sys.setProc
        rw [hc.proc]
      have hproc : (t2.setOfile p fd none).proc = (t1.setOfile p fd none).proc := by rw [hs]
      have hex : Exiting sb lost s (t2.setOfile p fd none) p := by
        refine ⟨by rw [hs]; exact h2, h.minors.trans hm, fun x hx => ?_, ?_⟩
        · rw [hproc]
          exact (Sys.setProc_of_ne hx).trans (h.others x hx)
        · rw [hproc]
          exact (Sys.setOfile_rest _ none p).2.trans h.cwd
      refine (ih hex fun x hx => hlt x (mem_cons_of_mem _ hx)).imp ?_
      rintro _ t' ⟨h', hnone⟩
      refine ⟨h', fun x hx => hnone x ?_⟩
      rw [hproc, Sys.setOfile_ofile]
      by_cases hxf : x = fd
      · exact .inr (if_pos hxf)
      · rw [if_neg hxf]
        exact hx.imp_left fun hh => (mem_cons.mp hh).resolve_left hxf

lemma exit_sat (h : SysInv sb lost s) (hp : p < nproc) (hst : (s.proc p).state = .runnable)
    (hE : ∀ e ∈ sysPanics, E e) : Thread.Sat (exit p) s E fun r s' => Called sb lost P W s s' r := by
  have hE' : ∀ e ∈ stepPanics, E e := fun e he => hE e (mem_cons_of_mem _ (mem_fsPanics e he))
  obtain ⟨cwd, hcwd, -⟩ := h.cwd_ref hp hst
  unfold exit
  split
  · exact Thread.sat_step (sat_panic.mpr (hE _ mem_cons_self))
  refine (exitFiles_sat ⟨h.toSound, Minors.refl, fun _ _ => rfl, rfl⟩ hp (fun fd hfd =>
    mem_range.mp hfd) hE').bind ?_
  rintro _ s1 ⟨h1, hnone⟩
  have hcwd1 : (s1.proc p).cwd = some cwd := h1.cwd.trans hcwd
  refine Thread.Sat.bind (onFs_sat (beginOp_run h1.sound.run)) ?_
  rintro _ s2 ⟨fs2, rfl, hr2, hnode2⟩
  refine (cwdOf_some (s := { s1 with fs := fs2 }) hcwd1).bind ?_
  rintro c s2 ⟨rfl, hc⟩
  subst c
  have hleave := h1.sound.leave hp hcwd1
  have hperm := Sys.refs_cons (Sys.slots_leave hp hcwd1 (v := { s1.proc p with cwd := none }) rfl) rfl
  refine Thread.Sat.bind
    (onFs_sat (s := { s1 with fs := fs2 }) (iput_run (hr2.perm hperm) le_rfl (by simp) hE')) ?_
  rintro _ s3 ⟨fs3, rfl, hr3, hnode3⟩
  refine Thread.Sat.bind (onFs_sat (s := { s1 with fs := fs3 }) (endOp_run hr3)) ?_
  rintro _ s4 ⟨fs4, rfl, hr4, hnode4⟩
  obtain ⟨hput, hminors⟩ := hleave.put hr4 (by rw [hnode4, hnode3, hnode2]; rfl)
  refine modify_sat.bind ?_
  rintro _ s5 rfl
  refine modify_sat.bind ?_
  rintro _ s6 rfl
  have hself : ({ s1 with fs := fs4 }.setProc p { s1.proc p with cwd := none }).proc p =
    { s1.proc p with cwd := none } :=
    Sys.setProc_self
  have h5 : Sound sb lost ({ s1 with fs := fs4 }.setProc p { s1.proc p with cwd := none }) [] []
    [] [] 0 := hput
  have h6 : Sound sb lost (({ s1 with fs := fs4 }.setProc p { s1.proc p with cwd := none }).setProc p
      { s1.proc p with cwd := none, state := .zombie }) [] [] [] [] 0 :=
    h5.setState hp (by rw [hself]) (by rw [hself]) fun _ =>
      ⟨rfl, fun fd hfd => hnone fd (.inl (mem_range.mpr hfd))⟩
  have hend : ({ s1 with fs := fs4 }.setProc p { s1.proc p with cwd := none }).setProc p
      { ({ s1 with fs := fs4 }.setProc p { s1.proc p with cwd := none }).proc p with
        state := .zombie } =
      ({ s1 with fs := fs4 }.setProc p { s1.proc p with cwd := none }).setProc p
        { s1.proc p with cwd := none, state := .zombie } := by rw [hself]
  rw [hend]
  refine ⟨h6.sysInv fun x hx hst => ?_,
    (h1.minors.trans (hminors.mono fun _ hj => absurd hj not_mem_nil)).evolves,
    fun hh => absurd hh (by decide)⟩
  by_cases hxp : x = p
  · rw [hxp, Sys.setProc_self] at hst
    cases hst
  · rw [Sys.setProc_of_ne hxp, Sys.setProc_of_ne hxp] at hst ⊢
    rw [show ({ s1 with fs := fs4 } : Sys).proc x = s.proc x from h1.others x hxp] at hst ⊢
    exact h.live x hx hst

lemma reap_sat (h : SysInv sb lost s) (hq : q < nproc) :
    Thread.Sat (reap q) s E fun r s' => Called sb lost P W s s' r := by
  unfold reap
  refine getState_sat.bind ?_
  rintro x s1 ⟨rfl, hx⟩
  subst x
  split
  next hz =>
    obtain ⟨hcwd, hof⟩ := h.tables.idle q hq (.inr hz)
    refine modify_sat.bind ?_
    rintro _ s2 rfl
    have h2 : Sound sb lost (s1.setProc q { s1.proc q with state := .unused, pid := 0 })
      [] [] [] [] 0 :=
      h.setState hq rfl rfl fun _ => ⟨hcwd, hof⟩
    have hpid : ∀ k : Nat, (k : Int) ≠ -1 := fun k => by omega
    refine ⟨h2.sysInv fun x hx hst => ?_, Evolves.of_eq rfl, fun hh => absurd hh (hpid _)⟩
    by_cases hxq : x = q
    · rw [hxq, Sys.setProc_self] at hst
      cases hst
    · rw [Sys.setProc_of_ne hxq] at hst ⊢
      exact h.live x hx hst
  next => exact h.same

end

end Xv6
