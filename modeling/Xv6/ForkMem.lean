import Xv6.CopyUser
import Xv6.ExecModel
import Xv6.FileModel

/-! `userinit`, and `fork` with the memory of both processes: `allocproc`, `uvmcopy`, `freeproc`.
A page address that is 0 stands for no page. -/

namespace Xv6

open Function (update_self update_of_ne update_idem)

open Kern List

section

variable {K : KernelImage} {L L₂ : List Nat} {m m' : Mem} {root tf n n' g : Nat} {t tp : Radix Nat 2}

lemma Space.apart (h : Space K (tp.pages sv39 ++ (users tp 0 n ++ L₂)) m root tf n' g t) {v w : Nat}
    (hv : v < n') (hw : w < n) : physPage t v ≠ physPage tp w := by
  have hnd := (nodup_append.mp h.acct.nodup).2.1
  refine (nodup_append.mp hnd).2.2 _ (mem_users hv) _ ?_
  exact mem_append_right _ (mem_append_left _ (mem_users hw))

lemma Space.phys_inj (h : Space K L m root tf n g t) {v w : Nat} (hv : v < n) (hw : w < n)
    (he : physPage t v = physPage t w) : v = w := by
  have hnd : (users t 0 n).Nodup := (nodup_append.mp (nodup_append.mp h.acct.nodup).2.1).1
  refine inj_on_of_nodup_map hnd ?_ ?_ he
  · exact mem_range'_1.mpr ⟨Nat.zero_le v, by omega⟩
  · exact mem_range'_1.mpr ⟨Nat.zero_le w, by omega⟩

lemma Space.copyout_apart (h : Space K (tp.pages sv39 ++ (users tp 0 n ++ L₂)) m root tf n' g t)
    {dstva : Nat} {src : List UInt8}
    {e : Int} (hrun : copyout root dstva src m = .ok (e, m')) : SameBelow n tp m tp m' := by
  have hs : (copyout root dstva src).Sat m (fun _ => True) _ := copyout_sat h
  refine (((hs.of_ok hrun).2).mono ?_).sameBelow fun _ _ => rfl
  exact fun x hx => mem_append_right _ (mem_append_left _ hx)

end

/-- A `struct proc`. -/
structure ProcSlot where
  state : ProcState
  chan : Nat
  killed : Int
  xstate : Int
  pid : Nat
  parent : Option Nat
  sz : Nat
  pagetable : Nat
  trapframe : Nat
  ofile : Nat → Option Nat
  cwd : Option Nat
  name : List UInt8

/-- A slot as `freeproc` leaves it. -/
def ProcSlot.released (v : ProcSlot) : ProcSlot :=
  { v with
    trapframe := 0, pagetable := 0, sz := 0, pid := 0, parent := none, name := [], chan := 0,
    killed := 0, xstate := 0, state := .unused }

structure ProcSys where
  mem : Mem
  proc : Nat → ProcSlot
  nextpid : Nat
  fileRef : Nat → Nat
  inodeRef : Nat → Nat

namespace ProcSys

def setProc (s : ProcSys) (p : Nat) (v : ProcSlot) : ProcSys :=
  { s with proc := Function.update s.proc p v }

def onMem {α : Type} (k : Kern Mem α) : Kern ProcSys α := zoom mem (fun m s => { s with mem := m }) k

def update (q : Nat) (f : ProcSlot → ProcSlot) : Kern ProcSys Unit :=
  modifyState fun s => s.setProc q (f (s.proc q))

def freeproc (K : KernelImage) (q : Nat) : Kern ProcSys Unit := do
  let s ← getState
  if (s.proc q).trapframe ≠ 0 then onMem (kfree K (s.proc q).trapframe) else pure ()
  if (s.proc q).pagetable ≠ 0 then
    onMem (procFreepagetable K (s.proc q).pagetable (s.proc q).sz) else pure ()
  update q ProcSlot.released

def allocproc (K : KernelImage) : Kern ProcSys (Option Nat) := do
  let s ← getState
  match (List.range nproc).find? fun q => (s.proc q).state = .unused with
  | none => pure none
  | some q => do
    modifyState fun s => { s.setProc q { s.proc q with pid := s.nextpid, state := .used } with
      nextpid := s.nextpid + 1 }
    match ← onMem kalloc with
    | none => do
      update q fun v => { v with trapframe := 0 }
      freeproc K q
      pure none
    | some trapframe => do
      update q fun v => { v with trapframe := trapframe }
      match ← onMem (procPagetable K trapframe) with
      | none => do
        update q fun v => { v with pagetable := 0 }
        freeproc K q
        pure none
      | some pagetable => do
        update q fun v => { v with pagetable := pagetable }
        pure (some q)

def userinit (K : KernelImage) (initcode : List UInt8) (cwd : Nat) : Kern ProcSys Unit := do
  match ← allocproc K with
  -- `p->pagetable` is then read from an address that is not mapped.
  | none => Kern.panic "kerneltrap"
  | some p => do
    let s ← getState
    onMem (uvmfirst (s.proc p).pagetable initcode)
    update p fun v => { v with sz := pgSize }
    onMem (modifyState fun m => m.setPage (s.proc p).trapframe
      (((m.page (s.proc p).trapframe).setField ExecSys.trapframeEpc 8 0).setField
        ExecSys.trapframeSp 8 pgSize))
    modifyState fun s => { s with inodeRef := Function.update s.inodeRef cwd (s.inodeRef cwd + 1) }
    -- the name is "initcode"
    update p fun v => { v with
      name := [105, 110, 105, 116, 99, 111, 100, 101]
      cwd := some cwd
      state := .runnable }

def trapframeSize : Nat := 288

def trapframeA0 : Nat := 112

/-- The registers of the parent, with 0 in `a0`. -/
def copyTrapframe (src dst : Nat) (m : Mem) : Mem :=
  m.setPage dst (((m.page dst).patch 0 ((m.page src).slice 0 trapframeSize)).setField trapframeA0 8 0)

def dupFile (p np fd : Nat) : Kern ProcSys Unit := do
  let s ← getState
  match (s.proc p).ofile fd with
  | none => pure ()
  | some f =>
    if s.fileRef f < 1 then Kern.panic "filedup"
    else do
      modifyState fun s => { s with fileRef := Function.update s.fileRef f (s.fileRef f + 1) }
      update np fun v => { v with ofile := Function.update v.ofile fd (some f) }

def dupCwd (p np : Nat) : Kern ProcSys Unit := do
  let s ← getState
  match (s.proc p).cwd with
  | none => pure ()
  | some ip =>
    modifyState fun s => { s with inodeRef := Function.update s.inodeRef ip (s.inodeRef ip + 1) }
  update np fun v => { v with cwd := (s.proc p).cwd }

def fork (K : KernelImage) (p : Nat) : Kern ProcSys Int := do
  match ← allocproc K with
  | none => pure (-1)
  | some np => do
    let s ← getState
    let e ← onMem (uvmcopy K (s.proc p).pagetable (s.proc np).pagetable (s.proc p).sz)
    if e < 0 then do
      freeproc K np
      pure (-1)
    else do
      update np fun v => { v with sz := (s.proc p).sz }
      onMem (modifyState (copyTrapframe (s.proc p).trapframe (s.proc np).trapframe))
      forEach (dupFile p np) (List.range nofile)
      dupCwd p np
      update np fun v => { v with name := (s.proc p).name, parent := some p, state := .runnable }
      pure (s.proc np).pid

/-- The pages that a slot has beside `L`. -/
inductive SlotPages (K : KernelImage) (L : List Nat) (m : Mem) (v : ProcSlot) : Prop
  | empty (h : Acct K m L) (ht : v.trapframe = 0) (hp : v.pagetable = 0)
  | frame (h : Acct K m (v.trapframe :: L)) (hp : v.pagetable = 0)
  | table (g : Nat) (t : Radix Nat 2)
      (h : Space K (v.trapframe :: L) m v.pagetable v.trapframe (npages v.sz) g t)

section

variable {K : KernelImage} {L : List Nat} {s : ProcSys} {q : Nat} {E : String → Prop}

lemma pool_ne_zero (h : q ∈ pool K) : q ≠ 0 := by
  have hmem := mem_pool h
  have hK := K.base_le
  rw [kernBase_eq] at hK
  omega

lemma sat_onMem {α : Type} {k : Kern Mem α} {Q : α → ProcSys → Prop} :
    (onMem k).Sat s E Q ↔ k.Sat s.mem E fun a m => Q a { s with mem := m } :=
  sat_zoom

lemma sat_update {f : ProcSlot → ProcSlot} {Q : Unit → ProcSys → Prop} :
    (update q f).Sat s E Q ↔ Q () (s.setProc q (f (s.proc q))) :=
  sat_modifyState

lemma freeproc_sat (h : SlotPages K L s.mem (s.proc q)) : (freeproc K q).Sat s E fun _ s' =>
    ∃ m', s' = { s with mem := m', proc := Function.update s.proc q (s.proc q).released } ∧
      Acct K m' L ∧ Keeps L s.mem m' := by
  unfold freeproc
  rw [sat_bind, sat_getState]
  cases h with
  | empty ha ht hp =>
    rw [if_neg (by simp [ht]), if_neg (by simp [hp])]
    exact sat_update.mpr ⟨s.mem, rfl, ha, Keeps.refl _ _⟩
  | frame ha hp =>
    have ht := pool_ne_zero (ha.mem_pool (mem_cons_self ..))
    rw [if_pos ht, if_neg (by simp [hp]), sat_bind, sat_onMem]
    refine (kfree_sat ha).imp ?_
    rintro _ m1 ⟨ha1, hk1⟩
    exact sat_update.mpr ⟨m1, rfl, ha1, hk1⟩
  | table g t hs =>
    have ht := pool_ne_zero (hs.acct.mem_pool (q := (s.proc q).trapframe) (by simp))
    have hp := pool_ne_zero (hs.acct.mem_pool (mem_append_left _ (Radix.root_mem_pages hs.root)))
    rw [if_pos ht, if_pos hp, sat_bind, sat_onMem]
    refine hs.kfree_sat.imp ?_
    rintro _ m1 ⟨h1, hk1⟩
    rw [sat_bind, sat_onMem]
    refine (procFreepagetable_sat h1).imp ?_
    rintro _ m2 ⟨ha2, hk2⟩
    exact sat_update.mpr ⟨m2, rfl, ha2, (hk1.mono (subset_append_right _ _)).trans hk2⟩

/-- No process was made: a slot that was unused is unused, the references are as they were, and
the pages beside `L` are free. -/
structure NoChild (K : KernelImage) (L : List Nat) (s s' : ProcSys) : Prop where
  files : s'.fileRef = s.fileRef
  inodes : s'.inodeRef = s.inodeRef
  acct : Acct K s'.mem L
  keeps : Keeps L s.mem s'.mem
  slots : s'.proc = s.proc ∨ ∃ q, (q < nproc ∧ (s.proc q).state = .unused) ∧
    s'.proc = Function.update s.proc q (s.proc q).released

structure NewChild (K : KernelImage) (L : List Nat) (g : Nat) (s : ProcSys) (q : Nat) (s' : ProcSys)
    (t : Radix Nat 2) : Prop where
  unused : q < nproc ∧ (s.proc q).state = .unused
  files : s'.fileRef = s.fileRef
  inodes : s'.inodeRef = s.inodeRef
  keeps : Keeps L s.mem s'.mem
  slot : s'.proc = Function.update s.proc q
    { s.proc q with
      pid := s.nextpid, state := .used, trapframe := (s'.proc q).trapframe,
      pagetable := (s'.proc q).pagetable }
  space : Space K ((s'.proc q).trapframe :: L) s'.mem (s'.proc q).pagetable (s'.proc q).trapframe 0 g t

lemma find_unused {q : Nat}
    (h : ((List.range nproc).find? fun q => (s.proc q).state = .unused) = some q) :
    q < nproc ∧ (s.proc q).state = .unused :=
  ⟨mem_range.mp (mem_of_find?_eq_some h), by simpa using List.find?_some h⟩

lemma allocproc_sat (g : Nat) (h : Acct K s.mem L)
    (hclean : ∀ q < nproc, (s.proc q).state = .unused → (s.proc q).trapframe = 0 ∧
      (s.proc q).pagetable = 0 ∧ (s.proc q).sz = 0) :
    (allocproc K).Sat s E fun r s' =>
      (∀ k, Grants s.mem (k + 4) → (∃ q < nproc, (s.proc q).state = .unused) →
        r ≠ none ∧ Grants s'.mem k) ∧
      match r with
      | none => NoChild K L s s'
      | some q => ∃ t, NewChild K L g s q s' t := by
  unfold allocproc
  rw [sat_bind, sat_getState]
  cases hfind : (List.range nproc).find? fun q => (s.proc q).state = .unused with
  | none =>
    refine sat_pure.mpr ⟨fun k _ ⟨q, hq, hu⟩ => ?_, rfl, rfl, h, Keeps.refl _ _, .inl rfl⟩
    exact absurd hu (by simpa using find?_eq_none.mp hfind q (mem_range.mpr hq))
  | some q =>
    obtain ⟨hlt, hq⟩ := find_unused hfind
    obtain ⟨ht, hp, hsz⟩ := hclean q hlt hq
    simp only [sat_bind, sat_modifyState, sat_onMem, setProc]
    refine (kalloc_sat h).imp ?_
    rintro r m1 ⟨ha1, hk1, hg1⟩
    cases r with
    | none =>
      simp only [sat_bind, sat_update, setProc, update_self, update_idem]
      refine (freeproc_sat (L := L) ?_).imp ?_
      · refine SlotPages.empty ha1 ?_ ?_
        · simp
        · simp [hp]
      · rintro _ s2 ⟨m2, rfl, ha2, hk2⟩
        refine sat_pure.mpr ⟨fun k hg _ => absurd rfl (hg1 (k + 3) hg).1, rfl, rfl, ha2,
          hk1.trans hk2, .inr ⟨q, ⟨hlt, hq⟩, ?_⟩⟩
        simp only [update_self, update_idem]
        rfl
    | some tf =>
      have htf := mem_pool (ha1.mem_pool (mem_cons_self ..))
      simp only [sat_bind, sat_update, sat_onMem, setProc, update_self, update_idem]
      refine (procPagetable_sat (g := g) ha1 htf.2.2).imp ?_
      rintro r m2 ⟨hk2, hg2, hr⟩
      have hgrants : ∀ k, Grants s.mem (k + 4) → r ≠ none ∧ Grants m2 k := fun k hg =>
        hg2 k (hg1 (k + 3) hg).2
      have hkL : Keeps L s.mem m2 := hk1.trans (hk2.mono fun _ hx => mem_cons_of_mem _ hx)
      cases r with
      | none =>
        simp only [sat_bind, sat_update, setProc, update_self, update_idem]
        refine (freeproc_sat (L := L) ?_).imp ?_
        · refine SlotPages.frame ?_ ?_
          · simpa using hr
          · simp
        · rintro _ s3 ⟨m3, rfl, ha3, hk3⟩
          refine sat_pure.mpr ⟨fun k hg _ => absurd rfl (hgrants k hg).1, rfl, rfl, ha3,
            hkL.trans hk3, .inr ⟨q, ⟨hlt, hq⟩, ?_⟩⟩
          simp only [update_self, update_idem]
          rfl
      | some pt =>
        obtain ⟨t, hs⟩ := hr
        simp only [sat_bind, sat_update, setProc, update_self, update_idem]
        refine sat_pure.mpr ⟨fun k hg _ => ⟨by simp, (hgrants k hg).2⟩, t, ⟨hlt, hq⟩, rfl, rfl, hkL,
          ?_, ?_⟩
        · simp
        · simpa using hs

structure Started (K : KernelImage) (L : List Nat) (g : Nat) (s : ProcSys) (q : Nat) (s' : ProcSys)
    (t : Radix Nat 2) : Prop where
  unused : q < nproc ∧ (s.proc q).state = .unused
  runnable : (s'.proc q).state = .runnable
  sz_eq : (s'.proc q).sz = pgSize
  others : ∀ x ≠ q, s'.proc x = s.proc x
  files : s'.fileRef = s.fileRef
  ofile : (s'.proc q).ofile = (s.proc q).ofile
  space : Space K ((s'.proc q).trapframe :: L) s'.mem (s'.proc q).pagetable (s'.proc q).trapframe
    (npages pgSize) g t
  keeps : Keeps L s.mem s'.mem

lemma userinit_sat {initcode : List UInt8} {cwd : Nat} (g : Nat) (h : Acct K s.mem L)
    (hclean : ∀ q < nproc, (s.proc q).state = .unused → (s.proc q).trapframe = 0 ∧
      (s.proc q).pagetable = 0 ∧ (s.proc q).sz = 0)
    (hg : Grants s.mem 7) (hfree : ∃ q < nproc, (s.proc q).state = .unused)
    (hlen : initcode.length < pgSize) :
    (userinit K initcode cwd).Sat s E fun _ s' => ∃ q t, Started K L g s q s' t := by
  unfold userinit
  refine (allocproc_sat g h hclean).bind ?_
  rintro r s1 ⟨hgrants, hr⟩
  obtain ⟨hne, hg1⟩ := hgrants 3 hg hfree
  cases r with
  | none => exact absurd rfl hne
  | some q =>
    obtain ⟨t, hn⟩ := hr
    rw [sat_bind, sat_getState, sat_bind, sat_onMem]
    refine (uvmfirst_sat hn.space hg1 hlen).imp ?_
    rintro _ m2 ⟨t2, hs2, hk2⟩
    simp only [sat_bind, sat_update, sat_onMem, sat_modifyState, setProc, update_self, update_idem]
    generalize Bytes.setField _ _ _ _ = b
    have hk3 := hs2.keeps_head b
    have hs3 := hs2.setPage (mem_append_right _ (mem_cons_self ..)) b
    refine ⟨q, t2, hn.unused, ?_, ?_, fun x hx => ?_, hn.files, ?_, ?_, ?_⟩
    · simp
    · simp
    · refine (update_of_ne hx ..).trans ?_
      rw [hn.slot, update_of_ne hx]
    · simp only [update_self]
      rw [hn.slot, update_self]
    · have hone : npages pgSize = 1 := rfl
      simpa [hone] using hs3
    · exact (hn.keeps.trans (hk2.mono (subset_cons_self ..))).trans
        (hk3.mono (subset_append_right _ _))

end

section

variable {K : KernelImage} {L : List Nat} {s : ProcSys} {p tfp g : Nat} {tp : Radix Nat 2}
  {E : String → Prop}

/-- A child in the slot `q` with a copy of the memory that the parent's table `tp` has in `s`. -/
structure Forked (K : KernelImage) (L : List Nat) (g sz : Nat) (tp : Radix Nat 2) (s : ProcSys)
    (q : Nat) (s' : ProcSys) (t : Radix Nat 2) : Prop where
  unused : q < nproc ∧ (s.proc q).state = .unused
  runnable : (s'.proc q).state = .runnable
  sz_eq : (s'.proc q).sz = sz
  space : Space K ((s'.proc q).trapframe :: L) s'.mem (s'.proc q).pagetable (s'.proc q).trapframe
    (npages sz) g t
  keeps : Keeps L s.mem s'.mem
  flags : ∀ v < npages sz, pteFlags (t.val sv39 v) = pteFlags (tp.val sv39 v)
  bytes : ∀ v < npages sz, s'.mem.page (physPage t v) = s.mem.page (physPage tp v)

structure Dups (s : ProcSys) (p q : Nat) (s' : ProcSys) : Prop where
  mem : s'.mem = s.mem
  parent : s'.proc p = s.proc p
  files : ∀ f, s.fileRef f ≤ s'.fileRef f
  slot : (s'.proc q).sz = (s.proc q).sz ∧ (s'.proc q).pagetable = (s.proc q).pagetable ∧
    (s'.proc q).trapframe = (s.proc q).trapframe ∧ (s'.proc q).pid = (s.proc q).pid

lemma Dups.refl (s : ProcSys) (p q : Nat) : Dups s p q s :=
  ⟨rfl, rfl, fun _ => le_rfl, rfl, rfl, rfl, rfl⟩

lemma dupFile_sat {s0 : ProcSys} {q fd : Nat} (hne : p ≠ q) (hd : ∀ x ≠ q, Dups s0 x q s)
    (hfiles : ∀ fd f, (s0.proc p).ofile fd = some f → 1 ≤ s0.fileRef f) :
    (dupFile p q fd).Sat s E fun _ s' => ∀ x ≠ q, Dups s0 x q s' := by
  unfold dupFile
  rw [sat_bind, sat_getState]
  cases hf : (s.proc p).ofile fd with
  | none => exact sat_pure.mpr hd
  | some f =>
    have hpos : 1 ≤ s.fileRef f :=
      (hfiles fd f (by rw [← (hd p hne).parent, hf])).trans ((hd p hne).files f)
    simp only [Nat.not_lt.mpr hpos, if_false, sat_bind, sat_modifyState, sat_update]
    intro x hx
    have hd := hd x hx
    refine ⟨hd.mem, ?_, fun f' => ?_, ?_⟩
    · simp only [setProc]
      rw [update_of_ne hx, hd.parent]
    · have hle := hd.files f'
      simp only [setProc]
      by_cases hff : f' = f
      · subst hff
        rw [update_self]
        omega
      · rwa [update_of_ne hff]
    · simp only [setProc, update_self]
      exact hd.slot

lemma dupCwd_sat {s0 : ProcSys} {q : Nat} (hd : ∀ x ≠ q, Dups s0 x q s) :
    (dupCwd p q).Sat s E fun _ s' => ∀ x ≠ q, Dups s0 x q s' := by
  have hdone : ∀ refs cwd, ∀ x ≠ q,
    Dups s0 x q ({ s with inodeRef := refs }.setProc q { s.proc q with cwd := cwd }) := by
    intro refs cwd x hx
    have hd := hd x hx
    refine ⟨hd.mem, ?_, hd.files, ?_⟩
    · simp only [setProc]
      rw [update_of_ne hx, hd.parent]
    · simp only [setProc, update_self]
      exact hd.slot
  unfold dupCwd
  rw [sat_bind, sat_getState]
  cases hc : (s.proc p).cwd with
  | none => exact sat_update.mpr (hdone s.inodeRef none)
  | some ip =>
    simp only [sat_bind, sat_modifyState, sat_update]
    exact hdone _ _

lemma forkEnd_sat {q : Nat} {name : List UInt8} {pid : Int} (hne : p ≠ q)
    (hfiles : ∀ fd f, (s.proc p).ofile fd = some f → 1 ≤ s.fileRef f) :
    (forEach (dupFile p q) (List.range nofile) >>= fun _ => dupCwd p q >>= fun _ =>
      update q (fun v => { v with name := name, parent := some p, state := .runnable }) >>= fun _ =>
        pure pid).Sat s E
      fun r s' => r = pid ∧ s'.mem = s.mem ∧ (∀ x ≠ q, s'.proc x = s.proc x) ∧
      (s'.proc q).state = .runnable ∧ (s'.proc q).sz = (s.proc q).sz ∧
      (s'.proc q).pagetable = (s.proc q).pagetable ∧
      (s'.proc q).trapframe = (s.proc q).trapframe := by
  refine (sat_forEach (I := fun _ s' => ∀ x ≠ q, Dups s x q s') (fun x _ => Dups.refl s x q) ?_).bind ?_
  · exact fun _ _ s' hd => dupFile_sat hne hd hfiles
  · intro _ s1 hd1
    refine (dupCwd_sat hd1).bind fun _ s2 hd2 => ?_
    rw [sat_bind, sat_update, sat_pure]
    simp only [setProc, update_self, true_and]
    have h2 := hd2 p hne
    exact ⟨h2.mem, fun x hx => by rw [update_of_ne hx, (hd2 x hx).parent], h2.slot.1, h2.slot.2.1,
      h2.slot.2.2.1⟩

section

variable (hp : Space K L s.mem (s.proc p).pagetable tfp (npages (s.proc p).sz) g tp)
  (hstate : (s.proc p).state ≠ .unused)
  (hclean : ∀ q < nproc, (s.proc q).state = .unused → (s.proc q).trapframe = 0 ∧
    (s.proc q).pagetable = 0 ∧ (s.proc q).sz = 0)
  (hfiles : ∀ fd f, (s.proc p).ofile fd = some f → 1 ≤ s.fileRef f)
include hp hstate hclean hfiles

lemma fork_slot : (fork K p).Sat s E fun r s' =>
    (r = -1 → NoChild K (tp.pages sv39 ++ (users tp 0 (npages (s.proc p).sz) ++ L)) s s') ∧
    (r ≠ -1 → ∃ q t, Forked K (tp.pages sv39 ++ (users tp 0 (npages (s.proc p).sz) ++ L)) g
      (s.proc p).sz tp s q s' t ∧ ∀ x ≠ q, s'.proc x = s.proc x) := by
  unfold fork
  refine (allocproc_sat g hp.acct hclean).bind ?_
  rintro r s1 ⟨-, hr⟩
  cases r with
  | none => exact sat_pure.mpr ⟨fun _ => hr, fun hne => absurd rfl hne⟩
  | some q =>
    obtain ⟨t, hn⟩ := hr
    have hne : p ≠ q := by
      rintro rfl
      exact hstate hn.unused.2
    have hparent : s1.proc p = s.proc p := by rw [hn.slot, update_of_ne hne]
    have hchild : (s1.proc q).sz = 0 := by
      rw [hn.slot, update_self]
      exact (hclean q hn.unused.1 hn.unused.2).2.2
    rw [sat_bind, sat_getState, sat_bind, sat_onMem, hparent]
    generalize hL : users tp 0 (npages (s.proc p).sz) ++ L = L₂ at hn ⊢
    have hmem : ∀ v < npages (s.proc p).sz, physPage tp v ∈ (s1.proc q).trapframe :: L₂ := by
      intro v hv
      rw [← hL]
      exact mem_cons_of_mem _ (mem_append_left _ (mem_users hv))
    have hrep : Radix.Rep sv39 s1.mem.pte tp :=
      hp.rep.congr fun x hx => hn.keeps.pte (mem_append_left _ hx)
    refine (uvmcopy_sat hp.root hrep hp.user hmem (hn.space.perm perm_middle.symm)).imp ?_
    rintro e m2 ⟨he, t2, hc⟩
    have hspace := hc.space.perm perm_middle
    have hkeep : Keeps (tp.pages sv39 ++ L₂) s.mem m2 := by
      refine hn.keeps.trans (hc.keeps.mono fun x hx => ?_)
      exact perm_middle.mem_iff.mpr (mem_cons_of_mem _ hx)
    rcases he with rfl | rfl
    · rw [if_neg (by decide), sat_bind, sat_update, sat_bind, sat_onMem, sat_modifyState]
      refine (forkEnd_sat hne ?_).imp ?_
      · simp only [setProc]
        rw [update_of_ne hne, hparent, hn.files]
        exact hfiles
      · rintro r s3 ⟨rfl, hm3, hx3, hst, hsz, hpt, htf⟩
        simp only [setProc, update_self, copyTrapframe] at hm3 hsz hpt htf
        generalize Bytes.setField _ _ _ _ = b at hm3
        simp only [if_true] at hspace hc
        have hhead := hspace.keeps_head b
        refine ⟨fun hr => by omega,
          fun _ => ⟨q, t2, ⟨hn.unused, hst, hsz, ?_, ?_, hc.flags, fun v hv => ?_⟩, fun x hx => ?_⟩⟩
        · rw [htf, hpt, hm3]
          exact hspace.setPage (mem_append_right _ (mem_cons_self ..)) b
        · rw [hm3]
          exact hkeep.trans (hhead.mono (subset_append_right _ _))
        · have hold : physPage tp v ∈ L₂ := by
            rw [← hL]
            exact mem_append_left _ (mem_users hv)
          have hnew : physPage t2 v ∈ users t2 0 (npages (s.proc p).sz) := mem_users hv
          rw [hm3, hhead _ (mem_append_left _ hnew), hc.bytes v hv,
            hn.keeps _ (mem_append_right _ hold)]
        · refine (hx3 x hx).trans ((update_of_ne hx ..).trans ?_)
          rw [hn.slot, update_of_ne hx]
    · rw [if_pos (by decide)]
      refine (freeproc_sat (L := tp.pages sv39 ++ L₂) ?_).bind ?_
      · refine SlotPages.table g t2 ?_
        rw [hchild]
        exact hspace
      · rintro _ s3 ⟨m3, rfl, ha3, hk3⟩
        refine sat_pure.mpr
          ⟨fun _ => ⟨hn.files, hn.inodes, ha3, hkeep.trans hk3, .inr ⟨q, hn.unused, ?_⟩⟩,
            fun h => absurd rfl h⟩
        show Function.update s1.proc q (s1.proc q).released = _
        rw [hn.slot, update_self, update_idem]
        rfl

lemma fork_sat : (fork K p).Sat s E fun r s' =>
    (r = -1 → NoChild K (tp.pages sv39 ++ (users tp 0 (npages (s.proc p).sz) ++ L)) s s') ∧
    (r ≠ -1 → ∃ q t, Forked K (tp.pages sv39 ++ (users tp 0 (npages (s.proc p).sz) ++ L)) g
      (s.proc p).sz tp s q s' t) :=
  (fork_slot hp hstate hclean hfiles).imp fun _ _ h =>
    ⟨h.1, fun hr => (h.2 hr).imp fun _ => .imp fun _ => And.left⟩

end

/-- `uvmcopy` makes a private copy of the parent's pages or none; `fork` that fails leaves its slot
unused, with every page back and no reference taken. -/
theorem fork_copies_memory (hp : Space K L s.mem (s.proc p).pagetable tfp (npages (s.proc p).sz) g tp)
    (hstate : (s.proc p).state ≠ .unused)
    (hclean : ∀ q < nproc, (s.proc q).state = .unused → (s.proc q).trapframe = 0 ∧
      (s.proc q).pagetable = 0 ∧ (s.proc q).sz = 0)
    (hfiles : ∀ fd f, (s.proc p).ofile fd = some f → 1 ≤ s.fileRef f) :
    (∀ L₂ root tf t,
      Space K (tp.pages sv39 ++ (users tp 0 (npages (s.proc p).sz) ++ L₂)) s.mem root tf 0 g t →
      (uvmcopy K (s.proc p).pagetable root (s.proc p).sz).Sat s.mem (fun _ => False) fun r m' =>
      (r = 0 ∨ r = -1) ∧
        Keeps (tp.pages sv39 ++ (users tp 0 (npages (s.proc p).sz) ++ L₂)) s.mem m' ∧ ∃ t',
        (r = -1 → Space K (tp.pages sv39 ++ (users tp 0 (npages (s.proc p).sz) ++ L₂)) m'
          root tf 0 g t') ∧
        (r = 0 → Space K (tp.pages sv39 ++ (users tp 0 (npages (s.proc p).sz) ++ L₂)) m' root tf
          (npages (s.proc p).sz) g t' ∧
          Space K (t'.pages sv39 ++ (users t' 0 (npages (s.proc p).sz) ++ L₂)) m'
          (s.proc p).pagetable tfp (npages (s.proc p).sz) g tp ∧
          (∀ v < npages (s.proc p).sz, pteFlags (t'.val sv39 v) = pteFlags (tp.val sv39 v) ∧
            m'.page (physPage t' v) = s.mem.page (physPage tp v) ∧ ∀ w < npages (s.proc p).sz,
            physPage t' v ≠ physPage tp w ∧ (physPage t' v = physPage t' w → v = w)) ∧
          ∀ dstva src e m'',
          (copyout root dstva src m' = .ok (e, m'') →
            SameBelow (npages (s.proc p).sz) tp m' tp m'') ∧
            (copyout (s.proc p).pagetable dstva src m' = .ok (e, m'') →
              SameBelow (npages (s.proc p).sz) t' m' t' m''))) ∧
              (fork K p).Sat s (fun _ => False) fun r s' =>
      (r = -1 → NoChild K (tp.pages sv39 ++ (users tp 0 (npages (s.proc p).sz) ++ L)) s s') ∧
      (r ≠ -1 → ∃ q t, Forked K (tp.pages sv39 ++ (users tp 0 (npages (s.proc p).sz) ++ L)) g
        (s.proc p).sz tp s q s' t) := by
  refine ⟨fun L₂ root tf t h => ?_, fork_sat hp hstate hclean hfiles⟩
  have hmem : ∀ v < npages (s.proc p).sz, physPage tp v ∈ users tp 0 (npages (s.proc p).sz) ++ L₂ :=
    fun v hv => mem_append_left _ (mem_users hv)
  refine (uvmcopy_sat hp.root hp.rep hp.user hmem h).imp ?_
  rintro r m' ⟨hr, t', hc⟩
  refine ⟨hr, hc.keeps, t', fun hneg => ?_, fun hz => ?_⟩
  · have hs := hc.space
    rwa [hneg, if_neg (by decide)] at hs
  · rw [if_pos hz] at hc
    have hpar := hp.parent hc.space (hc.keeps.mono (subset_append_left _ _))
    refine ⟨hc.space, hpar, fun v hv =>
      ⟨hc.flags v hv, hc.bytes v hv, fun w hw => ⟨hc.space.apart hv hw, ?_⟩⟩, ?_⟩
    · exact hc.space.phys_inj hv hw
    · exact fun dstva src e m'' => ⟨hc.space.copyout_apart, hpar.copyout_apart⟩

def emptySlot : ProcSlot := ⟨.unused, 0, 0, 0, 0, none, 0, 0, 0, fun _ => none, none, []⟩

def emptySys (m : Mem) : ProcSys := ⟨m, fun _ => emptySlot, 1, fun _ => 0, fun _ => 0⟩

/-- The first process forks one with pid 2. -/
theorem fork_copies_memory_first : ∃ s s' t q t',
    Space tinyKernel [(s.proc 0).trapframe] s.mem (s.proc 0).pagetable (s.proc 0).trapframe
      (npages (s.proc 0).sz) 1 t ∧
    fork tinyKernel 0 s = .ok (2, s') ∧ Forked tinyKernel
      (t.pages sv39 ++ (users t 0 (npages (s.proc 0).sz) ++ [(s.proc 0).trapframe])) 1
      (s.proc 0).sz t s q s' t' := by
  have htest : (match userinit tinyKernel [19] 0 (emptySys (freshMem tinyKernel)) with
      | .ok (_, s) =>
        match fork tinyKernel 0 s with
        | .ok (r, _) => decide ((s.proc 0).state ≠ .unused) && decide (r = 2)
        | .error _ => false
      | .error _ => false) = true := by
    decide +kernel
  split at htest
  next s hinit =>
    split at htest
    next r s' hrun =>
      simp only [Bool.and_eq_true, decide_eq_true_eq] at htest
      obtain ⟨hstate, rfl⟩ := htest
      have hfirst : (userinit tinyKernel [19] 0).Sat (emptySys (freshMem tinyKernel))
          (fun _ => False) _ := userinit_sat 1 (freshMem_acct tinyKernel)
        (fun _ _ _ => ⟨rfl, rfl, rfl⟩) (freshMem_grants (by decide +kernel)) ⟨0, by decide, rfl⟩
        (by decide)
      obtain ⟨q, t, hq⟩ := hfirst.of_ok hinit
      have hq0 : q = 0 := by
        by_contra hne
        rw [hq.others 0 (Ne.symm hne)] at hstate
        exact hstate rfl
      subst hq0
      have hspace := hq.space
      rw [← hq.sz_eq] at hspace
      have hclean : ∀ q < nproc, (s.proc q).state = .unused → (s.proc q).trapframe = 0 ∧
          (s.proc q).pagetable = 0 ∧ (s.proc q).sz = 0 := by
        intro q _ hu
        have hne : q ≠ 0 := by
          rintro rfl
          exact hstate hu
        rw [hq.others q hne]
        exact ⟨rfl, rfl, rfl⟩
      have hfiles : ∀ fd f, (s.proc 0).ofile fd = some f → 1 ≤ s.fileRef f := by
        rw [hq.ofile]
        exact fun _ _ h => nomatch h
      obtain ⟨q', t', hf⟩ :=
        ((fork_copies_memory hspace hstate hclean hfiles).2.of_ok hrun).2 (by decide)
      exact ⟨s, s', t, q', t', hspace, hrun, hf⟩
    next => cases htest
  next => cases htest

end

end ProcSys

end Xv6
