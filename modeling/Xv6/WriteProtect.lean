import Xv6.ExecRun

/-! What the kernel stores to user memory in `read`, `fstat`, `wait` and `pipe`, and the pages
that user code itself cannot store to. -/

namespace Xv6

open Kern List

/-- The page has `PTE_W`. -/
def Writable (t : Radix Nat 2) (v : Nat) : Prop := has (t.val sv39 v) pteW = true

instance (t : Radix Nat 2) (v : Nat) : Decidable (Writable t v) := instDecidableEqBool _ _

/-- The calls that store to user memory, with what they store. A `read` has its data in
pieces: blocks of a file, or single bytes of a pipe or the console. -/
inductive OutCall where
  | read (addr : UInt64) (pieces : List (List UInt8))
  | fstat (addr : UInt64) (st : List UInt8)
  | wait (addr : UInt64) (xstate : List UInt8)
  | pipe (fdarray : UInt64) (fd0 fd1 : List UInt8)

def OutCall.addr : OutCall → UInt64
  | .read addr _ => addr
  | .fstat addr _ => addr
  | .wait addr _ => addr
  | .pipe fdarray _ _ => fdarray

def OutCall.pieces : OutCall → List (List UInt8)
  | .read _ pieces => pieces
  | .fstat _ st => [st]
  | .wait addr xstate => if addr = 0 then [] else [xstate]
  | .pipe _ fd0 fd1 => [fd0, fd1]

/-- Some calls of `copyout`, until one fails. -/
def copyouts (pagetable : Nat) : Nat → List (List UInt8) → Kern Mem Int
  | _, [] => pure 0
  | addr, src :: rest => do
    let e ← copyout pagetable addr src
    if e < 0 then pure (-1) else copyouts pagetable (u64 (addr + src.length)) rest

def OutCall.run (pagetable : Nat) (c : OutCall) : Kern Mem Int :=
  copyouts pagetable c.addr.toNat c.pieces

/-- The bytes of a range that the kernel reaches are on pages that user code may store to. -/
def StoreAllowed (t : Radix Nat 2) (a len : Nat) : Prop :=
  ∀ i < len, (∀ j ≤ i, UserAt t (a + j)) → Writable t ((a + i) / pgSize)

/-- What the call stores lies in writable pages. -/
def OutCall.Allowed (t : Radix Nat 2) (c : OutCall) : Prop :=
  StoreAllowed t c.addr.toNat c.pieces.flatten.length

/-- The pages without `PTE_W` are as they were. -/
def Protected (t : Radix Nat 2) (m m' : Mem) : Prop :=
  ∀ a, UserAt t a → ¬ Writable t (a / pgSize) → m'.user t a = m.user t a

/-- What a process does to its memory: calls, and stores of user code, which fault on other pages. -/
inductive UserStep where
  | call (c : OutCall)
  | store (a : Nat) (b : UInt8)

def userStore (t : Radix Nat 2) (a : Nat) (b : UInt8) (m : Mem) : Mem :=
  if UserAt t a ∧ Writable t (a / pgSize) then
    m.setPage (physPage t (a / pgSize)) ((m.page (physPage t (a / pgSize))).patch (a % pgSize) [b])
  else m

def UserStep.exec (pagetable : Nat) (t : Radix Nat 2) : UserStep → Kern Mem Unit
  | .call c => do
    let _ ← c.run pagetable
    pure ()
  | .store a b => modifyState (userStore t a b)

def UserStep.Allowed (t : Radix Nat 2) : UserStep → Prop
  | .call c => c.Allowed t
  | .store _ _ => True

section

variable {t : Radix Nat 2} {m m' : Mem} {root a : Nat} {cs : List (List UInt8)} {E : String → Prop}

lemma copyouts_eq (cs : List (List UInt8)) (ha : a < 2 ^ 64) (h : UserTable m root t) :
    ∃ k e m', copyouts root a cs m = .ok (e, m') ∧ k ≤ cs.flatten.length ∧
    (∀ i < k, UserAt t (a + i)) ∧ (k < cs.flatten.length → ¬ UserAt t (a + k)) ∧
    UserStored t m a (cs.flatten.take k) m' := by
  induction cs generalizing a m with
  | nil =>
    exact ⟨0, 0, m, rfl, le_rfl, nofun, fun h0 => absurd h0 (Nat.lt_irrefl 0), userStored_nil _ _ _⟩
  | cons c cs ih =>
    obtain ⟨k, m1, hrun, hreach, hst⟩ := copyoutLoop_eq a c h (le_refl _)
    have hout : copyout root a c m = .ok (if k = c.length then 0 else -1, m1) := hrun
    have hle := hreach.le
    rw [flatten_cons, length_append]
    by_cases hk : k = c.length
    · subst hk
      rw [if_pos rfl] at hout
      have hnext : u64 (a + c.length) = a + c.length := by
        refine u64_of_lt ?_
        by_cases h0 : c.length = 0
        · omega
        · have hlt := (hreach.user (c.length - 1) (by omega)).lt
          rw [maxVa_eq] at hlt
          unfold pgSize at hlt
          omega
      rw [take_length] at hst
      have h1 := h.stored hst
      obtain ⟨k2, e, m2, hrun2, hle2, hu2, hstop2, hst2⟩ :=
        ih (a := a + c.length) (by rw [← hnext]; exact Nat.mod_lt _ (by decide)) h1
      refine ⟨c.length + k2, e, m2, ?_, by omega, fun i hi => ?_, fun hlt => ?_, ?_⟩
      · rw [copyouts, kern_bind_run hout, if_neg (by decide), hnext, hrun2]
      · by_cases hic : i < c.length
        · exact hreach.user i hic
        · have hu := hu2 (i - c.length) (by omega)
          rwa [Nat.add_assoc, Nat.add_sub_cancel' (by omega)] at hu
      · have hn := hstop2 (by omega)
        rwa [Nat.add_assoc] at hn
      · rw [take_append, take_of_length_le (by omega), Nat.add_sub_cancel_left]
        exact hst.append hst2
    · rw [if_neg hk] at hout
      refine ⟨k, -1, m1, ?_, by omega, hreach.user, fun _ => (hreach.stop (by omega)).1, ?_⟩
      · rw [copyouts, kern_bind_run hout, if_pos (by decide)]
        rfl
      · rwa [take_append, Nat.sub_eq_zero_of_le hle, take_zero, append_nil]

lemma Protected.refl (t : Radix Nat 2) (m : Mem) : Protected t m m := fun _ _ _ => rfl

lemma Protected.trans {m'' : Mem} (h : Protected t m m') (h' : Protected t m' m'') :
    Protected t m m'' :=
  fun a ha hw => (h' a ha hw).trans (h a ha hw)

lemma copyouts_protected (ha : a < 2 ^ 64) (h : UserTable m root t)
    (hall : StoreAllowed t a cs.flatten.length) {e : Int}
    (hrun : copyouts root a cs m = .ok (e, m')) : UserTable m' root t ∧ Protected t m m' := by
  obtain ⟨k, e', m1, hrun', hle, hu, -, hst⟩ := copyouts_eq cs ha h
  rw [hrun'] at hrun
  cases hrun
  refine ⟨h.stored hst, fun x hx hw => ?_⟩
  rw [hst.bytes x hx, if_neg]
  rintro ⟨hlo, hhi⟩
  rw [length_take] at hhi
  have hw' := hall (x - a) (by omega) fun j hj => hu j (by omega)
  rw [Nat.add_sub_cancel' hlo] at hw'
  exact hw hw'

def filled (cs : List (List UInt8)) (b : UInt8) : List (List UInt8) :=
  cs.map fun c => List.replicate c.length b

lemma filled_flatten (cs : List (List UInt8)) (b : UInt8) :
    (filled cs b).flatten = List.replicate cs.flatten.length b := by
  induction cs with
  | nil => rfl
  | cons c cs ih =>
    rw [filled, map_cons, flatten_cons, flatten_cons, length_append, ← replicate_append_replicate]
    exact congrArg _ ih

lemma copyouts_changes (ha : a < 2 ^ 64) (h : UserTable m root t)
    (hall : ¬ StoreAllowed t a cs.flatten.length) :
    ∃ b e m', copyouts root a (filled cs b) m = .ok (e, m') ∧ ¬ Protected t m m' := by
  unfold StoreAllowed at hall
  push Not at hall
  obtain ⟨i, hi, hu, hw⟩ := hall
  obtain ⟨k, e, m', hrun, hle, -, hstop, hst⟩ := copyouts_eq (filled cs (m.user t (a + i) + 1)) ha h
  refine ⟨_, e, m', hrun, fun hp => ?_⟩
  rw [filled_flatten, length_replicate] at hle hstop
  rw [filled_flatten] at hst
  have hik : i < k := by
    by_contra hlt
    exact hstop (by omega) (hu k (by omega))
  have hnew := hst.bytes (a + i) (hu i le_rfl)
  have hold := hp (a + i) (hu i le_rfl) hw
  rw [hold, take_replicate, length_replicate, if_pos (by omega), Nat.add_sub_cancel_left,
    getD_replicate _ (by omega)] at hnew
  have hnat := congrArg UInt8.toNat hnew
  rw [UInt8.toNat_add] at hnat
  have hlt := (m.user t (a + i)).toNat_lt
  have hone : (1 : UInt8).toNat = 1 := rfl
  omega

lemma userStore_protected (h : UserTable m root t) (b : UInt8) :
    UserTable (userStore t a b m) root t ∧ Protected t m (userStore t a b m) := by
  unfold userStore
  by_cases hok : UserAt t a ∧ Writable t (a / pgSize)
  · have hlt : a % pgSize < pgSize := Nat.mod_lt a (by decide)
    have hst := h.store [b] hok.1 (by rw [length_singleton]; omega)
    rw [if_pos hok]
    refine ⟨h.stored hst, fun x hx hw => ?_⟩
    rw [hst.bytes x hx, if_neg]
    rw [length_singleton]
    rintro ⟨hlo, hhi⟩
    have hxa : x = a := by omega
    exact hw (hxa ▸ hok.2)
  · rw [if_neg hok]
    exact ⟨h, Protected.refl t m⟩

lemma UserStep.exec_sat (u : UserStep) (h : UserTable m root t) (hu : u.Allowed t) :
    (u.exec root t).Sat m E fun _ m' => UserTable m' root t ∧ Protected t m m' := by
  cases u with
  | call c =>
    obtain ⟨k, e, m1, hrun, -⟩ := copyouts_eq c.pieces c.addr.toNat_lt h
    have hrun' : c.run root m = .ok (e, m1) := hrun
    rw [UserStep.exec, sat_bind, sat_of_eq hrun']
    exact sat_pure.mpr (copyouts_protected c.addr.toNat_lt h hu hrun)
  | store a b => exact sat_modifyState.mpr (userStore_protected h b)

/-- Allowed steps leave the protected pages alone. -/
lemma userSteps_sat (us : List UserStep) (h : UserTable m root t) (hu : ∀ u ∈ us, u.Allowed t) :
    (forEach (UserStep.exec root t) us).Sat m E fun _ m' => UserTable m' root t ∧ Protected t m m' := by
  refine (sat_forEach (I := fun us m' => (∀ u ∈ us, u.Allowed t) ∧ UserTable m' root t ∧
    Protected t m m') ⟨hu, h, Protected.refl t m⟩ ?_).imp fun _ _ hm => hm.2
  rintro u us m1 ⟨hu, h1, hp1⟩
  refine (u.exec_sat h1 (hu u (mem_cons_self ..))).imp ?_
  rintro _ m2 ⟨h2, hp2⟩
  exact ⟨fun x hx => hu x (mem_cons_of_mem _ hx), h2, hp1.trans hp2⟩

lemma StoreAllowed.iff (ha : a < 2 ^ 64) (h : UserTable m root t) :
    StoreAllowed t a cs.flatten.length ↔ ∀ ds : List (List UInt8),
    ds.map List.length = cs.map List.length → ∀ e m', copyouts root a ds m = .ok (e, m') →
    Protected t m m' := by
  constructor
  · intro hall ds hds e m' hrun
    have hlen : ds.flatten.length = cs.flatten.length := by rw [length_flatten, length_flatten, hds]
    exact (copyouts_protected ha h (hlen ▸ hall) hrun).2
  · intro hkeep
    by_contra hall
    obtain ⟨b, e, m', hrun, hno⟩ := copyouts_changes ha h hall
    refine hno (hkeep _ ?_ e m' hrun)
    rw [filled, map_map]
    exact map_congr_left fun c _ => by simp

end

namespace ExecSys

section

variable {K : KernelImage} {L : List Nat} {s s' : ExecSys} {p : ExecProc} {r : Int × ExecProc}
  {g ip : Nat} {told t : Radix Nat 2}
  {node : FileNode} {path file : List UInt8} {argv : List (List UInt8)} {m : Mem}

lemma Executed.writable_iff (h : Executed K L p file argv r m t) {v : Nat}
    (hv : v < npages (imageSz (loadHdrs file))) :
    Writable t v ↔ has (pagePerm (loadHdrs file) v) pteW = true := by
  have hR : has pteR pteW = false := rfl
  have hU : has pteU pteW = false := rfl
  have hV : has pteV pteW = false := rfl
  rw [Writable, has_low (by decide), ← pteFlags_eq, h.flags v hv, has_or, has_or, has_or, hR, hU, hV]
  simp

lemma elf_executed : ∃ (s : ExecSys) (p : ExecProc) (told : Radix Nat 2) (node : FileNode)
    (r : Int × ExecProc) (s' : ExecSys) (t : Radix Nat 2),
    Space tinyKernel [p.trapframe] s.mem p.pagetable p.trapframe (npages p.sz) 0 told ∧ FsInv s.fs ∧
    Xv6.Loaded 1 s.fs ∧ s.fs.node (s.fs.itable 1).inum = some node ∧ node.bytes = elfFile ∧
    exec tinyKernel p [97] 1 [] s = .ok (r, s') ∧ r.1 ≠ -1 ∧
    Executed tinyKernel [p.trapframe] p elfFile [] r s'.mem t := by
  obtain ⟨s, p, told, node, x, s1, hs, hi, hip, hn, hfile, hl⟩ := elf_process
  obtain ⟨r, s', hrun, -, -, hok, hiff⟩ :=
    (ExecSys.exec_sat [97] [] (E := fun _ => False) hs (mem_singleton_self _)
    (hi.fileAt hip hn) (by decide) nofun).returns
  have hr : r.1 ≠ -1 := fun h => absurd ((hiff x s1 hl).mp h) (by decide)
  obtain ⟨-, -, t, he⟩ := hok hr
  rw [hfile] at he
  exact ⟨s, p, told, node, r, s', t, hs, hi, hip, hn, hfile, hrun, hr, he⟩

/-- In a process that `exec` has built: as long as every call stores, as far as it gets, to pages
with `PTE_W` only, the pages without it keep what `exec` has loaded. A call that may reach
another page changes it, for some data. -/
theorem copyout_protection_iff (hold : Space K L s.mem p.pagetable p.trapframe (npages p.sz) g told)
    (htf : p.trapframe ∈ L) (hi : FsInv s.fs) (hip : Xv6.Loaded ip s.fs)
    (hn : s.fs.node (s.fs.itable ip).inum = some node)
    (hargc : argv.length < maxarg) (hlen : ∀ a ∈ argv, a.length < 2 ^ 61)
    (hrun : exec K p path ip argv s = .ok (r, s'))
    (hr : r.1 ≠ -1) : ∃ t, UserTable s'.mem r.2.pagetable t ∧
      (∀ v < npages (imageSz (loadHdrs node.bytes)), Writable t v ↔
        has (pagePerm (loadHdrs node.bytes) v) pteW = true) ∧
      (∀ us m', (∀ u ∈ us, u.Allowed t) →
        forEach (UserStep.exec r.2.pagetable t) us s'.mem = .ok ((), m') → Protected t s'.mem m' ∧
          ∀ a, a / pgSize < npages (imageSz (loadHdrs node.bytes)) → ¬ Writable t (a / pgSize) →
          m'.user t a = imageOf node.bytes (loadHdrs node.bytes) a) ∧
      ∀ (addr : UInt64) (cs : List (List UInt8)) (m : Mem), UserTable m r.2.pagetable t →
        (StoreAllowed t addr.toNat cs.flatten.length ↔ ∀ ds : List (List UInt8),
          ds.map List.length = cs.map List.length →
          ∀ e m', copyouts r.2.pagetable addr.toNat ds m = .ok (e, m') → Protected t m m') := by
  have hsat : (exec K p path ip argv).Sat s (fun _ => False) _ :=
    ExecSys.exec_sat path argv hold htf (hi.fileAt hip hn) hargc hlen
  obtain ⟨-, -, t, he⟩ := (hsat.of_ok hrun).2.2.1 hr
  have htable := he.space.userTable
  refine ⟨t, htable, fun v hv => he.writable_iff hv, fun us m' hus hrun' => ?_, fun addr cs m hm =>
    StoreAllowed.iff addr.toNat_lt hm⟩
  have hsteps : (forEach (UserStep.exec r.2.pagetable t) us).Sat s'.mem (fun _ => False) _ :=
    userSteps_sat us htable hus
  have hprot := (hsteps.of_ok hrun').2
  refine ⟨hprot, fun a ha hw => ?_⟩
  have hua : UserAt t a := he.space.userAt (by omega) (by omega)
  rw [hprot a hua hw, he.bytes a ha]

theorem copyout_protection_elf : ∃ (s : ExecSys) (p : ExecProc) (r : Int × ExecProc) (s' : ExecSys)
    (t : Radix Nat 2), exec tinyKernel p [97] 1 [] s = .ok (r, s') ∧ r.1 ≠ -1 ∧
    UserTable s'.mem r.2.pagetable t ∧ ¬ Writable t 0 := by
  obtain ⟨s, p, told, node, r, s', -, hs, hi, hip, hn, hfile, hrun, hr, -⟩ := elf_executed
  have hlen : ∀ a ∈ ([] : List (List UInt8)), a.length < 2 ^ 61 := nofun
  obtain ⟨t, ht, hw, -⟩ :=
    copyout_protection_iff hs (mem_singleton_self _) hi hip hn (by decide) hlen hrun hr
  rw [hfile] at hw
  exact ⟨s, p, r, s', t, hrun, hr, ht, fun h => absurd ((hw 0 (by decide)).mp h) (by decide)⟩

def rootStat : List UInt8 :=
  [1, 0, 0, 0, 1, 0, 0, 0, 1, 0, 1, 0, 0, 0, 0, 0, 0, 4, 0, 0, 0, 0, 0, 0]

/-- `fstat(fd, 0)` writes over the text of the program. -/
theorem copyout_changes_text : ∃ (s : ExecSys) (p : ExecProc) (r : Int × ExecProc) (s' : ExecSys)
    (t : Radix Nat 2) (m' : Mem), exec tinyKernel p [97] 1 [] s = .ok (r, s') ∧ r.1 ≠ -1 ∧
    UserTable s'.mem r.2.pagetable t ∧ UserAt t 0 ∧ ¬ Writable t 0 ∧
    (OutCall.fstat 0 rootStat).run r.2.pagetable s'.mem = .ok (0, m') ∧ s'.mem.user t 0 = 0x7f ∧
    m'.user t 0 = 1 := by
  obtain ⟨s, p, -, -, r, s', t, -, -, -, -, -, hrun, hr, he⟩ := elf_executed
  have htable := he.space.userTable
  have hN : npages (imageSz (loadHdrs elfFile)) = 1 := by decide
  have hu : ∀ i < 24, UserAt t (0 + i) := by
    intro i hi
    refine he.space.userAt ?_ ?_
    all_goals
      rw [hN]
      unfold pgSize
      omega
  have hw : ¬ Writable t 0 := fun h => absurd ((he.writable_iff (by decide)).mp h) (by decide)
  have hold : s'.mem.user t 0 = 0x7f := by
    rw [he.bytes 0 (by decide)]
    decide
  obtain ⟨k, m', hcopy, hreach, hst⟩ := copyoutLoop_eq 0 rootStat htable (le_refl _)
  have hk : k = 24 := hreach.all_iff.mpr hu
  have hout : copyout r.2.pagetable 0 rootStat s'.mem = .ok (0, m') := by
    rw [hk, if_pos (by decide)] at hcopy
    exact hcopy
  refine ⟨s, p, r, s', t, m', hrun, hr, htable, hu 0 (by decide), hw, ?_, hold, ?_⟩
  · have hcalls :
      (OutCall.fstat 0 rootStat).run r.2.pagetable = copyouts r.2.pagetable 0 [rootStat] := rfl
    rw [hcalls, copyouts, kern_bind_run hout, if_neg (by decide)]
    rfl
  · rw [hst.bytes 0 (hu 0 (by decide)), hk, if_pos (by decide)]
    rfl

end

end ExecSys

end Xv6
