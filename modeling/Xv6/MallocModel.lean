import Xv6.GrowProc

/-! `umalloc.c`: the allocator of user programs, over `sbrk`. A pointer is an address in bytes, a
header takes 16 bytes, and `room` says whether the kernel has memory for a growing process. An
access to a page that the process does not have kills it. -/

namespace Xv6

open Kern

/-- The fields of the headers by their addresses, `freep`, and the break of the process. -/
structure Heap where
  ptr : Nat → Nat
  size : Nat → Nat
  freep : Nat
  sz : Nat

namespace Heap

def limit (s : Heap) : Nat := npages s.sz * pgSize

/-- A header at `a` lies in memory of the process. -/
def Mapped (s : Heap) (a : Nat) : Prop := a + 16 ≤ s.limit

instance (s : Heap) (a : Nat) : Decidable (s.Mapped a) := Nat.decLe _ _

def access (a : Nat) : Kern Heap Unit := do
  let s ← getState
  if s.Mapped a then pure () else Kern.panic "usertrap(): unexpected scause"

def getPtr (a : Nat) : Kern Heap Nat := do
  access a
  let s ← getState
  pure (s.ptr a)

def getSize (a : Nat) : Kern Heap Nat := do
  access a
  let s ← getState
  pure (s.size a)

def setPtr (a v : Nat) : Kern Heap Unit := do
  access a
  modifyState fun s => { s with ptr := Function.update s.ptr a v }

def setSize (a v : Nat) : Kern Heap Unit := do
  access a
  modifyState fun s => { s with size := Function.update s.size a (v % 2 ^ 32) }

def setFreep (p : Nat) : Kern Heap Unit := modifyState fun s => { s with freep := p }

def toInt (x : Nat) : Int :=
  if x % 2 ^ 32 < 2 ^ 31 then (x % 2 ^ 32 : Nat) else (x % 2 ^ 32 : Nat) - 2 ^ 32

def sbrk (room : Bool) (n : Int) : Kern Heap Int := do
  let s ← getState
  if 0 < n then
    if room = true ∧ addInt s.sz n ≤ 2 ^ 27 then do
      modifyState fun s => { s with sz := addInt s.sz n }
      pure s.sz
    else pure (-1)
  else do
    modifyState fun s => { s with sz := min s.sz (addInt s.sz n) }
    pure s.sz

def freeSearch (bp : Nat) : Nat → Nat → Kern Heap Nat
  | 0, _ => Kern.panic "free: no end"
  | turns + 1, p => do
    let next ← getPtr p
    if bp > p ∧ bp < next then pure p
    else if p ≥ next ∧ (bp > p ∨ bp < next) then pure p
    else freeSearch bp turns next

def joinNext (bp p : Nat) : Kern Heap Unit := do
  let n ← getSize bp
  let next ← getPtr p
  if bp + 16 * n = next then do
    let m ← getSize next
    setSize bp (n + m)
    let q ← getPtr next
    setPtr bp q
  else setPtr bp next

def joinPrev (bp p : Nat) : Kern Heap Unit := do
  let m ← getSize p
  if p + 16 * m = bp then do
    let n ← getSize bp
    setSize p (m + n)
    let q ← getPtr bp
    setPtr p q
  else setPtr p bp

/-- `free` of `umalloc.c`. -/
def free (ap : Nat) : Kern Heap Unit := do
  let bp := ap - 16
  let s ← getState
  let p ← freeSearch bp s.limit s.freep
  joinNext bp p
  joinPrev bp p
  setFreep p

def morecore (room : Bool) (nu : Nat) : Kern Heap Nat := do
  let nu := if nu < 4096 then 4096 else nu
  let p ← sbrk room (toInt (nu * 16))
  if p = -1 then pure 0
  else do
    let hp := p.toNat
    setSize hp nu
    free (hp + 16)
    let s ← getState
    pure s.freep

def nunitsOf (nbytes : Nat) : Nat := (nbytes + 15) / 16 + 1

def take (nunits prevp p : Nat) : Kern Heap Nat := do
  let n ← getSize p
  if n = nunits then do
    let next ← getPtr p
    setPtr prevp next
    setFreep prevp
    pure (p + 16)
  else do
    setSize p (n - nunits)
    let q := p + 16 * (n - nunits)
    setSize q nunits
    setFreep prevp
    pure (q + 16)

def mallocSearch (room : Bool) (nunits : Nat) : Nat → Nat → Nat → Kern Heap Nat
  | 0, _, _ => Kern.panic "malloc: no end"
  | turns + 1, prevp, p => do
    let n ← getSize p
    if n ≥ nunits then take nunits prevp p
    else do
      let s ← getState
      if p = s.freep then do
        let p ← morecore room nunits
        if p = 0 then pure 0
        else do
          let next ← getPtr p
          mallocSearch room nunits turns p next
      else do
        let next ← getPtr p
        mallocSearch room nunits turns p next

def init (base : Nat) : Kern Heap Unit := do
  let s ← getState
  if s.freep = 0 then do
    setPtr base base
    setFreep base
    setSize base 0
  else pure ()

/-- `malloc` of `umalloc.c`. -/
def malloc (base : Nat) (room : Bool) (nbytes : Nat) : Kern Heap Nat := do
  init base
  let s ← getState
  let p ← getPtr s.freep
  mallocSearch room (nunitsOf nbytes) s.limit s.freep p

section

variable {s s0 : Heap} {E : String → Prop} {a v : Nat} {n : Int} {room : Bool}

lemma Mapped.of_sz (h : s0.Mapped a) (hs : s.sz = s0.sz) : s.Mapped a := by
  unfold Mapped limit at *
  rwa [hs]

lemma access_eq (h : s.Mapped a) : access a s = .ok ((), s) := by
  unfold access
  rw [kern_bind_run (show getState s = .ok (s, s) from rfl), if_pos h]
  rfl

variable {Q : Unit → Heap → Prop}

lemma sat_setSize_fault (h : ¬ s.Mapped a) :
    (setSize a v).Sat s E Q ↔ E "usertrap(): unexpected scause" := by
  have hfault : access a s = .error "usertrap(): unexpected scause" := by
    unfold access
    rw [kern_bind_run (show getState s = .ok (s, s) from rfl), if_neg h]
    rfl
  rw [setSize, sat_bind, sat_of_error hfault]

lemma sat_getPtr {Q : Nat → Heap → Prop} (h : s0.Mapped a) (hs : s.sz = s0.sz := by rfl) :
    (getPtr a).Sat s E Q ↔ Q (s.ptr a) s := by
  rw [getPtr, sat_bind, sat_of_eq (access_eq (h.of_sz hs)), sat_bind, sat_getState, sat_pure]

lemma sat_getSize {Q : Nat → Heap → Prop} (h : s0.Mapped a) (hs : s.sz = s0.sz := by rfl) :
    (getSize a).Sat s E Q ↔ Q (s.size a) s := by
  rw [getSize, sat_bind, sat_of_eq (access_eq (h.of_sz hs)), sat_bind, sat_getState, sat_pure]

lemma sat_setPtr (h : s0.Mapped a) (hs : s.sz = s0.sz := by rfl) :
    (setPtr a v).Sat s E Q ↔ Q () { s with ptr := Function.update s.ptr a v } := by
  rw [setPtr, sat_bind, sat_of_eq (access_eq (h.of_sz hs)), sat_modifyState]

lemma sat_setSize (h : s0.Mapped a) (hv : v < 2 ^ 32) (hs : s.sz = s0.sz := by rfl) :
    (setSize a v).Sat s E Q ↔ Q () { s with size := Function.update s.size a v } := by
  rw [setSize, sat_bind, sat_of_eq (access_eq (h.of_sz hs)), sat_modifyState, Nat.mod_eq_of_lt hv]

lemma sat_setFreep : (setFreep v).Sat s E Q ↔ Q () { s with freep := v } := sat_modifyState

lemma sbrk_grows (hn : 0 < n) (hroom : room = true ∧ addInt s.sz n ≤ 2 ^ 27) :
    sbrk room n s = .ok (s.sz, { s with sz := addInt s.sz n }) := by
  unfold sbrk
  rw [kern_bind_run (show getState s = .ok (s, s) from rfl), if_pos hn, if_pos hroom]
  rfl

lemma sbrk_fails (hn : 0 < n) (hroom : ¬ (room = true ∧ addInt s.sz n ≤ 2 ^ 27)) :
    sbrk room n s = .ok (-1, s) := by
  unfold sbrk
  rw [kern_bind_run (show getState s = .ok (s, s) from rfl), if_pos hn, if_neg hroom]
  rfl

lemma sbrk_shrinks (hn : ¬ 0 < n) :
    sbrk room n s = .ok (s.sz, { s with sz := min s.sz (addInt s.sz n) }) := by
  unfold sbrk
  rw [kern_bind_run (show getState s = .ok (s, s) from rfl), if_neg hn]
  rfl

end

end Heap

section

variable {K : KernelImage} {L : List Nat} {m m' : Mem} {root tf g : Nat} {t : Radix Nat 2} {n : Int}
  {r : Int × Nat} {s : Heap}

lemma sysSbrk_eq {sz : Nat} {e : Int × Nat} (h : growproc K root sz n m = .ok (e, m')) :
    sysSbrk K root sz n m = .ok (if e.1 < 0 then (-1, e.2) else ((sz : Int), e.2), m') := by
  rw [sysSbrk, kern_bind_run h]
  by_cases he : e.1 < 0
  · rw [if_pos he, if_pos he]
    rfl
  · rw [if_neg he, if_neg he]
    rfl

lemma growproc_nonpos {sz : Nat} {e : Int × Nat} (hn : ¬ 0 < n)
    (h : growproc K root sz n m = .ok (e, m')) : e.1 = 0 := by
  have hsat : (growproc K root sz n).Sat m (fun _ => True) fun e _ => e.1 = 0 := by
    unfold growproc
    rw [if_neg hn]
    by_cases hneg : n < 0
    · rw [if_pos hneg]
      have hany : (uvmdealloc K root sz (addInt sz n)).Sat m (fun _ => True) fun _ _ => True :=
        ⟨fun _ => trivial, fun _ => trivial⟩
      exact hany.bind fun r m' _ => sat_pure.mpr rfl
    · rw [if_neg hneg]
      exact sat_pure.mpr rfl
  exact hsat.of_ok h

/-- What `sys_sbrk` does to the page table and the size is an `sbrk` of the allocator's model. -/
theorem sysSbrk_refines (h : Space K L m root tf (npages s.sz) g t) (hlo : -2 ^ 31 ≤ n)
    (hhi : n < 2 ^ 31) (hrun : sysSbrk K root s.sz n m = .ok (r, m')) :
    ∃ room, Heap.sbrk room n s = .ok (r.1, { s with sz := r.2 }) := by
  have hsz := h.sz_lt
  by_cases h0 : 0 ≤ (s.sz : Int) + n
  · have hnew := addInt_of_nonneg h0 (by omega)
    obtain ⟨e, m1, hg, t', hs', -, hres⟩ := (growproc_sat h hhi h0).returns
    have hsz' := hs'.sz_lt
    rw [sysSbrk_eq hg] at hrun
    cases hrun
    rcases hres with ⟨he, hval, -⟩ | ⟨he, hval, -⟩
    · have hval' : e.2 = addInt s.sz n := by omega
      rw [he, if_neg (by decide), hval']
      by_cases hpos : 0 < n
      · exact ⟨true, Heap.sbrk_grows hpos ⟨rfl, hval' ▸ hsz'⟩⟩
      · have hmin : min s.sz (addInt s.sz n) = addInt s.sz n := by omega
        refine ⟨true, (Heap.sbrk_shrinks hpos).trans ?_⟩
        rw [hmin]
    · rw [he, if_pos (by decide), hval]
      have hpos : 0 < n := by
        by_contra hneg
        have hzero := growproc_nonpos hneg hg
        omega
      exact ⟨false, Heap.sbrk_fails hpos fun hroom => Bool.false_ne_true hroom.1⟩
  · rw [sysSbrk_eq (growproc_below_zero hsz hlo (by omega))] at hrun
    cases hrun
    have hmin : min s.sz (addInt s.sz n) = s.sz := by
      unfold addInt
      omega
    refine ⟨true, (Heap.sbrk_shrinks (by omega)).trans ?_⟩
    rw [hmin]
    rfl

theorem sysSbrk_refines_first :
    ∃ m root t r m' room, Space smallKernel [] m root 0x87fff000 (npages 4096) 1 t ∧
    sysSbrk smallKernel root 4096 (-4096) m = .ok (r, m') ∧
    Heap.sbrk room (-4096) ⟨fun _ => 0, fun _ => 0, 0, 4096⟩ = .ok (r.1,
      ⟨fun _ => 0, fun _ => 0, 0, r.2⟩) := by
  obtain ⟨m, root, t, hs⟩ := exists_space
  have hs' : Space smallKernel [] m root 0x87fff000 (npages 4096) 1 t := hs
  obtain ⟨e, m', hg, -⟩ := (growproc_sat (n := -4096) hs' (by decide) (by decide)).returns
  obtain ⟨room, hr⟩ := sysSbrk_refines (s := ⟨fun _ => 0, fun _ => 0, 0, 4096⟩) hs' (by decide)
    (by decide) (sysSbrk_eq hg)
  exact ⟨m, root, t, _, m', room, hs', sysSbrk_eq hg, hr⟩

end

end Xv6
