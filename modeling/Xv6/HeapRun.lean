import Xv6.HeapAlloc

/-! Programs that use `malloc` and `free`: from a process without a heap, any sequence of calls
and of stores to the blocks that the program holds. -/

namespace Xv6

open Kern List
open Function (iterate_succ_apply' update update_of_ne)

namespace Heap

structure Prog where
  heap : Heap
  live : List Nat

inductive HeapOp where
  | malloc (room : Bool) (nbytes : Nat)
  | free (ap : Nat)
  | store (a ptr size : Nat)

/-- What a correct program does: it frees what it holds, and stores behind the headers. -/
def HeapOp.Legal (u : Prog) : HeapOp → Prop
  | .malloc _ nbytes => nbytes < 2 ^ 32
  | .free ap => ap ∈ u.live
  | .store a _ _ => ∃ p ∈ u.live, ∃ i, a = p + 16 * i ∧ i + 1 < u.heap.size (p - 16)

/-- The number of bytes that `malloc` asks the kernel for is an `int`, or it gets nothing. -/
def HeapOp.Allowed (u : Prog) : HeapOp → Prop
  | .malloc room nbytes => 16 * nunitsOf nbytes < 2 ^ 31 ∨ Refused room (nunitsOf nbytes) u.heap
  | _ => True

def Prog.hold (live : List Nat) (r : Nat) : List Nat := if r = 0 then live else r :: live

def HeapOp.exec (base : Nat) : HeapOp → Kern Prog Unit
  | .malloc room nbytes => do
    let r ← zoom Prog.heap (fun s u => { u with heap := s }) (Heap.malloc base room nbytes)
    modifyState fun u => { u with live := Prog.hold u.live r }
  | .free ap => do
    zoom Prog.heap (fun s u => { u with heap := s }) (Heap.free ap)
    modifyState fun u => { u with live := u.live.filter (· ≠ ap) }
  | .store a ptr size => modifyState fun u =>
    { u with heap := { u.heap with ptr := update u.heap.ptr a ptr, size := update u.heap.size a size } }

/-- The states of the runs whose steps are all legal and allowed, from a break at `lo`. -/
inductive Reached (base lo : Nat) : Prog → Prop
  | start (s : Heap) : 0 < base → base + 16 ≤ lo → lo ≤ 2 ^ 27 → s.freep = 0 → s.sz = lo →
      Reached base lo ⟨s, []⟩
  | step {u u' : Prog} (op : HeapOp) : Reached base lo u → op.Legal u → op.Allowed u →
      op.exec base u = .ok ((), u') → Reached base lo u'

/-- The block is reached from `freep`. -/
def OnList (s : Heap) (a : Nat) : Prop := s.freep ≠ 0 ∧ ∃ k, s.ptr^[k] s.freep = a

/-- The headers of the blocks, free or held, describe memory between `lo` and the break. -/
def Sound (base lo : Nat) (s : Heap) (live : List Nat) : Prop :=
  ∀ a, OnList s a ∧ a ≠ base ∨ a + 16 ∈ live → lo ≤ a ∧ a + 16 * s.size a ≤ s.sz

def MallocSafe (base lo : Nat) (room : Bool) (nbytes : Nat) (u : Prog) : Prop :=
  ∃ r s', malloc base room nbytes u.heap = .ok (r, s') ∧ (r = 0 ∨ lo ≤ r ∧ r + nbytes ≤ s'.sz) ∧
    Sound base lo s' (Prog.hold u.live r)

structure Runs (base lo : Nat) (u : Prog) (bs : List Block) : Prop extends Ready base lo u.heap bs where
  live : ∀ p, p ∈ u.live ↔ ∃ b ∈ bs, b.free = false ∧ p = b.addr + 16

section

variable {base lo top nbytes : Nat} {s s' : Heap} {u u' : Prog} {bs bs' : List Block} {b c : Block}
  {room : Bool} {live : List Nat}

variable {a v w : Nat}

lemma HeapAt.onList_iff (hb : 0 < base) (h : HeapAt base lo s bs top) :
    OnList s a ↔ a ∈ base :: frees bs := by
  have hsort := h.tiles.frees_sorted h.base_lt
  constructor
  · rintro ⟨-, k, rfl⟩
    induction k with
    | zero => exact h.head
    | succ k ih =>
      rw [iterate_succ_apply']
      rcases h.links.next_mem hsort ih with ⟨-, hz⟩ | ⟨hin, -⟩
      · rw [hz]
        exact mem_cons_self ..
      · exact mem_cons_of_mem _ hin
  · intro ha
    obtain ⟨ys, hring, hmem, -⟩ := h.cycle
    exact ⟨(h.freep_pos hb).ne', hring.reach ((hmem a).mpr ha)⟩

lemma HeapAt.sound (hb : 0 < base) (h : HeapAt base lo s bs s.sz)
    (hlive : ∀ p, p ∈ live ↔ ∃ b ∈ bs, b.free = false ∧ p = b.addr + 16) : Sound base lo s live := by
  have hblock : ∀ b ∈ bs, lo ≤ b.addr ∧ b.addr + 16 * s.size b.addr ≤ s.sz := by
    intro b hb
    obtain ⟨hlo, -, hhi⟩ := h.tiles.mem hb
    rw [h.sizes b hb]
    exact ⟨hlo, hhi⟩
  rintro a (⟨hon, hne⟩ | hin)
  · obtain ⟨b, hb, -, rfl⟩ := mem_frees.mp ((mem_cons.mp ((h.onList_iff hb).mp hon)).resolve_left hne)
    exact hblock b hb
  · obtain ⟨b, hb, -, heq⟩ := (hlive _).mp hin
    obtain rfl : a = b.addr := by omega
    exact hblock b hb

lemma HeapAt.not_sound (hb : 0 < base) (h : HeapAt base lo s bs top) (hne : bs ≠ [])
    (htop : s.sz < top) (hlive : ∀ p, p ∈ live ↔ ∃ b ∈ bs, b.free = false ∧
      p = b.addr + 16) : ¬ Sound base lo s live := by
  intro hsound
  obtain ⟨X, b, rfl⟩ := (eq_nil_or_concat' bs).resolve_left hne
  obtain ⟨-, -, hstop⟩ := h.tiles.split
  have hbm : b ∈ X ++ [b] := by simp
  have hlo := (h.tiles.mem hbm).1
  have hlt := h.base_lt
  have hstop' : b.addr + 16 * b.units = top := hstop
  have hle : b.addr + 16 * s.size b.addr ≤ s.sz := by
    refine (hsound b.addr ?_).2
    by_cases hf : b.free = true
    · exact .inl ⟨(h.onList_iff hb).mpr (mem_cons_of_mem _ (mem_frees.mpr ⟨b, hbm, hf, rfl⟩)), by omega⟩
    · exact .inr ((hlive _).mpr ⟨b, hbm, by simpa using hf, rfl⟩)
  rw [h.sizes b hbm] at hle
  omega

lemma TakenFrom.hold {nunits r : Nat} (h : TakenFrom bs nunits r c bs')
    (hlive : ∀ p, p ∈ live ↔ ∃ b ∈ bs, b.free = false ∧ p = b.addr + 16) :
    ∀ p, p ∈ Prog.hold live r ↔ ∃ b ∈ bs', b.free = false ∧ p = b.addr + 16 := by
  intro p
  have hr := h.ptr
  rw [Prog.hold, if_neg (by omega), mem_cons, hlive]
  constructor
  · rintro (rfl | ⟨b, hb, hbf, rfl⟩)
    · exact ⟨c, h.mem, h.taken, hr⟩
    · exact ⟨b, (h.live b hbf).mpr (.inr hb), hbf, rfl⟩
  · rintro ⟨b, hb, hbf, rfl⟩
    rcases (h.live b hbf).mp hb with rfl | hb
    · exact .inl hr.symm
    · exact .inr ⟨b, hb, hbf, rfl⟩

lemma nunitsOf_ge (nbytes : Nat) : nbytes + 16 ≤ 16 * nunitsOf nbytes := by
  unfold nunitsOf
  omega

lemma Runs.malloc_ok (room : Bool) (h : Runs base lo u bs)
    (hop : (HeapOp.malloc room nbytes).Legal u) (hok : (HeapOp.malloc room nbytes).Allowed u) :
    ∃ r s' bs', malloc base room nbytes u.heap = .ok (r, s') ∧
    Runs base lo ⟨s', Prog.hold u.live r⟩ bs' ∧ HeapAt base lo s' bs' s'.sz ∧
      (r = 0 ∧ Refused room (nunitsOf nbytes) u.heap ∨
        ∃ c, TakenFrom bs (nunitsOf nbytes) r c bs') := by
  obtain ⟨r, s', hrun, ⟨rfl, hs', hsz, hr⟩ | ⟨ha, hbig⟩⟩ :=
    (malloc_sat (E := fun _ => False) room h.toReady hop fun hnot => absurd hok hnot).returns
  · exact ⟨0, s', bs, hrun, ⟨⟨.inr hs', h.pos, h.below, hsz ▸ h.bound⟩, h.live⟩, hs', .inl ⟨rfl, hr⟩⟩
  · have hlt : 16 * nunitsOf nbytes < 2 ^ 31 := by
      by_contra hge
      exact hok.elim hge (hbig (by omega))
    obtain ⟨bs', c, top, hs', htaken, hsmall, -⟩ := ha.result
    obtain ⟨rfl, hbound⟩ := hsmall hlt
    exact ⟨r, s', bs', hrun, ⟨⟨.inr hs', h.pos, h.below, hbound⟩, htaken.hold h.live⟩, hs',
      .inr ⟨c, htaken⟩⟩

lemma Runs.free_ok {ap : Nat} (h : Runs base lo u bs) (hop : (HeapOp.free ap).Legal u) :
    ∃ s' bs', free ap u.heap = .ok ((), s') ∧ Runs base lo ⟨s', u.live.filter (· ≠ ap)⟩ bs' ∧
    s'.sz = u.heap.sz := by
  obtain ⟨b, hb, hbf, rfl⟩ := (h.live ap).mp hop
  have hheap := h.heapAt hb
  obtain ⟨X, Y, rfl⟩ := append_of_mem hb
  obtain ⟨_, s', hrun, bs', hs', hsz, -, -, hlive⟩ := (free_sat (E := fun _ => False) hheap hbf).returns
  refine ⟨s', bs', hrun, ⟨⟨.inr (hsz ▸ hs'), h.pos, h.below, hsz ▸ h.bound⟩, fun p => ?_⟩, hsz⟩
  rw [mem_filter, h.live]
  constructor
  · rintro ⟨⟨c, hc, hcf, rfl⟩, hne⟩
    refine ⟨c, (hlive c hcf).mpr ?_, hcf, rfl⟩
    rcases mem_append.mp hc with hc | hc
    · exact .inl hc
    · refine Or.inr ((mem_cons.mp hc).resolve_left ?_)
      rintro rfl
      simp at hne
  · rintro ⟨c, hc, hcf, rfl⟩
    have hin := (hlive c hcf).mp hc
    have hne := hheap.tiles.addr_ne hin
    refine ⟨⟨c, ?_, hcf, rfl⟩, by simpa using hne⟩
    rcases hin with hin | hin
    · exact mem_append_left _ hin
    · exact mem_append_right _ (mem_cons_of_mem _ hin)

lemma HeapAt.store (h : HeapAt base lo s bs top) (hb : b ∈ bs) (hlo : b.addr < a) (hhi : a < b.stop) :
    HeapAt base lo { s with ptr := update s.ptr a v, size := update s.size a w } bs top := by
  obtain ⟨X, Y, rfl⟩ := append_of_mem hb
  have hne : ∀ c ∈ X ++ b :: Y, c.addr ≠ a := by
    obtain ⟨hX, -, hY⟩ := h.tiles.split
    refine forall_mem_split.mpr ⟨fun c hc => ?_, hlo.ne, fun c hc => ?_⟩
    · obtain ⟨-, -, hle⟩ := hX.mem hc
      rw [Block.stop] at hle
      omega
    · have hle := (hY.mem hc).1
      omega
  have hbase : base ≠ a := by
    have hle := (h.tiles.mem hb).1
    have hlt := h.base_lt
    omega
  refine ⟨h.tiles, h.links.congr fun x hx => update_of_ne ?_ _ _, fun c hc => ?_, ?_, h.apart,
    h.head, h.mapped, h.base_mapped, h.base_lt, h.bound⟩
  · rcases mem_cons.mp hx with rfl | hx
    · exact hbase
    · obtain ⟨c, hc, -, rfl⟩ := mem_frees.mp hx
      exact hne c hc
  · exact (update_of_ne (hne c hc) _ _).trans (h.sizes c hc)
  · exact (update_of_ne hbase _ _).trans h.zero

lemma Runs.store_ok (h : Runs base lo u bs) (hop : (HeapOp.store a v w).Legal u) :
    Runs base lo ⟨{ u.heap with ptr := update u.heap.ptr a v, size := update u.heap.size a w },
      u.live⟩ bs := by
  obtain ⟨p, hp, i, rfl, hi⟩ := hop
  obtain ⟨b, hb, -, rfl⟩ := (h.live p).mp hp
  have hheap := h.heapAt hb
  rw [Nat.add_sub_cancel, hheap.sizes b hb] at hi
  refine ⟨⟨.inr (hheap.store hb (by omega) ?_), h.pos, h.below, h.bound⟩, h.live⟩
  rw [Block.stop]
  omega

/-- Every legal step keeps the blocks. -/
lemma Runs.step (h : Runs base lo u bs) (op : HeapOp) (hop : op.Legal u) (hok : op.Allowed u)
    (hrun : op.exec base u = .ok ((), u')) : ∃ bs', Runs base lo u' bs' := by
  cases op with
  | malloc room nbytes =>
    obtain ⟨r, s', bs', hm, hr, -⟩ := h.malloc_ok _ hop hok
    have hsat : ((HeapOp.malloc room nbytes).exec base).Sat u (fun _ => False) fun _ u' => ∃ bs',
      Runs base lo u' bs' := by
      refine sat_bind.mpr (sat_zoom.mpr ((sat_of_eq hm).mpr (sat_modifyState.mpr ⟨bs', hr⟩)))
    exact hsat.of_ok hrun
  | free ap =>
    obtain ⟨s', bs', hf, hr, -⟩ := h.free_ok hop
    have hsat : ((HeapOp.free ap).exec base).Sat u (fun _ => False) fun _ u' => ∃ bs',
      Runs base lo u' bs' :=
      sat_bind.mpr (sat_zoom.mpr ((sat_of_eq hf).mpr (sat_modifyState.mpr ⟨bs', hr⟩)))
    exact hsat.of_ok hrun
  | store a v w =>
    cases hrun
    exact ⟨bs, h.store_ok hop⟩

lemma Reached.runs (h : Reached base lo u) : ∃ bs, Runs base lo u bs := by
  induction h with
  | start s hb hlo hbound hfreep hsz =>
    exact ⟨[], ⟨.inl ⟨hfreep, rfl, hsz⟩, hb, hlo, hsz ▸ hbound⟩, fun p => by simp⟩
  | step op _ hop hok hrun ih =>
    obtain ⟨bs, hbs⟩ := ih
    exact hbs.step op hop hok hrun

lemma Runs.sound (h : Runs base lo u bs) : Sound base lo u.heap u.live := by
  rcases h.heap with ⟨hfreep, rfl, -⟩ | hheap
  · rintro a (⟨hon, -⟩ | hin)
    · exact absurd hfreep hon.1
    · obtain ⟨b, hb, -⟩ := (h.live _).mp hin
      exact absurd hb not_mem_nil
  · exact hheap.sound h.pos h.live

lemma Runs.mallocSafe_iff (h : Runs base lo u bs) (hop : (HeapOp.malloc room nbytes).Legal u) :
    MallocSafe base lo room nbytes u ↔ (HeapOp.malloc room nbytes).Allowed u := by
  constructor
  · rintro ⟨r, s', hrun, -, hsound⟩
    by_contra hnot
    have hsat : (malloc base room nbytes).Sat u.heap (fun _ => True) _ :=
      malloc_sat room h.toReady hop fun _ _ => trivial
    rcases hsat.of_ok hrun with ⟨-, -, -, hr⟩ | ⟨ha, -⟩
    · exact hnot (.inr hr)
    · obtain ⟨bs', c, top, hs', htaken, -, hbig⟩ := ha.result
      have hlt := hbig (by by_contra hlt; exact hnot (.inl (by omega)))
      exact hs'.not_sound h.pos (ne_nil_of_mem htaken.mem) hlt (htaken.hold h.live) hsound
  · intro hok
    obtain ⟨r, s', bs', hrun, hr, hs', hres⟩ := h.malloc_ok _ hop hok
    refine ⟨r, s', hrun, ?_, hr.sound⟩
    rcases hres with ⟨rfl, -⟩ | ⟨c, htaken⟩
    · exact .inl rfl
    · obtain ⟨hlo, -, hhi⟩ := hs'.tiles.mem htaken.mem
      have hunits := nunitsOf_ge nbytes
      have hptr := htaken.ptr
      rw [Block.stop, htaken.units] at hhi
      exact .inr ⟨by omega, by omega⟩

end

section

variable {base lo : Nat} {u : Prog}

/-- In the states of the runs with allowed requests the headers describe only memory of the
process, `free` returns, and the next request gets 0 or such memory if and only if it is allowed. -/
theorem malloc_in_bounds_iff (h : Reached base lo u) : Sound base lo u.heap u.live ∧
    (∀ ap ∈ u.live, ∃ s', free ap u.heap = .ok ((), s') ∧ Sound base lo s' (u.live.filter (· ≠ ap))) ∧
    ∀ room nbytes, nbytes < 2 ^ 32 →
      (MallocSafe base lo room nbytes u ↔ 16 * nunitsOf nbytes < 2 ^ 31 ∨
        Refused room (nunitsOf nbytes) u.heap) := by
  obtain ⟨bs, hbs⟩ := h.runs
  refine ⟨hbs.sound, fun ap hap => ?_, fun room nbytes hn => hbs.mallocSafe_iff hn⟩
  obtain ⟨s', bs', hrun, hr, -⟩ := hbs.free_ok hap
  exact ⟨s', hrun, hr.sound⟩

def freshHeap : Heap := ⟨fun _ => 0, fun _ => 0, 0, 12288⟩

lemma freshHeap_reached : Reached 4000 12288 ⟨freshHeap, []⟩ :=
  Reached.start freshHeap (by decide) (by decide) (by decide) rfl rfl

lemma freed_reached : ∃ u, Reached 4000 12288 u ∧ u.live = [77648] ∧ u.heap.sz = 77824 ∧
    u.heap.freep ≠ 0 := by
  have htest : (match (HeapOp.malloc true 100).exec 4000 ⟨freshHeap, []⟩ with
      | .ok (_, u) =>
        match (HeapOp.malloc true 40).exec 4000 u with
        | .ok (_, u1) =>
          match (HeapOp.free 77712).exec 4000 u1 with
          | .ok (_, u2) => decide (77712 ∈ u1.live) && decide (u2.live = [77648]) &&
            decide (u2.heap.sz = 77824) && decide (u2.heap.freep ≠ 0)
          | .error _ => false
        | .error _ => false
      | .error _ => false) = true := by
    decide +kernel
  split at htest <;> try cases htest
  next u hu =>
  split at htest <;> try cases htest
  next u1 hu1 =>
  split at htest <;> try cases htest
  next u2 hu2 =>
  simp only [Bool.and_eq_true, decide_eq_true_eq] at htest
  obtain ⟨⟨⟨hmem, hlive⟩, hsz⟩, hfreep⟩ := htest
  have h := freshHeap_reached.step (.malloc true 100) (by simp [HeapOp.Legal]) (.inl (by decide)) hu
  have h1 := h.step (.malloc true 40) (by simp [HeapOp.Legal]) (.inl (by decide)) hu1
  exact ⟨u2, h1.step (.free 77712) hmem trivial hu2, hlive, hsz, hfreep⟩

theorem malloc_in_bounds_freed : ∃ u s', Reached 4000 12288 u ∧ u.live = [77648] ∧
    free 77648 u.heap = .ok ((), s') ∧ Sound 4000 12288 s' [] ∧
    MallocSafe 4000 12288 true 100 u := by
  obtain ⟨u, hu, hlive, -⟩ := freed_reached
  obtain ⟨-, hfree, hmalloc⟩ := malloc_in_bounds_iff hu
  obtain ⟨s', hrun, hsound⟩ := hfree 77648 (by simp [hlive])
  rw [hlive] at hsound
  exact ⟨u, s', hu, hlive, hrun, hsound, (hmalloc true 100 (by decide)).mpr (.inl (by decide))⟩

/-- `malloc(0xffffffff)` gets 16 bytes from the kernel and returns the break. -/
theorem malloc_wraps : Reached 4000 12288 ⟨freshHeap, []⟩ ∧
    ∃ s', malloc 4000 true (2 ^ 32 - 1) freshHeap = .ok (12304, s') ∧ s'.sz = 12304 ∧
    s'.size 12288 = 2 ^ 28 + 1 := by
  refine ⟨freshHeap_reached, ?_⟩
  have hrun : (malloc 4000 true (2 ^ 32 - 1) freshHeap).map
    (fun r => (r.1, r.2.sz, r.2.size 12288)) = .ok (12304, 12304, 2 ^ 28 + 1) := by
    decide +kernel
  cases hm : malloc 4000 true (2 ^ 32 - 1) freshHeap with
  | error e =>
    rw [hm] at hrun
    cases hrun
  | ok r =>
    rw [hm] at hrun
    obtain ⟨h1, h2, h3⟩ : r.1 = 12304 ∧ r.2.sz = 12304 ∧ r.2.size 12288 = 2 ^ 28 + 1 := by
      simpa [Except.map] using hrun
    exact ⟨r.2, by rw [← h1], h2, h3⟩

structure FreeList (base : Nat) (s : Heap) (fs : List Nat) : Prop where
  circular : Links s.ptr base fs base
  sorted : (base :: fs).Pairwise (· < ·)
  head : s.freep ∈ base :: fs
  onList : ∀ a, OnList s a ↔ a ∈ base :: fs
  zero : s.size base = 0

structure NewBlock (base lo : Nat) (u : Prog) (nbytes r : Nat) (s' : Heap) : Prop where
  start : lo + 16 ≤ r
  room : r + nbytes ≤ r - 16 + 16 * s'.size (r - 16)
  inside : r - 16 + 16 * s'.size (r - 16) ≤ s'.sz
  same : ∀ p ∈ u.live, s'.size (p - 16) = u.heap.size (p - 16)
  disjoint : ∀ p ∈ u.live, p - 16 + 16 * u.heap.size (p - 16) ≤ r - 16 ∨
    r - 16 + 16 * s'.size (r - 16) ≤ p - 16

lemma HeapAt.freeList {bs : List Block} {s : Heap} {top : Nat} (hb : 0 < base)
    (h : HeapAt base lo s bs top) : FreeList base s (frees bs) :=
  ⟨h.links, h.tiles.frees_sorted h.base_lt, h.head, fun _ => h.onList_iff hb, h.zero⟩

lemma Runs.newBlock {bs bs' : List Block} {s' : Heap} {c : Block} {nbytes r : Nat}
    (h : Runs base lo u bs) (hs' : HeapAt base lo s' bs' s'.sz)
    (ht : TakenFrom bs (nunitsOf nbytes) r c bs') : NewBlock base lo u nbytes r s' := by
  obtain ⟨hlo, -, hhi⟩ := hs'.tiles.mem ht.mem
  have hunits := nunitsOf_ge nbytes
  have hr : r - 16 = c.addr := by
    rw [ht.ptr, Nat.add_sub_cancel]
  have hsize : s'.size c.addr = c.units := hs'.sizes c ht.mem
  -- the blocks that the program holds are blocks of the new heap too
  have hheld : ∀ p ∈ u.live, ∃ b ∈ bs', p - 16 = b.addr ∧ b.addr ≠ c.addr ∧
    s'.size b.addr = b.units ∧ u.heap.size b.addr = b.units := by
    intro p hp
    obtain ⟨b, hb, hbf, rfl⟩ := (h.live p).mp hp
    have hb' := (ht.live b hbf).mpr (.inr hb)
    exact ⟨b, hb', Nat.add_sub_cancel .., ht.other b hb hbf, hs'.sizes b hb', (h.heapAt hb).sizes b hb⟩
  refine ⟨by rw [ht.ptr]; omega, ?_, ?_, fun p hp => ?_, fun p hp => ?_⟩
  · rw [hr, hsize, ht.units, ht.ptr]
    omega
  · rw [hr, hsize]
    exact hhi
  · obtain ⟨b, -, hpb, -, hs1, hs2⟩ := hheld p hp
    rw [hpb, hs1, hs2]
  · obtain ⟨b, hb, hpb, hne, -, hs2⟩ := hheld p hp
    rw [hpb, hs2, hr, hsize]
    obtain ⟨X, Y, rfl⟩ := append_of_mem ht.mem
    obtain ⟨hX, -, hY⟩ := hs'.tiles.split
    rcases mem_append.mp hb with hb | hb
    · exact .inl (hX.mem hb).2.2
    · refine Or.inr (hY.mem ((mem_cons.mp hb).resolve_left ?_)).1
      rintro rfl
      exact hne rfl

/-- The heap of every run: blocks, free or held by the program, fill the memory that `sbrk` has
given; the free ones are the list, and no two of them touch. `free` returns; `malloc` returns 0
where the kernel has no memory, and a new block else. -/
theorem user_heap_invariant (h : Reached base lo u) : ∃ bs : List Block, Tiles lo bs u.heap.sz ∧
    (∀ b ∈ bs, u.heap.size b.addr = b.units) ∧ Apart bs ∧
    (∀ p, p ∈ u.live ↔ ∃ b ∈ bs, b.free = false ∧ p = b.addr + 16) ∧
    (u.heap.freep = 0 ∧ bs = [] ∨ FreeList base u.heap (frees bs)) ∧
    (∀ ap ∈ u.live, ∃ s', free ap u.heap = .ok ((), s')) ∧
    ∀ room nbytes, nbytes < 2 ^ 32 → 16 * nunitsOf nbytes < 2 ^ 31 → ∃ r s',
    malloc base room nbytes u.heap = .ok (r, s') ∧
      (r = 0 ∧ Refused room (nunitsOf nbytes) u.heap ∨ NewBlock base lo u nbytes r s') := by
  obtain ⟨bs, hbs⟩ := h.runs
  have hheap : Tiles lo bs u.heap.sz ∧ (∀ b ∈ bs, u.heap.size b.addr = b.units) ∧ Apart bs ∧
      (u.heap.freep = 0 ∧ bs = [] ∨ FreeList base u.heap (frees bs)) := by
    rcases hbs.heap with ⟨hfreep, rfl, hlo⟩ | hheap
    · exact ⟨hlo.symm, nofun, isChain_nil, .inl ⟨hfreep, rfl⟩⟩
    · exact ⟨hheap.tiles, hheap.sizes, hheap.apart, .inr (hheap.freeList hbs.pos)⟩
  refine ⟨bs, hheap.1, hheap.2.1, hheap.2.2.1, hbs.live, hheap.2.2.2, fun ap hap => ?_,
    fun room nbytes hn hlt => ?_⟩
  · obtain ⟨s', _, hrun, -⟩ := hbs.free_ok hap
    exact ⟨s', hrun⟩
  · obtain ⟨r, s', bs', hrun, -, hs', hres⟩ := hbs.malloc_ok room hn (.inl hlt)
    exact ⟨r, s', hrun, hres.imp id fun ⟨c, hc⟩ => hbs.newBlock hs' hc⟩

theorem user_heap_invariant_freed : ∃ u bs r s', Reached 4000 12288 u ∧ u.live = [77648] ∧
    Tiles 12288 bs u.heap.sz ∧ FreeList 4000 u.heap (frees bs) ∧
    malloc 4000 true 100 u.heap = .ok (r, s') ∧ NewBlock 4000 12288 u 100 r s' := by
  obtain ⟨u, hu, hlive, hsz, hfreep⟩ := freed_reached
  obtain ⟨bs, htiles, -, -, -, hlist, -, hm⟩ := user_heap_invariant hu
  obtain ⟨r, s', hrun, hres⟩ := hm true 100 (by decide) (by decide)
  refine ⟨u, bs, r, s', hu, hlive, htiles, hlist.resolve_left fun h => hfreep h.1, hrun,
    hres.resolve_left ?_⟩
  rintro ⟨-, -, hno⟩
  exact hno ⟨rfl, by rw [hsz]; decide⟩

end

end Heap

end Xv6
