import Xv6.Lib.Links
import Xv6.MallocModel

/-! The heap of `umalloc.c` as blocks that lie one behind the other. The free ones are on the
circular list from `base`, by address; no two of them touch. -/

namespace Xv6

open Kern List
open Function (update update_of_ne update_self)

namespace Heap

structure Block where
  addr : Nat
  units : Nat
  free : Bool

def Block.stop (b : Block) : Nat := b.addr + 16 * b.units

/-- The blocks fill the memory from `lo` to `top`. -/
def Tiles : Nat → List Block → Nat → Prop
  | a, [], z => a = z
  | a, b :: bs, z => b.addr = a ∧ 0 < b.units ∧ Tiles b.stop bs z

def frees (bs : List Block) : List Nat := (bs.filter (·.free)).map (·.addr)

/-- No two free blocks touch. -/
def Apart (bs : List Block) : Prop := bs.IsChain fun b c => ¬ (b.free = true ∧ c.free = true)

structure HeapAt (base lo : Nat) (s : Heap) (bs : List Block) (top : Nat) : Prop where
  tiles : Tiles lo bs top
  links : Links s.ptr base (frees bs) base
  sizes : ∀ b ∈ bs, s.size b.addr = b.units
  zero : s.size base = 0
  apart : Apart bs
  head : s.freep ∈ base :: frees bs
  mapped : ∀ b ∈ bs, s.Mapped b.addr
  base_mapped : s.Mapped base
  base_lt : base < lo
  bound : top < 2 ^ 36

section

variable {a z lo top base : Nat} {b : Block} {bs X Y : List Block}

lemma tiles_append : Tiles a (X ++ Y) z ↔ ∃ m, Tiles a X m ∧ Tiles m Y z := by
  induction X generalizing a with
  | nil => exact ⟨fun h => ⟨a, rfl, h⟩, fun ⟨m, hm, h⟩ => hm ▸ h⟩
  | cons x X ih =>
    constructor
    · rintro ⟨ha, hpos, hrest⟩
      obtain ⟨m, hX, hY⟩ := ih.mp hrest
      exact ⟨m, ⟨ha, hpos, hX⟩, hY⟩
    · rintro ⟨m, ⟨ha, hpos, hX⟩, hY⟩
      exact ⟨ha, hpos, ih.mpr ⟨m, hX, hY⟩⟩

lemma Tiles.le (h : Tiles a bs z) : a + 16 * bs.length ≤ z := by
  induction bs generalizing a with
  | nil => exact h.le
  | cons x bs ih =>
    obtain ⟨ha, hpos, hrest⟩ := h
    have hle := ih hrest
    rw [Block.stop] at hle
    rw [length_cons]
    omega

lemma Tiles.split (h : Tiles lo (X ++ b :: Y) top) : Tiles lo X b.addr ∧ 0 < b.units ∧
    Tiles b.stop Y top := by
  obtain ⟨m, hX, rfl, hpos, hY⟩ := tiles_append.mp h
  exact ⟨hX, hpos, hY⟩

lemma Tiles.mem (h : Tiles lo bs top) (hb : b ∈ bs) : lo ≤ b.addr ∧ 0 < b.units ∧ b.stop ≤ top := by
  obtain ⟨X, Y, rfl⟩ := append_of_mem hb
  obtain ⟨hX, hpos, hY⟩ := h.split
  have hlo := hX.le
  have hhi := hY.le
  omega

lemma Tiles.sorted (h : Tiles lo bs top) : bs.Pairwise fun b c => b.stop ≤ c.addr ∧
    b.addr < c.addr := by
  induction bs generalizing lo with
  | nil => exact List.Pairwise.nil
  | cons x bs ih =>
    obtain ⟨-, hpos, hrest⟩ := h
    refine pairwise_cons.mpr ⟨fun c hc => ?_, ih hrest⟩
    have hle := (hrest.mem hc).1
    refine ⟨hle, ?_⟩
    rw [Block.stop] at hle
    omega

lemma mem_frees {x : Nat} : x ∈ frees bs ↔ ∃ b ∈ bs, b.free = true ∧ b.addr = x := by
  rw [frees, mem_map]
  simp only [mem_filter, and_assoc]

@[simp] lemma frees_append (X Y : List Block) : frees (X ++ Y) = frees X ++ frees Y := by
  rw [frees, frees, frees, filter_append, map_append]

@[simp] lemma frees_cons_of_free (hb : b.free = true) : frees (b :: Y) = b.addr :: frees Y := by
  rw [frees, frees, filter_cons_of_pos hb, map_cons]

@[simp] lemma frees_cons_of_taken (hb : b.free = false) : frees (b :: Y) = frees Y := by
  rw [frees, frees, filter_cons_of_neg (by simp [hb])]

lemma frees_length_le (bs : List Block) : (frees bs).length ≤ bs.length := by
  rw [frees, length_map]
  exact length_filter_le ..

lemma last_mem_frees (base : Nat) (X Y : List Block) :
    (frees X).getLastD base ∈ base :: frees (X ++ Y) := by
  rw [frees_append, ← cons_append]
  exact mem_append_left _ getLastD_mem_cons

lemma Block.ne_of_free {c : Block} (hc : c.free = false) (hb : b.free = true) : c ≠ b := by
  rintro rfl
  exact Bool.false_ne_true (hc.symm.trans hb)

lemma Tiles.frees_sorted (h : Tiles lo bs top) (hbase : base < lo) :
    (base :: frees bs).Pairwise (· < ·) := by
  refine pairwise_cons.mpr ⟨fun x hx => ?_, ?_⟩
  · obtain ⟨b, hb, -, rfl⟩ := mem_frees.mp hx
    exact lt_of_lt_of_le hbase (h.mem hb).1
  · exact pairwise_map.mpr ((h.sorted.imp fun hbc => hbc.2).filter _)

lemma Tiles.frees_lt (h : Tiles lo (X ++ b :: Y) top) (hbase : base < lo) :
    (∀ x ∈ base :: frees X, x < b.addr) ∧ ∀ y ∈ frees Y, b.addr < y := by
  obtain ⟨hX, hpos, hY⟩ := h.split
  constructor
  · intro x hx
    rcases mem_cons.mp hx with rfl | hx
    · exact lt_of_lt_of_le hbase (by have := hX.le; omega)
    · obtain ⟨c, hc, -, rfl⟩ := mem_frees.mp hx
      obtain ⟨-, hcpos, hle⟩ := hX.mem hc
      rw [Block.stop] at hle
      omega
  · intro y hy
    obtain ⟨c, hc, -, rfl⟩ := mem_frees.mp hy
    have hle := (hY.mem hc).1
    rw [Block.stop] at hle
    omega

end

section

variable {s : Heap} {base lo top bp p q z turns : Nat} {b : Block} {X Y bs : List Block}
  {ys : List Nat} {E : String → Prop}

/-- The test that ends the loop of `free`. -/
def Stops (s : Heap) (bp x : Nat) : Prop :=
  bp > x ∧ bp < s.ptr x ∨ x ≥ s.ptr x ∧ (bp > x ∨ bp < s.ptr x)

lemma freeSearch_sat (hl : Links s.ptr p ys z) (hm : ∀ x ∈ p :: ys, s.Mapped x) (hq : q ∈ p :: ys)
    (hstop : ∀ x ∈ p :: ys, Stops s bp x ↔ x = q) (ht : ys.length < turns) :
    (freeSearch bp turns p).Sat s E fun r s' => r = q ∧ s' = s := by
  induction ys generalizing p turns with
  | nil =>
    obtain ⟨k, rfl⟩ : ∃ k, turns = k + 1 := ⟨turns - 1, by omega⟩
    obtain rfl := mem_singleton.mp hq
    have hs := (hstop q (mem_singleton_self q)).mpr rfl
    refine sat_bind.mpr ((sat_getPtr (hm q (mem_singleton_self q))).mpr ?_)
    by_cases h1 : bp > q ∧ bp < s.ptr q
    · rw [if_pos h1]
      exact sat_pure.mpr ⟨rfl, rfl⟩
    · rw [if_neg h1, if_pos (hs.resolve_left h1)]
      exact sat_pure.mpr ⟨rfl, rfl⟩
  | cons y ys ih =>
    obtain ⟨k, rfl⟩ : ∃ k, turns = k + 1 := ⟨turns - 1, by rw [length_cons] at ht; omega⟩
    have hs := hstop p (mem_cons_self ..)
    refine sat_bind.mpr ((sat_getPtr (hm p (mem_cons_self ..))).mpr ?_)
    by_cases h1 : bp > p ∧ bp < s.ptr p
    · rw [if_pos h1]
      exact sat_pure.mpr ⟨hs.mp (.inl h1), rfl⟩
    by_cases h2 : p ≥ s.ptr p ∧ (bp > p ∨ bp < s.ptr p)
    · rw [if_neg h1, if_pos h2]
      exact sat_pure.mpr ⟨hs.mp (.inr h2), rfl⟩
    · have hpq : q ≠ p := fun hqp => (hs.mpr hqp.symm).elim h1 h2
      have hy : s.ptr p = y := hl.1
      rw [if_neg h1, if_neg h2, hy]
      refine ih hl.2 (fun x hx => hm x (mem_cons_of_mem _ hx)) ((mem_cons.mp hq).resolve_left hpq)
        (fun x hx => hstop x (mem_cons_of_mem _ hx)) ?_
      rw [length_cons] at ht
      omega

lemma HeapAt.mapped_of_mem (h : HeapAt base lo s bs top) {x : Nat} (hx : x ∈ base :: frees bs) :
    s.Mapped x := by
  rcases mem_cons.mp hx with rfl | hx
  · exact h.base_mapped
  · obtain ⟨b, hb, -, rfl⟩ := mem_frees.mp hx
    exact h.mapped b hb

lemma HeapAt.length_le (h : HeapAt base lo s bs top) : 16 * bs.length ≤ s.limit ∧ 4096 ≤ s.limit := by
  constructor
  · rcases eq_nil_or_concat' bs with rfl | ⟨X, b, rfl⟩
    · exact Nat.zero_le _
    · have hm := h.mapped b (by simp)
      have hle := h.tiles.split.1.le
      unfold Mapped at hm
      rw [length_append, length_singleton]
      omega
  · have hm := h.base_mapped
    unfold Mapped limit at hm
    unfold limit pgSize at *
    omega

lemma HeapAt.cycle (h : HeapAt base lo s bs top) : ∃ ys, Links s.ptr s.freep ys s.freep ∧
    (∀ x, x ∈ s.freep :: ys ↔ x ∈ base :: frees bs) ∧ s.freep ∉ ys ∧ ys.length ≤ bs.length := by
  obtain ⟨ys, hring, hperm⟩ := h.links.rotate h.head
  have hnd : (s.freep :: ys).Nodup :=
    hperm.nodup_iff.mpr ((h.tiles.frees_sorted h.base_lt).imp Nat.ne_of_lt)
  have hlen := hperm.length_eq
  have hfrees := frees_length_le bs
  simp only [length_cons] at hlen
  exact ⟨ys, hring, fun _ => hperm.mem_iff, (nodup_cons.mp hnd).1, by omega⟩

lemma HeapAt.stops_iff (h : HeapAt base lo s (X ++ b :: Y) top) (hb : b.free = false) {x : Nat}
    (hx : x ∈ base :: frees (X ++ b :: Y)) : Stops s b.addr x ↔ x = (frees X).getLastD base := by
  have hsort := h.tiles.frees_sorted h.base_lt
  obtain ⟨hlt, hgt⟩ := h.tiles.frees_lt h.base_lt
  have hl := h.links
  rw [frees_append, frees_cons_of_taken hb] at hx hsort hl
  obtain ⟨⟨w, hleft⟩, hright⟩ := links_append_last.mp hl
  have hsortX : (base :: frees X).Pairwise (· < ·) :=
    (pairwise_append.mp (by rwa [← cons_append] at hsort)).1
  have hlast : (frees X).getLastD base ∈ base :: frees X := getLastD_mem_cons
  have hlast_lt := hlt _ hlast
  have hbase : base ≤ (frees X).getLastD base := by
    rcases mem_cons.mp hlast with heq | hin
    · exact heq.ge
    · exact ((pairwise_cons.mp hsortX).1 _ hin).le
  have hbb : base < b.addr := hlt base (mem_cons_self ..)
  constructor
  · intro hs
    by_contra hne
    rw [← cons_append] at hx
    rcases mem_append.mp hx with hx | hx
    · rcases hleft.next_mem hsortX hx with ⟨heq, -⟩ | ⟨hin, hlt'⟩
      · exact hne heq
      · have hnext := hlt _ (mem_cons_of_mem _ hin)
        unfold Stops at hs
        omega
    · have hxb := hgt x hx
      have hsortY : ((frees X).getLastD base :: frees Y).Pairwise (· < ·) :=
        pairwise_cons.mpr ⟨fun y hy => hlast_lt.trans (hgt y hy),
          (pairwise_append.mp (pairwise_cons.mp hsort).2).2.1⟩
      rcases hright.next_mem hsortY (mem_cons_of_mem _ hx) with ⟨-, hz⟩ | ⟨-, hlt'⟩
      · unfold Stops at hs
        omega
      · unfold Stops at hs
        omega
  · rintro rfl
    unfold Stops
    cases hY : frees Y with
    | nil =>
      rw [hY] at hright
      have hz : s.ptr ((frees X).getLastD base) = base := hright
      omega
    | cons y ys =>
      have hy := hgt y (by rw [hY]; exact mem_cons_self ..)
      rw [hY] at hright
      have hz : s.ptr ((frees X).getLastD base) = y := hright.1
      omega

end

section

variable {s : Heap} {base lo top : Nat} {b : Block} {X Y : List Block} {E : String → Prop}

/-- A block that is being freed: its pointer is set, and the list still passes it by. -/
structure Pending (base lo : Nat) (s : Heap) (X : List Block) (b : Block) (Y : List Block)
    (top : Nat) : Prop where
  tiles : Tiles lo (X ++ b :: Y) top
  before : ∃ w, Links s.ptr base (frees X) w
  behind : Links s.ptr b.addr (frees Y) base
  isFree : b.free = true
  sizes : ∀ c ∈ X ++ b :: Y, s.size c.addr = c.units
  zero : s.size base = 0
  apart_before : Apart X
  apart_behind : Apart (b :: Y)
  mapped : ∀ c ∈ X ++ b :: Y, s.Mapped c.addr
  base_mapped : s.Mapped base
  base_lt : base < lo
  bound : top < 2 ^ 36

lemma Tiles.units_lt (h : Tiles lo (X ++ b :: Y) top) (hb : top < 2 ^ 36) : b.units < 2 ^ 32 := by
  obtain ⟨-, -, hle⟩ := h.mem (b := b) (by simp)
  rw [Block.stop] at hle
  omega

lemma Tiles.addr_ne (h : Tiles lo (X ++ b :: Y) top) {c : Block} (hc : c ∈ X ∨ c ∈ Y) :
    c.addr ≠ b.addr := by
  obtain ⟨hX, hpos, hY⟩ := h.split
  rcases hc with hc | hc
  · obtain ⟨-, hcpos, hle⟩ := hX.mem hc
    rw [Block.stop] at hle
    omega
  · have hle := (hY.mem hc).1
    rw [Block.stop] at hle
    omega

lemma forall_mem_split {P : Block → Prop} : (∀ c ∈ X ++ b :: Y, P c) ↔ (∀ c ∈ X, P c) ∧ P b ∧
    ∀ c ∈ Y, P c := by
  rw [forall_mem_append, forall_mem_cons]

lemma Tiles.sizes_update (h : Tiles lo (X ++ b :: Y) top) (hX : ∀ c ∈ X, s.size c.addr = c.units)
    (hY : ∀ c ∈ Y, s.size c.addr = c.units) : ∀ c ∈ X ++ b :: Y,
    update s.size b.addr b.units c.addr = c.units := by
  refine forall_mem_split.mpr ⟨fun c hc => ?_, update_self .., fun c hc => ?_⟩
  · rw [update_of_ne (h.addr_ne (.inl hc)), hX c hc]
  · rw [update_of_ne (h.addr_ne (.inr hc)), hY c hc]

lemma Tiles.base_ne (h : Tiles lo (X ++ b :: Y) top) (hbase : base < lo) : base ≠ b.addr := by
  obtain ⟨hle, -⟩ := h.mem (b := b) (by simp)
  omega

lemma Tiles.first {a : Nat} (h : Tiles a Y top) (hb : b ∈ Y) (haddr : b.addr = a)
    (hfree : b.free = true) : ∃ c Y', Y = c :: Y' ∧ c.free = true := by
  obtain ⟨P, Q, rfl⟩ := append_of_mem hb
  cases P with
  | nil => exact ⟨b, Q, rfl, hfree⟩
  | cons c P =>
    have hle := h.split.1.le
    rw [length_cons] at hle
    omega

lemma Tiles.merge {c : Block} (h : Tiles lo (X ++ b :: c :: Y) top) :
    c.addr = b.stop ∧ Tiles lo (X ++ ⟨b.addr, b.units + c.units, true⟩ :: Y) top := by
  obtain ⟨hX, hpos, hc, -, hY⟩ := h.split
  have hstop : b.addr + 16 * (b.units + c.units) = c.stop := by
    rw [Block.stop, hc, Block.stop]
    omega
  refine ⟨hc, tiles_append.mpr ⟨b.addr, hX, rfl, Nat.add_pos_left hpos _, ?_⟩⟩
  show Tiles (b.addr + 16 * (b.units + c.units)) Y top
  rwa [hstop]

lemma Apart.relabel {a : Block} (h : Apart (b :: Y)) (hb : b.free = true) : Apart (a :: Y) := by
  obtain ⟨hhead, hrest⟩ := isChain_cons.mp h
  exact isChain_cons.mpr ⟨fun d hd hfree => hhead d hd ⟨hb, hfree.2⟩, hrest⟩

lemma joinNext_sat (h : HeapAt base lo s (X ++ b :: Y) top) (hb : b.free = false) :
    (joinNext b.addr ((frees X).getLastD base)).Sat s E fun _ s' => ∃ b' Y',
    Pending base lo s' X b' Y' top ∧
      b'.addr = b.addr ∧ b.units ≤ b'.units ∧ s'.sz = s.sz ∧ Y'.length ≤ Y.length ∧
      ∀ c, c.free = false → (c ∈ Y' ↔ c ∈ Y) := by
  obtain ⟨hX, hpos, hY⟩ := h.tiles.split
  obtain ⟨hlt, hgt⟩ := h.tiles.frees_lt h.base_lt
  have hl := h.links
  rw [frees_append, frees_cons_of_taken hb] at hl
  obtain ⟨⟨w, hleft⟩, hright⟩ := links_append_last.mp hl
  have hlast : (frees X).getLastD base ∈ base :: frees X := getLastD_mem_cons
  have hqm : s.Mapped ((frees X).getLastD base) := h.mapped_of_mem (last_mem_frees base X _)
  have hbm : s.Mapped b.addr := h.mapped b (by simp)
  have hbs : s.size b.addr = b.units := h.sizes b (by simp)
  -- the pointer of `b` may be set without an effect on the list
  have hX' : ∀ v, ∀ x ∈ base :: frees X, update s.ptr b.addr v x = s.ptr x := fun v x hx =>
    update_of_ne (hlt x hx).ne _ _
  have hY' : ∀ v, ∀ y ∈ frees Y, update s.ptr b.addr v y = s.ptr y := fun v y hy =>
    update_of_ne (hgt y hy).ne' _ _
  have hapart := isChain_append.mp h.apart
  refine sat_bind.mpr ((sat_getSize hbm).mpr (sat_bind.mpr ((sat_getPtr hqm).mpr ?_)))
  by_cases hadj : ∃ c Y', Y = c :: Y' ∧ c.free = true
  · obtain ⟨c, Y', rfl, hc⟩ := hadj
    obtain ⟨hca, htiles⟩ := h.tiles.merge
    rw [frees_cons_of_free hc] at hright hY'
    have hnext : s.ptr ((frees X).getLastD base) = c.addr := hright.1
    have hcm : s.Mapped c.addr := h.mapped c (by simp)
    have hcs : s.size c.addr = c.units := h.sizes c (by simp)
    have hsum : b.units + c.units < 2 ^ 32 := htiles.units_lt h.bound
    rw [hbs, hnext, if_pos (by rw [hca, Block.stop])]
    refine sat_bind.mpr ((sat_getSize hcm).mpr ?_)
    rw [hcs]
    refine sat_bind.mpr
      ((sat_setSize hbm hsum).mpr (sat_bind.mpr ((sat_getPtr hcm).mpr ((sat_setPtr hbm).mpr ?_))))
    refine ⟨⟨b.addr, b.units + c.units, true⟩, Y', ?_, rfl, Nat.le_add_right .., rfl, by simp,
      fun d hd => ?_⟩
    · refine ⟨htiles, ⟨w, hleft.congr (hX' _)⟩, ?_, rfl, ?_, ?_, hapart.1, ?_, ?_, h.base_mapped,
        h.base_lt, h.bound⟩
      · exact hright.2.congr_head (update_self ..) fun y hy => hY' _ y (mem_cons_of_mem _ hy)
      · exact htiles.sizes_update (fun d hd => h.sizes d (by simp [hd])) fun d hd =>
          h.sizes d (by simp [hd])
      · rw [← h.zero]
        exact update_of_ne (htiles.base_ne h.base_lt) _ _
      · exact Apart.relabel hapart.2.1.tail hc
      · exact forall_mem_split.mpr ⟨fun d hd => h.mapped d (by simp [hd]), hbm, fun d hd =>
          h.mapped d (by simp [hd])⟩
    · exact ⟨mem_cons_of_mem _, fun hin => (mem_cons.mp hin).resolve_left (Block.ne_of_free hd hc)⟩
  · have hne : ¬ b.addr + 16 * b.units = s.ptr ((frees X).getLastD base) := by
      intro heq
      cases hYf : frees Y with
      | nil =>
        rw [hYf] at hright
        have hz : s.ptr ((frees X).getLastD base) = base := hright
        have hbase := hlt base (mem_cons_self ..)
        omega
      | cons y ys =>
        rw [hYf] at hright
        have hz : s.ptr ((frees X).getLastD base) = y := hright.1
        obtain ⟨c, hc, hcf, hca⟩ := mem_frees.mp (hYf ▸ mem_cons_self .. : y ∈ frees Y)
        exact hadj (hY.first hc (by rw [Block.stop]; omega) hcf)
    rw [hbs, if_neg hne]
    refine (sat_setPtr hbm).mpr ⟨⟨b.addr, b.units, true⟩, Y, ?_, rfl, le_rfl, rfl, le_rfl,
      fun d _ => Iff.rfl⟩
    have hsplit := forall_mem_split.mp h.sizes
    have hmsplit := forall_mem_split.mp h.mapped
    refine ⟨tiles_append.mpr ⟨b.addr, hX, rfl, hpos, hY⟩, ⟨w, hleft.congr (hX' _)⟩, ?_, rfl,
      forall_mem_split.mpr hsplit,
      h.zero, hapart.1, ?_, forall_mem_split.mpr hmsplit, h.base_mapped, h.base_lt, h.bound⟩
    · exact hright.congr_head (update_self ..) (hY' _)
    · refine isChain_cons.mpr ⟨fun d hd hfree => hadj ?_, hapart.2.1.tail⟩
      cases Y with
      | nil => cases hd
      | cons y ys =>
        obtain rfl : y = d := Option.some.inj hd
        exact ⟨y, ys, rfl, hfree.2⟩

lemma Tiles.last {a : Nat} (h : Tiles a X top) (hb : b ∈ X) (hstop : b.stop = top)
    (hfree : b.free = true) : ∃ X' c, X = X' ++ [c] ∧ c.free = true := by
  obtain ⟨P, Q, rfl⟩ := append_of_mem hb
  cases Q with
  | nil => exact ⟨P, b, rfl, hfree⟩
  | cons c Q =>
    have hle := h.split.2.2.le
    rw [length_cons] at hle
    omega

lemma joinPrev_sat (h : Pending base lo s X b Y top) :
    (joinPrev b.addr ((frees X).getLastD base)).Sat s E fun _ s' => ∃ bs,
      HeapAt base lo { s' with freep := (frees X).getLastD base } bs top ∧ s'.sz = s.sz ∧
      bs.length ≤ X.length + Y.length + 1 ∧ (∃ c ∈ bs, c.free = true ∧ b.units ≤ c.units) ∧
      ∀ c, c.free = false → (c ∈ bs ↔ c ∈ X ∨ c ∈ Y) := by
  have hbm : s.Mapped b.addr := h.mapped b (by simp)
  have hbs : s.size b.addr = b.units := h.sizes b (by simp)
  obtain ⟨w, hbefore⟩ := h.before
  by_cases hadj : ∃ X' a, X = X' ++ [a] ∧ a.free = true
  · obtain ⟨X', a, rfl, ha⟩ := hadj
    have hlast : (frees (X' ++ [a])).getLastD base = a.addr := by
      rw [frees_append, frees_cons_of_free ha]
      exact getLastD_concat ..
    have ht := h.tiles
    rw [append_assoc, singleton_append] at ht
    obtain ⟨hba, htiles⟩ := ht.merge
    have ham : s.Mapped a.addr := h.mapped a (by simp)
    have has : s.size a.addr = a.units := h.sizes a (by simp)
    have hsum : a.units + b.units < 2 ^ 32 := htiles.units_lt h.bound
    obtain ⟨hlt, hgt⟩ := htiles.frees_lt h.base_lt
    have hapart := isChain_append.mp h.apart_before
    rw [hlast]
    refine sat_bind.mpr ((sat_getSize ham).mpr ?_)
    rw [has, if_pos (by rw [hba, Block.stop])]
    refine sat_bind.mpr ((sat_getSize hbm).mpr ?_)
    rw [hbs]
    refine sat_bind.mpr
      ((sat_setSize ham hsum).mpr (sat_bind.mpr ((sat_getPtr hbm).mpr ((sat_setPtr ham).mpr ?_))))
    refine ⟨X' ++ ⟨a.addr, a.units + b.units, true⟩ :: Y, ?_, rfl, ?_,
      ⟨⟨a.addr, a.units + b.units, true⟩, by simp, rfl, Nat.le_add_left ..⟩, fun c hc => ?_⟩
    · refine ⟨htiles, ?_, ?_, ?_, ?_, ?_, ?_, h.base_mapped, h.base_lt, h.bound⟩
      · rw [frees_append, frees_cons_of_free rfl]
        rw [frees_append, frees_cons_of_free ha] at hbefore
        refine links_append.mpr ⟨(links_append.mp hbefore).1.congr fun x hx => ?_,
          h.behind.congr_head (update_self ..) fun y hy => ?_⟩
        · exact update_of_ne (hlt x hx).ne _ _
        · exact update_of_ne (hgt y hy).ne' _ _
      · exact htiles.sizes_update (fun c hc => h.sizes c (by simp [hc])) fun c hc =>
          h.sizes c (by simp [hc])
      · rw [← h.zero]
        exact update_of_ne (htiles.base_ne h.base_lt) _ _
      · refine isChain_append.mpr ⟨hapart.1, ?_, fun x hx y hy hfree => ?_⟩
        · exact Apart.relabel h.apart_behind h.isFree
        · exact hapart.2.2 x hx a rfl ⟨hfree.1, ha⟩
      · rw [frees_append, frees_cons_of_free rfl]
        simp
      · exact forall_mem_split.mpr ⟨fun c hc => h.mapped c (by simp [hc]), ham, fun c hc =>
          h.mapped c (by simp [hc])⟩
    · simp only [length_append, length_cons, length_nil]
      omega
    · have hcn : c ≠ ⟨a.addr, a.units + b.units, true⟩ := Block.ne_of_free hc rfl
      simp [Block.ne_of_free hc ha, hcn]
  · obtain ⟨hX, hpos, hY⟩ := h.tiles.split
    obtain ⟨hlt, hgt⟩ := h.tiles.frees_lt h.base_lt
    have hsort := h.tiles.frees_sorted h.base_lt
    rw [frees_append, frees_cons_of_free h.isFree, ← cons_append] at hsort
    have hlast : (frees X).getLastD base ∈ base :: frees X := getLastD_mem_cons
    have hqm : s.Mapped ((frees X).getLastD base) := by
      rcases mem_cons.mp hlast with heq | hin
      · rw [heq]
        exact h.base_mapped
      · obtain ⟨c, hc, -, hca⟩ := mem_frees.mp hin
        rw [← hca]
        exact h.mapped c (mem_append_left _ hc)
    have hne : ¬ (frees X).getLastD base + 16 * s.size ((frees X).getLastD base) = b.addr := by
      intro heq
      rcases mem_cons.mp hlast with hq | hin
      · rw [hq, h.zero] at heq
        have hbase := hlt base (mem_cons_self ..)
        omega
      · obtain ⟨c, hc, hcf, hca⟩ := mem_frees.mp hin
        rw [← hca, h.sizes c (mem_append_left _ hc)] at heq
        exact hadj (hX.last hc heq hcf)
    refine sat_bind.mpr ((sat_getSize hqm).mpr ?_)
    rw [if_neg hne]
    refine (sat_setPtr hqm).mpr ⟨X ++ b :: Y, ?_, rfl, ?_, ⟨b, by simp, h.isFree, le_rfl⟩,
      fun c hc => ?_⟩
    · refine ⟨h.tiles, ?_, h.sizes, h.zero, ?_, ?_, h.mapped, h.base_mapped, h.base_lt, h.bound⟩
      · rw [frees_append, frees_cons_of_free h.isFree]
        refine links_append.mpr ⟨hbefore.setLast ?_, h.behind.congr fun y hy => update_of_ne ?_ _ _⟩
        · exact (pairwise_append.mp hsort).1.imp Nat.ne_of_lt
        · have hlt' := hlt _ hlast
          rcases mem_cons.mp hy with rfl | hy
          · exact hlt'.ne'
          · exact (hlt'.trans (hgt y hy)).ne'
      · refine isChain_append.mpr ⟨h.apart_before, h.apart_behind, fun x hx y hy hfree => hadj ?_⟩
        obtain ⟨X', hX'⟩ := List.getLast?_eq_some_iff.mp hx
        exact ⟨X', x, hX', hfree.1⟩
      · exact last_mem_frees base X _
    · simp only [length_append, length_cons]
      omega
    · simp [Block.ne_of_free hc h.isFree]

lemma free_sat (h : HeapAt base lo s (X ++ b :: Y) top) (hb : b.free = false) :
    (free (b.addr + 16)).Sat s E fun _ s' => ∃ bs, HeapAt base lo s' bs top ∧ s'.sz = s.sz ∧
      bs.length ≤ X.length + Y.length + 1 ∧ (∃ c ∈ bs, c.free = true ∧ b.units ≤ c.units) ∧
      ∀ c, c.free = false → (c ∈ bs ↔ c ∈ X ∨ c ∈ Y) := by
  obtain ⟨ys, hring, hmem, -, hlen⟩ := h.cycle
  obtain ⟨hle, hpos⟩ := h.length_le
  have hq := (hmem _).mpr (last_mem_frees base X (b :: Y))
  unfold free
  rw [Nat.add_sub_cancel]
  refine sat_bind.mpr (sat_getState.mpr (sat_bind.mpr ?_))
  refine (freeSearch_sat hring (fun x hx => h.mapped_of_mem ((hmem x).mp hx)) hq (fun x hx =>
    h.stops_iff hb ((hmem x).mp hx)) (by omega)).imp ?_
  rintro _ _ ⟨rfl, rfl⟩
  refine (joinNext_sat h hb).bind ?_
  rintro _ s1 ⟨b', Y', hp, haddr, hunits, hsz, hlen, hlive⟩
  rw [← haddr]
  refine (joinPrev_sat hp).bind ?_
  rintro _ s2 ⟨bs, hs, hsz', hlen', ⟨c, hc, hcf, hcu⟩, hlive'⟩
  refine sat_setFreep.mpr ⟨bs, hs, hsz'.trans hsz, by omega, ⟨c, hc, hcf, hunits.trans hcu⟩,
    fun d hd => ?_⟩
  rw [hlive' d hd, hlive d hd]

end

end Heap

end Xv6
