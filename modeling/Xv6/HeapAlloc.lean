import Xv6.HeapBlocks

/-! `malloc` on the blocks of the heap: it takes a block from the list, and where none is large
enough `morecore` asks the kernel for one. -/

namespace Xv6

open Kern List
open Function (update update_of_ne update_self)

namespace Heap

/-- How much `morecore` asks for. -/
def coreUnits (nu : Nat) : Nat := if nu < 4096 then 4096 else nu

/-- The kernel gives no memory for `nu` units. -/
def Refused (room : Bool) (nu : Nat) (s : Heap) : Prop :=
  0 < toInt (coreUnits nu * 16) ∧ ¬ (room = true ∧ addInt s.sz (toInt (coreUnits nu * 16)) ≤ 2 ^ 27)

section

variable {s : Heap} {base lo top nunits prevp : Nat} {b : Block} {X Y bs : List Block}
  {E : String → Prop}

structure TakenFrom (bs : List Block) (nunits r : Nat) (c : Block) (bs' : List Block) : Prop where
  mem : c ∈ bs'
  taken : c.free = false
  units : c.units = nunits
  ptr : r = c.addr + 16
  other : ∀ d ∈ bs, d.free = false → d.addr ≠ c.addr
  live : ∀ d, d.free = false → (d ∈ bs' ↔ d = c ∨ d ∈ bs)

lemma HeapAt.frees_nodup (h : HeapAt base lo s bs top) : (frees bs ++ [base]).Nodup := by
  obtain ⟨hbase, hsort⟩ := pairwise_cons.mp (h.tiles.frees_sorted h.base_lt)
  refine nodup_append.mpr ⟨hsort.imp Nat.ne_of_lt, nodup_singleton base, fun x hx y hy => ?_⟩
  rw [mem_singleton.mp hy]
  exact (hbase x hx).ne'

lemma HeapAt.find (h : HeapAt base lo s bs top) (hprev : prevp ∈ base :: frees bs)
    (hsize : 0 < s.size (s.ptr prevp)) : ∃ X b Y, bs = X ++ b :: Y ∧ b.free = true ∧
    b.addr = s.ptr prevp ∧ prevp = (frees X).getLastD base := by
  rcases h.links.next_mem (h.tiles.frees_sorted h.base_lt) hprev with ⟨-, hz⟩ | ⟨hin, -⟩
  · rw [hz, h.zero] at hsize
    exact absurd hsize (Nat.lt_irrefl 0)
  · obtain ⟨b, hb, hbf, hba⟩ := mem_frees.mp hin
    obtain ⟨X, Y, rfl⟩ := append_of_mem hb
    refine ⟨X, b, Y, rfl, hbf, hba, ?_⟩
    have hnd := h.frees_nodup
    have hl := h.links
    have hlast : (frees X).getLastD base ∈ base :: frees X := getLastD_mem_cons
    rw [frees_append, frees_cons_of_free hbf] at hl hnd hprev
    refine hl.next_inj hnd hprev ?_ ?_
    · rw [← cons_append]
      exact mem_append_left _ hlast
    · rw [(links_append_last.mp hl).2.1, hba]

lemma take_sat (h : HeapAt base lo s bs top) (hprev : prevp ∈ base :: frees bs) (hpos : 0 < nunits)
    (hfit : nunits ≤ s.size (s.ptr prevp)) (hnew : ∀ a, a + 16 * nunits ≤ top → s.Mapped a) :
    (take nunits prevp (s.ptr prevp)).Sat s E fun r s' => ∃ bs' c, HeapAt base lo s' bs' top ∧
    s'.sz = s.sz ∧ TakenFrom bs nunits r c bs' := by
  have hqm := h.mapped_of_mem hprev
  obtain ⟨X, b, Y, rfl, hbf, hba, hq⟩ := h.find hprev (by omega)
  obtain ⟨hX, hbpos, hY⟩ := h.tiles.split
  obtain ⟨hlt, hgt⟩ := h.tiles.frees_lt h.base_lt
  have hsort := h.tiles.frees_sorted h.base_lt
  have hbm : s.Mapped b.addr := h.mapped b (by simp)
  have hbs : s.size b.addr = b.units := h.sizes b (by simp)
  have hsplit := forall_mem_split.mp h.sizes
  have hmsplit := forall_mem_split.mp h.mapped
  have hapart := isChain_append.mp h.apart
  have hl := h.links
  have hunits := h.tiles.units_lt h.bound
  rw [frees_append, frees_cons_of_free hbf] at hl hsort
  rw [← hba, hbs] at hfit
  rw [← hba]
  refine sat_bind.mpr ((sat_getSize hbm).mpr ?_)
  rw [hbs]
  by_cases hexact : b.units = nunits
  · obtain ⟨hleft, hright⟩ := links_append.mp hl
    have hqlt : (frees X).getLastD base < b.addr := hlt _ getLastD_mem_cons
    rw [if_pos hexact]
    refine sat_bind.mpr
      ((sat_getPtr hbm).mpr
        (sat_bind.mpr ((sat_setPtr hqm).mpr (sat_bind.mpr (sat_setFreep.mpr ?_)))))
    refine sat_pure.mpr ⟨X ++ ⟨b.addr, b.units, false⟩ :: Y, ⟨b.addr, b.units, false⟩, ?_, rfl,
      by simp, rfl, hexact, rfl, ?_, ?_⟩
    · refine ⟨tiles_append.mpr ⟨b.addr, hX, rfl, hbpos, hY⟩, ?_, forall_mem_split.mpr hsplit,
        h.zero, ?_, ?_, forall_mem_split.mpr hmsplit, h.base_mapped, h.base_lt, h.bound⟩
      · rw [frees_append, frees_cons_of_taken rfl, hq]
        refine links_append_last.mpr
          ⟨⟨_, hleft.setLast ?_⟩, hright.congr_head (update_self ..) fun y hy => ?_⟩
        · rw [← cons_append] at hsort
          exact (pairwise_append.mp hsort).1.imp Nat.ne_of_lt
        · exact update_of_ne (hqlt.trans (hgt y hy)).ne' _ _
      · refine isChain_append.mpr ⟨hapart.1, ?_, fun x _ y hy hfree => ?_⟩
        · exact isChain_cons.mpr ⟨fun y _ hfree => Bool.false_ne_true hfree.1, hapart.2.1.tail⟩
        · obtain rfl := Option.some.inj hy
          exact Bool.false_ne_true hfree.2
      · rw [hq]
        exact last_mem_frees base X _
    · intro d hd hdf
      refine h.tiles.addr_ne ?_
      rcases mem_append.mp hd with hd | hd
      · exact .inl hd
      · exact .inr ((mem_cons.mp hd).resolve_left (Block.ne_of_free hdf hbf))
    · intro d hd
      simp only [mem_append, mem_cons, Block.ne_of_free hd hbf, false_or]
      exact or_left_comm
  · have htiles :
      Tiles lo ((X ++ [⟨b.addr, b.units - nunits, true⟩]) ++ ⟨b.addr + 16 * (b.units - nunits),
        nunits, false⟩ :: Y) top := by
      rw [append_assoc, singleton_append]
      refine tiles_append.mpr ⟨b.addr, hX, rfl, ?_, rfl, hpos, ?_⟩
      · show 0 < b.units - nunits
        omega
      · have hstop : b.addr + 16 * (b.units - nunits) + 16 * nunits = b.stop := by
          rw [Block.stop]
          omega
        show Tiles (b.addr + 16 * (b.units - nunits) + 16 * nunits) Y top
        rwa [hstop]
    have hcm : s.Mapped (b.addr + 16 * (b.units - nunits)) :=
      hnew _ (htiles.mem (b := ⟨_, nunits, false⟩) (by simp)).2.2
    rw [if_neg hexact]
    refine sat_bind.mpr
      ((sat_setSize hbm (by omega)).mpr (sat_bind.mpr ((sat_setSize hcm (by omega)).mpr
      (sat_bind.mpr (sat_setFreep.mpr (sat_pure.mpr ?_))))))
    refine ⟨_, ⟨b.addr + 16 * (b.units - nunits), nunits, false⟩,
      ⟨htiles, ?_, ?_, ?_, ?_, ?_, ?_, h.base_mapped, h.base_lt, h.bound⟩,
      rfl, by simp, rfl, rfl, rfl, ?_, ?_⟩
    · rw [frees_append, frees_append, frees_cons_of_free rfl, frees_cons_of_taken rfl, append_assoc]
      exact hl
    · refine htiles.sizes_update (s := { s with size := update s.size b.addr (b.units - nunits) })
        ?_ fun d hd => ?_
      · intro d hd
        rcases mem_append.mp hd with hd | hd
        · exact (update_of_ne (h.tiles.addr_ne (.inl hd)) _ _).trans (hsplit.1 d hd)
        · rw [mem_singleton.mp hd]
          exact update_self ..
      · exact (update_of_ne (h.tiles.addr_ne (.inr hd)) _ _).trans (hsplit.2.2 d hd)
    · rw [← h.zero]
      exact (update_of_ne (htiles.base_ne h.base_lt) _ _).trans
        (update_of_ne (h.tiles.base_ne h.base_lt) _ _)
    · rw [append_assoc, singleton_append]
      refine isChain_append.mpr ⟨hapart.1, ?_, fun x hx y hy hfree => ?_⟩
      · exact isChain_cons_cons.mpr ⟨fun hfree => Bool.false_ne_true hfree.2,
          isChain_cons.mpr ⟨fun y _ hfree => Bool.false_ne_true hfree.1, hapart.2.1.tail⟩⟩
      · exact hapart.2.2 x hx b rfl ⟨hfree.1, hbf⟩
    · rw [frees_append, frees_append, frees_cons_of_free rfl, frees_cons_of_taken rfl, append_assoc]
      rw [frees_append, frees_cons_of_free hbf] at hprev
      exact hprev
    · intro d hd
      rw [append_assoc, singleton_append] at hd
      rcases mem_append.mp hd with hd | hd
      · exact hmsplit.1 d hd
      · rcases mem_cons.mp hd with rfl | hd
        · exact hbm
        · rcases mem_cons.mp hd with rfl | hd
          · exact hcm
          · exact hmsplit.2.2 d hd
    · intro d hd hdf
      rcases mem_append.mp hd with hd | hd
      · exact htiles.addr_ne (.inl (mem_append_left _ hd))
      · exact htiles.addr_ne (.inr ((mem_cons.mp hd).resolve_left (Block.ne_of_free hdf hbf)))
    · intro d hd
      have hdn : d ≠ ⟨b.addr, b.units - nunits, true⟩ := Block.ne_of_free hd rfl
      simp only [mem_append, mem_cons, not_mem_nil, Block.ne_of_free hd hbf, hdn, false_or, or_false]
      exact or_left_comm

end

section

variable {s : Heap} {base lo top nunits prevp turns : Nat} {bs : List Block} {ys : List Nat}
  {room : Bool} {E : String → Prop}

def growAndSearch (room : Bool) (nunits turns : Nat) : Kern Heap Nat := do
  let p ← morecore room nunits
  if p = 0 then pure 0
  else do
    let next ← getPtr p
    mallocSearch room nunits turns p next

/-- The loop visits the nodes from `prevp` to `freep`, by induction on them. -/
lemma mallocSearch_sat {Q : Nat → Heap → Prop} (h : HeapAt base lo s bs top)
    (hl : Links s.ptr prevp ys s.freep)
    (hin : ∀ x ∈ prevp :: ys, x ∈ base :: frees bs) (hnot : s.freep ∉ ys) (ht : ys.length < turns)
    (htake : ∀ prevp ∈ base :: frees bs, nunits ≤ s.size (s.ptr prevp) →
      (take nunits prevp (s.ptr prevp)).Sat s E Q)
    (hmore : (∀ x ∈ s.freep :: ys, s.size x < nunits) → ∀ k, turns ≤ k + ys.length + 1 →
      (growAndSearch room nunits k).Sat s E Q) :
    (mallocSearch room nunits turns prevp (s.ptr prevp)).Sat s E Q := by
  induction ys generalizing prevp turns with
  | nil =>
    obtain ⟨k, rfl⟩ : ∃ k, turns = k + 1 := ⟨turns - 1, by omega⟩
    have hp : s.ptr prevp = s.freep := hl
    have hprev := hin prevp (mem_cons_self ..)
    have hm : s.Mapped (s.ptr prevp) := hp ▸ h.mapped_of_mem h.head
    refine sat_bind.mpr ((sat_getSize hm).mpr ?_)
    by_cases hfit : s.size (s.ptr prevp) ≥ nunits
    · rw [if_pos hfit]
      exact htake prevp hprev hfit
    · rw [if_neg hfit]
      refine sat_bind.mpr (sat_getState.mpr ?_)
      rw [if_pos hp]
      refine hmore (fun x hx => ?_) k (by simp)
      rw [mem_singleton.mp hx, ← hp]
      omega
  | cons y ys ih =>
    rw [length_cons] at ht
    obtain ⟨k, rfl⟩ : ∃ k, turns = k + 1 := ⟨turns - 1, by omega⟩
    have hp : s.ptr prevp = y := hl.1
    have hprev := hin prevp (mem_cons_self ..)
    have hym : s.Mapped y := h.mapped_of_mem (hin y (by simp))
    have hne : s.freep ≠ y := ne_of_not_mem_cons hnot
    have hnot' : s.freep ∉ ys := not_mem_of_not_mem_cons hnot
    refine sat_bind.mpr ((sat_getSize (hp ▸ hym)).mpr ?_)
    by_cases hfit : s.size (s.ptr prevp) ≥ nunits
    · rw [if_pos hfit]
      exact htake prevp hprev hfit
    · rw [if_neg hfit]
      rw [hp] at hfit ⊢
      refine sat_bind.mpr (sat_getState.mpr ?_)
      rw [if_neg (Ne.symm hne)]
      refine sat_bind.mpr ((sat_getPtr hym).mpr ?_)
      refine ih hl.2 (fun x hx => hin x (mem_cons_of_mem _ hx)) hnot' (by omega) fun hsmall k' hk' => ?_
      refine hmore (fun x hx => ?_) k' (by rw [length_cons]; omega)
      rcases mem_cons.mp hx with rfl | hx
      · exact hsmall _ (mem_cons_self ..)
      · rcases mem_cons.mp hx with rfl | hx
        · omega
        · exact hsmall x (mem_cons_of_mem _ hx)

lemma mallocSearch_found (h : HeapAt base lo s bs top) (hpos : 0 < nunits)
    (hnew : ∀ a, a + 16 * nunits ≤ top → s.Mapped a)
    (hfit : ∃ c ∈ bs, c.free = true ∧ nunits ≤ c.units) (ht : bs.length < turns) :
    (mallocSearch room nunits turns s.freep (s.ptr s.freep)).Sat s E fun r s' => ∃ bs' c,
    HeapAt base lo s' bs' top ∧ s'.sz = s.sz ∧ TakenFrom bs nunits r c bs' := by
  obtain ⟨ys, hring, hmem, hnot, hlen⟩ := h.cycle
  refine mallocSearch_sat h hring (fun x hx => (hmem x).mp hx) hnot (by omega)
    (fun prevp hprev hfit => take_sat h hprev hpos hfit hnew) fun hsmall => ?_
  obtain ⟨c, hc, hcf, hcu⟩ := hfit
  have hlt := hsmall c.addr ((hmem c.addr).mpr (mem_cons_of_mem _ (mem_frees.mpr ⟨c, hc, hcf, rfl⟩)))
  rw [h.sizes c hc] at hlt
  omega

lemma HeapAt.grow {N sz' : Nat} (h : HeapAt base lo s bs s.sz) (hN : 0 < N)
    (hbound : s.sz + 16 * N < 2 ^ 36) (hm : ({ s with sz := sz' } : Heap).Mapped s.sz) :
    HeapAt base lo { s with sz := sz', size := update s.size s.sz N } (bs ++ [⟨s.sz, N, false⟩])
    (s.sz + 16 * N) := by
  have htiles : Tiles lo (bs ++ [⟨s.sz, N, false⟩]) (s.sz + 16 * N) :=
    tiles_append.mpr ⟨s.sz, h.tiles, rfl, hN, rfl⟩
  have hbelow : ∀ a, a ≤ s.sz → ({ s with sz := sz' } : Heap).Mapped a := by
    intro a ha
    unfold Mapped at *
    omega
  refine ⟨htiles, ?_, htiles.sizes_update h.sizes nofun, ?_, ?_, ?_, ?_, hbelow base ?_,
    h.base_lt, hbound⟩
  · rw [frees_append, frees_cons_of_taken rfl]
    simpa [frees] using h.links
  · rw [← h.zero]
    exact update_of_ne (htiles.base_ne h.base_lt) _ _
  · refine isChain_append.mpr ⟨h.apart, isChain_singleton _, fun x _ y hy hfree => ?_⟩
    obtain rfl := Option.some.inj hy
    exact Bool.false_ne_true hfree.2
  · rw [frees_append, ← cons_append]
    exact mem_append_left _ h.head
  · intro b hb
    refine hbelow b.addr ?_
    rcases mem_append.mp hb with hb | hb
    · obtain ⟨-, -, hle⟩ := h.tiles.mem hb
      rw [Block.stop] at hle
      omega
    · rw [mem_singleton.mp hb]
  · have hle := h.tiles.le
    have hlt := h.base_lt
    omega

lemma coreUnits_ge (nu : Nat) :
    nu ≤ coreUnits nu ∧ 4096 ≤ coreUnits nu ∧ (2 ^ 27 ≤ nu → coreUnits nu = nu) := by
  unfold coreUnits
  split <;> omega

/-- What the kernel does for `morecore`. Below 2^31 bytes the process grows by the block; at or
above it the number of bytes is no `int`. -/
lemma sbrk_core (room : Bool) (hsz : s.sz ≤ 2 ^ 27) (hN : nunits ≤ 2 ^ 28 + 1) :
    (Refused room nunits s ∧ sbrk room (toInt (coreUnits nunits * 16)) s = .ok (-1, s)) ∨
    (¬ Refused room nunits s ∧ ∃ sz', sbrk room (toInt (coreUnits nunits * 16)) s = .ok (s.sz,
      { s with sz := sz' }) ∧
      (16 * nunits < 2 ^ 31 → sz' = s.sz + 16 * coreUnits nunits ∧ sz' ≤ 2 ^ 27) ∧
      (2 ^ 31 ≤ 16 * nunits → sz' ≤ s.sz + 16)) := by
  have hsmall : 16 * nunits < 2 ^ 31 → toInt (coreUnits nunits * 16) = (16 * coreUnits nunits : Nat) ∧
      addInt s.sz (toInt (coreUnits nunits * 16)) = s.sz + 16 * coreUnits nunits := by
    intro hlt
    have hle : 16 * coreUnits nunits < 2 ^ 31 := by
      unfold coreUnits
      split <;> omega
    have htoInt : toInt (coreUnits nunits * 16) = (16 * coreUnits nunits : Nat) := by
      unfold toInt
      rw [if_pos (by omega)]
      omega
    refine ⟨htoInt, ?_⟩
    rw [htoInt]
    unfold addInt
    omega
  have hlarge : 2 ^ 31 ≤ 16 * nunits → toInt (coreUnits nunits * 16) ≤ 16 := by
    intro hle
    rw [(coreUnits_ge nunits).2.2 (by omega)]
    unfold toInt
    split <;> omega
  have hcore := (coreUnits_ge nunits).2.1
  by_cases hn : 0 < toInt (coreUnits nunits * 16)
  · by_cases hroom : room = true ∧ addInt s.sz (toInt (coreUnits nunits * 16)) ≤ 2 ^ 27
    · refine Or.inr ⟨fun hr => hr.2 hroom, _, sbrk_grows hn hroom, fun hlt => ?_, fun hle => ?_⟩
      · exact ⟨(hsmall hlt).2, hroom.2⟩
      · have hle16 := hlarge hle
        unfold addInt
        omega
    · exact .inl ⟨⟨hn, hroom⟩, sbrk_fails hn hroom⟩
  · refine Or.inr ⟨fun hr => hn hr.1, _, sbrk_shrinks hn, fun hlt => ?_, fun _ => ?_⟩
    · rw [(hsmall hlt).1] at hn
      omega
    · exact (Nat.min_le_left ..).trans (Nat.le_add_right ..)

lemma le_limit (s : Heap) : s.sz ≤ s.limit := by
  unfold limit npages pgSize
  omega

lemma HeapAt.freep_pos (hb : 0 < base) (h : HeapAt base lo s bs top) : 0 < s.freep := by
  rcases mem_cons.mp h.head with heq | hin
  · rwa [heq]
  · exact hb.trans ((pairwise_cons.mp (h.tiles.frees_sorted h.base_lt)).1 _ hin)

lemma morecore_sat (hb : 0 < base) (h : HeapAt base lo s bs s.sz) (hsz : s.sz ≤ 2 ^ 27)
    (hN : nunits ≤ 2 ^ 28 + 1) (hE : ¬ (16 * nunits < 2 ^ 31 ∨ Refused room nunits s) → ∀ e, E e) :
    (morecore room nunits).Sat s E fun r s' => (r = 0 ∧ s' = s ∧ Refused room nunits s) ∨
      (r ≠ 0 ∧ r = s'.freep ∧ ¬ Refused room nunits s ∧ ∃ bs',
        HeapAt base lo s' bs' (s.sz + 16 * coreUnits nunits) ∧
        bs'.length ≤ bs.length + 1 ∧ (∃ c ∈ bs', c.free = true ∧ nunits ≤ c.units) ∧
        (∀ c, c.free = false → (c ∈ bs' ↔ c ∈ bs)) ∧ s'.Mapped s.sz ∧
        (16 * nunits < 2 ^ 31 → s'.sz = s.sz + 16 * coreUnits nunits ∧ s'.sz ≤ 2 ^ 27) ∧
        (2 ^ 31 ≤ 16 * nunits → s'.sz ≤ s.sz + 16)) := by
  obtain ⟨hge, hmin, hlarge⟩ := coreUnits_ge nunits
  have hcore : coreUnits nunits ≤ 2 ^ 28 + 1 := by
    unfold coreUnits
    split <;> omega
  have hcode : morecore room nunits = (do
      let p ← sbrk room (toInt (coreUnits nunits * 16))
      if p = -1 then pure 0
      else do
        setSize p.toNat (coreUnits nunits)
        free (p.toNat + 16)
        let s ← getState
        pure s.freep) := rfl
  rw [hcode]
  rcases sbrk_core room hsz hN with ⟨hr, hrun⟩ | ⟨hr, sz', hrun, hsmall, hbig⟩
  · refine sat_bind.mpr ((sat_of_eq hrun).mpr ?_)
    rw [if_pos rfl]
    exact sat_pure.mpr (.inl ⟨rfl, rfl, hr⟩)
  · refine sat_bind.mpr ((sat_of_eq hrun).mpr ?_)
    rw [if_neg (by omega), Int.toNat_natCast]
    by_cases hm : ({ s with sz := sz' } : Heap).Mapped s.sz
    · have hgrow := h.grow (N := coreUnits nunits) (by omega) (by omega) hm
      refine sat_bind.mpr ((sat_setSize hm (by omega)).mpr ((free_sat hgrow rfl).bind ?_))
      rintro _ s1 ⟨bs', hs', hsz', hlen, ⟨c, hc, hcf, hcu⟩, hlive⟩
      have hpos := hs'.freep_pos hb
      refine sat_bind.mpr
        (sat_getState.mpr
          (sat_pure.mpr (.inr ⟨by omega, rfl, hr, bs', hs', ?_, ⟨c, hc, hcf, hge.trans hcu⟩, ?_,
        hm.of_sz hsz', ?_, ?_⟩)))
      · simpa using hlen
      · intro d hd
        rw [hlive d hd]
        simp
      · rw [hsz']
        exact hsmall
      · rw [hsz']
        exact hbig
    · refine sat_bind.mpr ((sat_setSize_fault hm).mpr (hE (fun hor => ?_) _))
      have hnew := (hsmall (hor.resolve_right hr)).1
      have hle := le_limit { s with sz := sz' }
      unfold Mapped at hm
      simp only at hle hm
      omega

/-- The heap between the calls of a program: nothing yet, or blocks up to the break. -/
structure Ready (base lo : Nat) (s : Heap) (bs : List Block) : Prop where
  heap : s.freep = 0 ∧ bs = [] ∧ s.sz = lo ∨ HeapAt base lo s bs s.sz
  pos : 0 < base
  below : base + 16 ≤ lo
  bound : s.sz ≤ 2 ^ 27

lemma Ready.heapAt {b : Block} (h : Ready base lo s bs) (hb : b ∈ bs) : HeapAt base lo s bs s.sz := by
  refine h.heap.resolve_left ?_
  rintro ⟨-, rfl, -⟩
  exact absurd hb not_mem_nil

lemma init_sat (h : Ready base lo s bs) :
    (init base).Sat s E fun _ s' => HeapAt base lo s' bs s'.sz ∧ s'.sz = s.sz := by
  refine sat_bind.mpr (sat_getState.mpr ?_)
  rcases h.heap with ⟨hfreep, rfl, hlo⟩ | hheap
  · have hm : s.Mapped base := by
      have hle := le_limit s
      have hbelow := h.below
      unfold Mapped
      omega
    have hbelow := h.below
    have hbound := h.bound
    rw [if_pos hfreep]
    refine sat_bind.mpr
      ((sat_setPtr hm).mpr
        (sat_bind.mpr (sat_setFreep.mpr ((sat_setSize hm (by decide)).mpr ⟨?_, rfl⟩))))
    refine ⟨hlo.symm, update_self .., nofun, update_self .., isChain_nil,
      mem_singleton_self _, nofun, hm, by omega, ?_⟩
    show s.sz < 2 ^ 36
    omega
  · have hpos := hheap.freep_pos h.pos
    rw [if_neg (by omega)]
    exact sat_pure.mpr ⟨hheap, rfl⟩

lemma Refused.of_sz {s' : Heap} {nu : Nat} (h : Refused room nu s') (hsz : s'.sz = s.sz) :
    Refused room nu s := by
  unfold Refused at *
  rwa [← hsz]

lemma HeapAt.size_le (h : HeapAt base lo s bs top) (hprev : prevp ∈ base :: frees bs) :
    16 * s.size (s.ptr prevp) ≤ top := by
  by_cases hsize : 0 < s.size (s.ptr prevp)
  · obtain ⟨X, b, Y, rfl, -, hba, -⟩ := h.find hprev hsize
    obtain ⟨-, -, hle⟩ := h.tiles.mem (b := b) (by simp)
    rw [← hba, h.sizes b (by simp)]
    rw [Block.stop] at hle
    omega
  · omega

/-- The result of `malloc`: no memory, or a block. From 2^31 bytes on the block ends behind the
break. -/
structure Allocated (base lo : Nat) (s : Heap) (bs : List Block) (nunits r : Nat)
    (s' : Heap) : Prop where
  result : ∃ bs' c top, HeapAt base lo s' bs' top ∧ TakenFrom bs nunits r c bs' ∧
    (16 * nunits < 2 ^ 31 → s'.sz = top ∧ s'.sz ≤ 2 ^ 27) ∧ (2 ^ 31 ≤ 16 * nunits → s'.sz < top)
  grows : 16 * nunits < 2 ^ 31 → s.sz ≤ s'.sz

lemma growAndSearch_sat (hb : 0 < base) (h : HeapAt base lo s bs s.sz) (hsz : s.sz ≤ 2 ^ 27)
    (hpos : 0 < nunits) (hN : nunits ≤ 2 ^ 28 + 1)
    (hE : ¬ (16 * nunits < 2 ^ 31 ∨ Refused room nunits s) → ∀ e, E e)
    (ht : bs.length + 1 < turns) :
    (growAndSearch room nunits turns).Sat s E fun r s' => (r = 0 ∧ s' = s ∧ Refused room nunits s) ∨
      (Allocated base lo s bs nunits r s' ∧ ¬ Refused room nunits s) := by
  refine (morecore_sat hb h hsz hN hE).bind ?_
  rintro p s1 (⟨rfl, rfl, hr⟩ | ⟨hp, rfl, hr, bs1, h1, hlen, hfit, hlive, hm, hsmall, hbig⟩)
  · rw [if_pos rfl]
    exact sat_pure.mpr (.inl ⟨rfl, rfl, hr⟩)
  · have hnew : ∀ a, a + 16 * nunits ≤ s.sz + 16 * coreUnits nunits → s1.Mapped a := by
      intro a ha
      have hle := le_limit s1
      obtain ⟨-, -, hlarge⟩ := coreUnits_ge nunits
      unfold Mapped at *
      by_cases hlt : 16 * nunits < 2 ^ 31
      · have hsz1 := (hsmall hlt).1
        omega
      · rw [hlarge (by omega)] at ha
        omega
    rw [if_neg hp]
    refine sat_bind.mpr ((sat_getPtr (h1.mapped_of_mem h1.head)).mpr ?_)
    refine (mallocSearch_found h1 hpos hnew hfit (by omega)).imp ?_
    rintro r s2 ⟨bs2, c, h2, hsz2, htaken⟩
    obtain ⟨hge, hmin, -⟩ := coreUnits_ge nunits
    refine Or.inr ⟨⟨⟨bs2, c, _, h2, ?_, ?_, ?_⟩, ?_⟩, hr⟩
    · refine ⟨htaken.mem, htaken.taken, htaken.units, htaken.ptr, fun d hd hdf =>
        htaken.other d ((hlive d hdf).mpr hd) hdf, ?_⟩
      intro d hd
      rw [htaken.live d hd, hlive d hd]
    · rw [hsz2]
      exact hsmall
    · intro hle
      have hsz1 := hbig hle
      omega
    · intro hlt
      have hsz1 := (hsmall hlt).1
      omega

lemma malloc_sat (room : Bool) {nbytes : Nat} (h : Ready base lo s bs) (hn : nbytes < 2 ^ 32)
    (hE : ¬ (16 * nunitsOf nbytes < 2 ^ 31 ∨ Refused room (nunitsOf nbytes) s) → ∀ e, E e) :
    (malloc base room nbytes).Sat s E fun r s' =>
      (r = 0 ∧ HeapAt base lo s' bs s'.sz ∧ s'.sz = s.sz ∧ Refused room (nunitsOf nbytes) s) ∨
      (Allocated base lo s bs (nunitsOf nbytes) r s' ∧
        (2 ^ 31 ≤ 16 * nunitsOf nbytes → ¬ Refused room (nunitsOf nbytes) s)) := by
  have hunits : 0 < nunitsOf nbytes ∧ nunitsOf nbytes ≤ 2 ^ 28 + 1 := by
    unfold nunitsOf
    omega
  refine (init_sat h).bind ?_
  rintro _ s1 ⟨h1, hsz1⟩
  have hbound : s1.sz ≤ 2 ^ 27 := hsz1 ▸ h.bound
  obtain ⟨ys, hring, hmem, hnot, hlen⟩ := h1.cycle
  obtain ⟨hle, hlim⟩ := h1.length_le
  refine sat_bind.mpr (sat_getState.mpr (sat_bind.mpr ((sat_getPtr (h1.mapped_of_mem h1.head)).mpr ?_)))
  refine mallocSearch_sat h1 hring (fun x hx => (hmem x).mp hx) hnot (by omega) ?_ ?_
  · intro prevp hprev hfit
    have hsize := h1.size_le hprev
    refine (take_sat h1 hprev hunits.1 hfit fun a ha => ?_).imp ?_
    · have hlim' := le_limit s1
      unfold Mapped
      omega
    · rintro r s2 ⟨bs2, c, h2, hsz2, htaken⟩
      refine Or.inr
        ⟨⟨⟨bs2, c, _, h2, htaken, fun _ => ⟨hsz2, by omega⟩, fun hbig => by omega⟩,
          fun _ => by omega⟩, fun hbig => by omega⟩
  · intro _ k hk
    have hE1 : ¬ (16 * nunitsOf nbytes < 2 ^ 31 ∨ Refused room (nunitsOf nbytes) s1) → ∀ e, E e :=
      fun hnot => hE fun hor => hnot (hor.imp id fun hr => hr.of_sz hsz1.symm)
    refine (growAndSearch_sat h.pos h1 hbound hunits.1 hunits.2 hE1 (by omega)).imp ?_
    rintro r s2 (⟨rfl, rfl, hr⟩ | ⟨ha, hr⟩)
    · exact .inl ⟨rfl, h1, hsz1, hr.of_sz hsz1⟩
    · exact .inr ⟨⟨ha.result, fun hlt => hsz1 ▸ ha.grows hlt⟩, fun _ hr' => hr (hr'.of_sz hsz1.symm)⟩

end

end Heap

end Xv6
