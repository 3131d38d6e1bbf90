import Xv6.Lib.Ledger
import Xv6.Lib.Table
import Xv6.FsModel

/-! Who owns which block. `I` gives the current dinode of every inode, which for an
inode that is being changed is the copy in memory. Slot `k` of an inode is
`addrs[k]` up to the indirect block and the words of the indirect block after it. -/

namespace Xv6

open Function (update_self update_of_ne update)

open Kern List

def slotAddr (disk : Disk) (d : Dinode) (k : Nat) : Nat :=
  if k ≤ ndirect then d.addrs k
  else if d.addrs ndirect = 0 ∨ nindirect ≤ k - (ndirect + 1) then 0
  else getWord (disk (d.addrs ndirect)) (k - (ndirect + 1))

def Owns (sb : Superblock) (disk : Disk) (I : Nat → Dinode) (o : Nat × Nat) (b : Nat) : Prop :=
  o.1 < sb.ninodes ∧ (I o.1).type ≠ 0 ∧ slotAddr disk (I o.1) o.2 = b ∧ b ≠ 0

/-- The bit of block `b` in the bitmap. -/
def bitOf (sb : Superblock) (disk : Disk) (b : Nat) : Bool := getBit (disk (bblock sb b)) (b % bpb)

/-- The blocks behind the bitmap, which hold data. -/
def InPool (sb : Superblock) (b : Nat) : Prop := nmeta sb ≤ b ∧ b < sb.size

structure Own (sb : Superblock) (disk : Disk) (I : Nat → Dinode) (loose : List Nat) : Prop where
  ledger : Ledger (InPool sb) (fun b => bitOf sb disk b = false) (Owns sb disk I) loose
  rest : ∀ b, bblock sb b < nmeta sb → ¬ InPool sb b → bitOf sb disk b = decide (b < nmeta sb)

section

variable {sb : Superblock} {disk disk' : Disk} {I I' : Nat → Dinode} {L : List Nat}

variable {d : Dinode} {k b i x a j : Nat}

lemma slotAddr_of_le (h : k ≤ ndirect) : slotAddr disk d k = d.addrs k :=
  if_pos h

lemma slotAddr_congr (h : d.addrs ndirect ≠ 0 → disk' (d.addrs ndirect) = disk (d.addrs ndirect))
    (k : Nat) : slotAddr disk' d k = slotAddr disk d k := by
  unfold slotAddr
  split
  · rfl
  · by_cases hz : d.addrs ndirect = 0
    · simp [hz]
    · rw [h hz]

lemma Layout.bmap_meta (hl : Layout sb) : sb.bmapstart < nmeta sb := by
  have h := hl.bblock_lt 0 hl.size_pos
  simpa [bblock] using h

lemma Layout.bmap_lt (hl : Layout sb) (hb : b < sb.size) :
    sb.bmapstart ≤ bblock sb b ∧ bblock sb b < nmeta sb :=
  ⟨Nat.le_add_left _ _, hl.bblock_lt b hb⟩

lemma Own.owned_pool (h : Own sb disk I L) {o : Nat × Nat} (ho : Owns sb disk I o b) : InPool sb b :=
  (h.ledger.owned o b ho).1

lemma owns_indirect (hi : i < sb.ninodes) (ht : (I i).type ≠ 0) (ha : (I i).addrs ndirect ≠ 0) :
    Owns sb disk I (i, ndirect) ((I i).addrs ndirect) :=
  ⟨hi, ht, slotAddr_of_le (Nat.le_refl _), ha⟩

lemma owns_congr (h : ∀ i < sb.ninodes, (I i).type ≠ 0 → (I i).addrs ndirect ≠ 0 →
    disk' ((I i).addrs ndirect) = disk ((I i).addrs ndirect)) (o : Nat × Nat) (b : Nat) :
    Owns sb disk' I o b ↔ Owns sb disk I o b := by
  unfold Owns
  by_cases hi : o.1 < sb.ninodes
  · by_cases ht : (I o.1).type ≠ 0
    · rw [slotAddr_congr (h o.1 hi ht)]
    · simp [ht]
  · simp [hi]

lemma Own.congr (h : Own sb disk I L) (hl : Layout sb)
    (hb : ∀ b, bblock sb b < nmeta sb → bitOf sb disk' b = bitOf sb disk b)
    (ho : ∀ o b, Owns sb disk' I' o b ↔ Owns sb disk I o b) : Own sb disk' I' L where
  ledger := h.ledger.congr (fun b hp => by rw [hb b (hl.bblock_lt b hp.2)]) ho
  rest := fun b hm hp => (hb b hm).trans (h.rest b hm hp)

lemma Own.setData (h : Own sb disk I L) (hl : Layout sb) (v : Block)
    (hx : x ∈ L ∨ ∃ o, Owns sb disk I o x ∧ o.2 ≠ ndirect) : Own sb (update disk x v) I L ∧
      ∀ o b, Owns sb (update disk x v) I o b ↔ Owns sb disk I o b := by
  have hpool : InPool sb x := by
    rcases hx with hx | ⟨o, ho, -⟩
    · exact (h.ledger.loose_pool x hx).1
    · exact h.owned_pool ho
  have hind : ∀ i < sb.ninodes, (I i).type ≠ 0 → (I i).addrs ndirect ≠ 0 →
      update disk x v ((I i).addrs ndirect) = disk ((I i).addrs ndirect) := by
    intro i hi ht ha
    have hown : Owns sb disk I (i, ndirect) _ := owns_indirect hi ht ha
    refine update_of_ne (fun he => ?_) _ _
    rw [he] at hown
    rcases hx with hx | ⟨o, ho, hk⟩
    · exact h.ledger.loose_owned x hx _ hown
    · exact hk (by rw [h.ledger.single _ _ x ho hown])
  refine ⟨h.congr hl (fun b hb => ?_) (owns_congr hind), owns_congr hind⟩
  have hne : bblock sb b ≠ x := by
    have hge := hpool.1
    omega
  rw [bitOf, update_of_ne hne, bitOf]

lemma Own.setMeta (h : Own sb disk I L) (hl : Layout sb) (v : Block)
    (hx : x < sb.bmapstart) : Own sb (update disk x v) I L := by
  refine h.congr hl (fun b hb => ?_) (owns_congr fun i hi ht ha => ?_)
  · have hne : bblock sb b ≠ x := by
      have hge : sb.bmapstart ≤ bblock sb b := Nat.le_add_left _ _
      omega
    rw [bitOf, update_of_ne hne, bitOf]
  · have hge := (h.owned_pool (owns_indirect hi ht ha)).1
    have hm := hl.bmap_meta
    exact update_of_ne (by omega) _ _

lemma mod_eq_iff_of_bblock {c : Nat} (h : bblock sb c = bblock sb b) : c % bpb = b % bpb ↔ c = b := by
  have hdiv : c / bpb = b / bpb := Nat.add_right_cancel h
  have h1 := Nat.div_add_mod c bpb
  have h2 := Nat.div_add_mod b bpb
  rw [hdiv] at h1
  constructor
  · intro he
    omega
  · intro he
    rw [he]

lemma bitOf_setBit (b c : Nat) :
    bitOf sb (update disk (bblock sb b) (setBit (disk (bblock sb b)) (b % bpb))) c =
      (decide (c = b) || bitOf sb disk c) := by
  have hlt : b % bpb < bpb := Nat.mod_lt _ (by decide)
  by_cases hbc : bblock sb c = bblock sb b
  · rw [bitOf, hbc, update_self, getBit_setBit _ hlt, bitOf, hbc]
    simp only [mod_eq_iff_of_bblock hbc]
  · have hne : c ≠ b := fun he => hbc (by rw [he])
    rw [bitOf, update_of_ne hbc, bitOf]
    simp [hne]

lemma bitOf_clearBit (b c : Nat) :
    bitOf sb (update disk (bblock sb b) (clearBit (disk (bblock sb b)) (b % bpb))) c =
      (decide (c ≠ b) && bitOf sb disk c) := by
  have hlt : b % bpb < bpb := Nat.mod_lt _ (by decide)
  by_cases hbc : bblock sb c = bblock sb b
  · rw [bitOf, hbc, update_self, getBit_clearBit _ hlt, bitOf, hbc]
    simp only [ne_eq, mod_eq_iff_of_bblock hbc]
  · have hne : c ≠ b := fun he => hbc (by rw [he])
    rw [bitOf, update_of_ne hbc, bitOf]
    simp [hne]

lemma Own.owns_bitmap (h : Own sb disk I L) (hl : Layout sb) (hb : b < sb.size) (v : Block)
    (o : Nat × Nat) (x : Nat) : Owns sb (update disk (bblock sb b) v) I o x ↔ Owns sb disk I o x := by
  refine owns_congr (fun i hi ht ha => ?_) o x
  have hge := (h.owned_pool (owns_indirect hi ht ha)).1
  have hlt := hl.bblock_lt b hb
  exact update_of_ne (by omega) _ _

lemma Own.alloc (h : Own sb disk I L) (hl : Layout sb) (hb : b < sb.size)
    (hfree : bitOf sb disk b = false) : InPool sb b ∧ Own sb (update (update disk (bblock sb b)
      (setBit (disk (bblock sb b)) (b % bpb))) b (Bytes.fill bsize 0)) I (b :: L) := by
  have hpool : InPool sb b := by
    refine ⟨?_, hb⟩
    by_contra hlt
    rw [h.rest b (hl.bblock_lt b hb) (fun hp => hlt hp.1), decide_eq_true (by omega)] at hfree
    cases hfree
  have hmark : Own sb (update disk (bblock sb b) (setBit (disk (bblock sb b)) (b % bpb))) I
      (b :: L) := by
    constructor
    · refine Ledger.congr (h.ledger.take hpool hfree fun c _ => ?_) (fun _ _ => Iff.rfl)
        (h.owns_bitmap hl hb _)
      rw [bitOf_setBit]
      by_cases hc : c = b <;> simp [hc]
    · intro c hc hp
      have hne : c ≠ b := fun he => hp (he ▸ hpool)
      rw [bitOf_setBit, h.rest c hc hp]
      simp [hne]
  exact ⟨hpool, (hmark.setData hl _ (.inl mem_cons_self)).1⟩

lemma Own.free (h : Own sb disk I (b :: L)) (hl : Layout sb) :
    bitOf sb disk b = true ∧ Own sb (update disk (bblock sb b)
      (clearBit (disk (bblock sb b)) (b % bpb))) I L := by
  obtain ⟨hpool, hused⟩ := h.ledger.loose_pool b mem_cons_self
  refine ⟨by simpa using hused, ?_, ?_⟩
  · refine Ledger.congr (h.ledger.release fun c _ => ?_) (fun _ _ => Iff.rfl)
      (h.owns_bitmap hl hpool.2 _)
    rw [bitOf_clearBit]
    by_cases hc : c = b <;> simp [hc]
  · intro c hc hp
    have hne : c ≠ b := fun he => hp (he ▸ hpool)
    rw [bitOf_clearBit, h.rest c hc hp]
    simp [hne]

lemma slotAddr_setAddr (disk : Disk) (hk : k ≤ ndirect) (ha : a < 2 ^ 32)
    (hind : k = ndirect → d.addrs ndirect = 0 ∧ ∀ j < nindirect, getWord (disk a) j = 0) (k' : Nat) :
    slotAddr disk (d.setAddr k a) k' = if k' = k then a else slotAddr disk d k' := by
  by_cases hkk : k' = k
  · subst hkk
    rw [if_pos rfl, slotAddr_of_le hk, Dinode.setAddr_self d hk ha]
  · rw [if_neg hkk]
    unfold slotAddr
    by_cases hle : k' ≤ ndirect
    · rw [if_pos hle, if_pos hle, Dinode.setAddr_of_ne d a hkk]
    · rw [if_neg hle, if_neg hle]
      by_cases hkd : k = ndirect
      · obtain ⟨h0, hz⟩ := hind hkd
        subst hkd
        rw [Dinode.setAddr_self d hk ha, if_pos (Or.inl h0)]
        split
        · rfl
        · rename_i hcond
          exact hz _ (by omega)
      · rw [Dinode.setAddr_of_ne d a (Ne.symm hkd)]

lemma Layout.pool_lt (hl : Layout sb) (ha : InPool sb a) : a ≠ 0 ∧ a < 2 ^ 32 := by
  have h0 := hl.bmap_meta
  have h1 := ha.1
  have h2 := ha.2
  have h3 := hl.size_lt
  omega

lemma owns_update_ne {o : Nat × Nat} (h : o.1 ≠ i) (b : Nat) :
    Owns sb disk (update I i d) o b ↔ Owns sb disk I o b := by
  rw [Owns, Owns, update_of_ne h]

lemma Own.attach (h : Own sb disk I (a :: L)) (hl : Layout sb)
    (hi : i < sb.ninodes) (ht : (I i).type ≠ 0) (hk : k ≤ ndirect) (h0 : (I i).addrs k = 0)
    (hz : k = ndirect → disk a = Bytes.fill bsize 0) :
    Own sb disk (update I i ((I i).setAddr k a)) L := by
  obtain ⟨ha0, ha⟩ := hl.pool_lt (h.ledger.loose_pool a mem_cons_self).1
  have hslot := slotAddr_setAddr disk (d := I i) hk ha fun hkd => ⟨hkd ▸ h0, fun j hj => by
    rw [hz hkd]
    exact getWord_fill_zero hj⟩
  refine ⟨h.ledger.give (i, k) ?_, h.rest⟩
  rintro ⟨i', k'⟩ x
  by_cases hii : i' = i
  · subst hii
    unfold Owns
    rw [update_self, hslot]
    by_cases hkk : k' = k
    · subst hkk
      have hold : slotAddr disk (I i') k' = 0 := by rw [slotAddr_of_le hk, h0]
      simp only [if_true, hold, Dinode.setAddr_type]
      constructor
      · rintro ⟨-, -, rfl, -⟩
        exact .inr ⟨trivial, rfl⟩
      · rintro (⟨-, -, he, hne⟩ | ⟨-, rfl⟩)
        · exact absurd he.symm hne
        · exact ⟨hi, ht, rfl, ha0⟩
    · simp [hkk]
  · rw [owns_update_ne hii]
    simp [hii]

lemma Own.attachWord (h : Own sb disk I (a :: L)) (hl : Layout sb)
    (hi : i < sb.ninodes) (ht : (I i).type ≠ 0) (hind : (I i).addrs ndirect ≠ 0) (hj : j < nindirect)
    (h0 : getWord (disk ((I i).addrs ndirect)) j = 0) :
    Own sb (update disk ((I i).addrs ndirect) (setWord (disk ((I i).addrs ndirect)) j a)) I L ∧
    ∀ k, slotAddr (update disk ((I i).addrs ndirect)
      (setWord (disk ((I i).addrs ndirect)) j a)) (I i) k =
        if k = ndirect + 1 + j then a else slotAddr disk (I i) k := by
  obtain ⟨ha0, ha⟩ := hl.pool_lt (h.ledger.loose_pool a mem_cons_self).1
  have hown : Owns sb disk I (i, ndirect) _ := owns_indirect hi ht hind
  have hpool := h.owned_pool hown
  set ind := (I i).addrs ndirect with hindeq
  set disk' := update disk ind (setWord (disk ind) j a) with hdisk
  have hself : disk' ind = setWord (disk ind) j a := update_self _ _ _
  have hslot :
    ∀ k, slotAddr disk' (I i) k = if k = ndirect + 1 + j then a else slotAddr disk (I i) k := by
    intro k
    unfold slotAddr
    rw [← hindeq, hself]
    by_cases hle : k ≤ ndirect
    · rw [if_pos hle, if_pos hle, if_neg (by omega)]
    · rw [if_neg hle, if_neg hle, getWord_setWord _ hj ha]
      by_cases hk : k = ndirect + 1 + j
      · rw [if_pos hk, if_neg (by omega), if_pos (by omega)]
      · rw [if_neg hk, if_neg (show k - (ndirect + 1) ≠ j by omega)]
  have hother : ∀ i' < sb.ninodes, (I i').type ≠ 0 → i' ≠ i → ∀ k, slotAddr disk' (I i') k =
      slotAddr disk (I i') k := by
    intro i' hi' ht' hne k
    refine slotAddr_congr (fun ha' => update_of_ne (fun he => ?_) _ _) k
    have hown' : Owns sb disk I (i', ndirect) ind := he ▸ owns_indirect hi' ht' ha'
    have hsame := h.ledger.single _ _ _ hown hown'
    exact hne (congrArg Prod.fst hsame).symm
  refine ⟨⟨?_, fun c hc hp => ?_⟩, hslot⟩
  · have hbits : ∀ c, InPool sb c → (bitOf sb disk' c = false ↔ bitOf sb disk c = false) := by
      intro c hc
      have hne : bblock sb c ≠ ind := by
        have hlt := hl.bblock_lt c hc.2
        have hge := hpool.1
        omega
      rw [bitOf, bitOf, hdisk, update_of_ne hne]
    refine Ledger.congr (h.ledger.give (i, ndirect + 1 + j) ?_) hbits fun _ _ => Iff.rfl
    rintro ⟨i', k'⟩ x
    unfold Owns
    by_cases hii : i' = i
    · subst hii
      rw [hslot]
      by_cases hkk : k' = ndirect + 1 + j
      · have hold : slotAddr disk (I i') k' = 0 := by
          unfold slotAddr
          rw [if_neg (by omega), ← hindeq, if_neg (by omega), hkk]
          simpa using h0
        simp only [if_pos hkk, hold]
        constructor
        · rintro ⟨-, -, rfl, -⟩
          exact .inr ⟨by rw [hkk], rfl⟩
        · rintro (⟨-, -, he, hne⟩ | ⟨-, rfl⟩)
          · exact absurd he.symm hne
          · exact ⟨hi, ht, rfl, ha0⟩
      · simp [hkk]
    · by_cases hi' : i' < sb.ninodes
      · by_cases ht' : (I i').type = 0
        · simp [ht', hii]
        · rw [hother i' hi' ht' hii]
          simp [hii]
      · simp [hi', hii]
  · have hne : bblock sb c ≠ ind := by
      have hge := hpool.1
      omega
    rw [bitOf, hdisk, update_of_ne hne]
    exact h.rest c hc hp

lemma Own.detach (h : Own sb disk I L) (hi : i < sb.ninodes) (ht : (I i).type ≠ 0)
    (hk : k < ndirect) (hne : (I i).addrs k ≠ 0) :
    Own sb disk (update I i ((I i).setAddr k 0)) ((I i).addrs k :: L) := by
  have hslot := slotAddr_setAddr disk (d := I i) (a := 0) (Nat.le_of_lt hk) (by decide)
    fun hkd => absurd hkd (Nat.ne_of_lt hk)
  have hown : Owns sb disk I (i, k) ((I i).addrs k) :=
    ⟨hi, ht, slotAddr_of_le (Nat.le_of_lt hk), hne⟩
  refine ⟨Ledger.drop h.ledger (fun o => o = (i, k)) (nodup_singleton _) ?_ ?_, h.rest⟩
  · intro x
    rw [mem_singleton]
    constructor
    · rintro rfl
      exact ⟨(i, k), rfl, hown⟩
    · rintro ⟨-, rfl, hx⟩
      exact hx.2.2.1.symm.trans hown.2.2.1
  · rintro ⟨i', k'⟩ x
    by_cases hii : i' = i
    · subst hii
      unfold Owns
      rw [update_self, hslot]
      by_cases hkk : k' = k
      · simp only [hkk, if_true, not_true, and_false, iff_false]
        rintro ⟨-, -, he, hne⟩
        exact hne he.symm
      · simp [hkk]
    · rw [owns_update_ne hii]
      simp [hii]

def wordsAt (b : Block) (js : List Nat) : List Nat :=
  (js.filter fun j => getWord b j ≠ 0).map (getWord b)

lemma slotAddr_word (disk : Disk) (hd : d.addrs ndirect ≠ 0) (hj : j < nindirect) :
    slotAddr disk d (ndirect + 1 + j) = getWord (disk (d.addrs ndirect)) j := by
  unfold slotAddr
  rw [if_neg (by omega), if_neg (by omega)]
  simp

lemma Own.detachIndirect (h : Own sb disk I L) (hi : i < sb.ninodes) (ht : (I i).type ≠ 0)
    (hne : (I i).addrs ndirect ≠ 0) : Own sb disk (update I i ((I i).setAddr ndirect 0))
      (wordsAt (disk ((I i).addrs ndirect)) (List.range nindirect) ++ (I i).addrs ndirect :: L) := by
  set ind := (I i).addrs ndirect with hind
  have hown : Owns sb disk I (i, ndirect) ind := owns_indirect hi ht hne
  have hword : ∀ j < nindirect, getWord (disk ind) j ≠ 0 →
      Owns sb disk I (i, ndirect + 1 + j) (getWord (disk ind) j) := fun j hj hw =>
    ⟨hi, ht, slotAddr_word _ hne hj, hw⟩
  have hmem : ∀ x, x ∈ wordsAt (disk ind) (List.range nindirect) ↔
      ∃ j < nindirect, getWord (disk ind) j = x ∧ x ≠ 0 := by
    intro x
    simp only [wordsAt, mem_map, mem_filter, mem_range, decide_eq_true_eq]
    constructor
    · rintro ⟨j, ⟨hj, hw⟩, rfl⟩
      exact ⟨j, hj, rfl, hw⟩
    · rintro ⟨j, hj, rfl, hw⟩
      exact ⟨j, ⟨hj, hw⟩, rfl⟩
  have hnodup : (wordsAt (disk ind) (List.range nindirect) ++ [ind]).Nodup := by
    refine nodup_append.mpr ⟨?_, nodup_singleton _, ?_⟩
    · refine List.Nodup.map_on ?_ (nodup_range.filter _)
      intro j hj j' hj' he
      simp only [mem_filter, mem_range, decide_eq_true_eq] at hj hj'
      have h1 := hword j hj.1 hj.2
      rw [he] at h1
      have hs := congrArg Prod.snd (h.ledger.single _ _ _ h1 (hword j' hj'.1 hj'.2))
      simp only at hs
      omega
    · rintro x hx y hy rfl
      rw [mem_singleton] at hy
      subst hy
      obtain ⟨j, hj, hw, hx0⟩ := (hmem _).mp hx
      have h1 := hword j hj (by rw [hw]; exact hx0)
      rw [hw] at h1
      have hs := congrArg Prod.snd (h.ledger.single _ _ _ h1 hown)
      simp only at hs
      omega
  rw [← singleton_append, ← append_assoc]
  refine ⟨h.ledger.drop (fun o => o.1 = i ∧ ndirect ≤ o.2) hnodup ?_ ?_, h.rest⟩
  · intro x
    rw [mem_append, hmem, mem_singleton]
    constructor
    · rintro (⟨j, hj, rfl, hx0⟩ | rfl)
      · exact ⟨_, ⟨rfl, by simp only; omega⟩, hword j hj hx0⟩
      · exact ⟨_, ⟨rfl, Nat.le_refl _⟩, hown⟩
    · rintro ⟨⟨i', k⟩, ⟨rfl, hk⟩, -, -, hx, hx0⟩
      simp only at hk hx
      by_cases hkd : k = ndirect
      · subst hkd
        rw [slotAddr_of_le (Nat.le_refl _)] at hx
        exact .inr hx.symm
      · unfold slotAddr at hx
        rw [if_neg (by omega)] at hx
        split at hx
        · exact absurd hx.symm hx0
        · rename_i hc
          exact .inl ⟨k - (ndirect + 1), by omega, hx, hx0⟩
  · rintro ⟨i', k'⟩ x
    by_cases hii : i' = i
    · subst hii
      unfold Owns
      rw [update_self]
      by_cases hkk : ndirect ≤ k'
      · have hz : slotAddr disk ((I i').setAddr ndirect 0) k' = 0 := by
          unfold slotAddr
          rw [Dinode.setAddr_self _ (Nat.le_refl _) (by decide)]
          by_cases hle : k' ≤ ndirect
          · have hkd : k' = ndirect := by omega
            rw [if_pos hle, hkd, Dinode.setAddr_self _ (Nat.le_refl _) (by decide)]
          · simp [hle]
        simp only [hz, hkk, and_self, not_true, and_false, iff_false]
        rintro ⟨-, -, he, hx0⟩
        exact hx0 he.symm
      · have hsame : slotAddr disk ((I i').setAddr ndirect 0) k' = slotAddr disk (I i') k' := by
          rw [slotAddr_of_le (by omega), slotAddr_of_le (by omega), Dinode.setAddr_of_ne _ _ (by omega)]
        simp [hsame, hkk]
    · rw [owns_update_ne hii]
      simp [hii]

end

section

def Fs.logCap (s : Fs) : Nat := min logSize (s.sb.nlog - 1)

structure Panics where
  allows : String → Prop
  tooBig : allows "too big a transaction"

instance : Coe Panics (String → Prop) := ⟨Panics.allows⟩

instance : CoeFun Panics fun _ => String → Prop := ⟨Panics.allows⟩

def Panics.any : Panics := ⟨fun _ => True, trivial⟩

variable {s : Fs} {I : Nat → Dinode} {L : List Nat} {E : Panics} {b : Nat}

lemma Fs.logWrite_log (h : 1 ≤ s.outstanding) (b : Nat) :
    Xv6.logWrite s.log b = if s.logCap ≤ s.logged.length then .error "too big a transaction"
      else .ok { s.log with lh := logAbsorb s.logged b } := by
  have hcap : (s.log.lh.length ≥ logSize ∨ s.log.lh.length ≥ s.log.size - 1) ↔
      s.logCap ≤ s.logged.length := min_le_iff.symm
  have hout : ¬ s.log.outstanding < 1 := by
    show ¬ (s.outstanding : Int) < 1
    omega
  rw [Xv6.logWrite, if_neg hout]
  by_cases hc : s.logCap ≤ s.logged.length
  · rw [if_pos (hcap.mpr hc), if_pos hc]
  · rw [if_neg (mt hcap.mp hc), if_neg hc]
    rfl

lemma logWrite_room {E : String → Prop} (h : 1 ≤ s.outstanding) (b : Nat)
    (hfull : s.logCap ≤ s.logged.length → E "too big a transaction") :
    Sat (Fs.logWrite b) s E fun _ s' => s' = { s with logged := logAbsorb s.logged b } := by
  unfold Fs.logWrite
  rw [sat_bind, sat_getState, Fs.logWrite_log h b]
  by_cases hc : s.logCap ≤ s.logged.length
  · rw [if_pos hc]
    exact sat_panic.mpr (hfull hc)
  · rw [if_neg hc]
    exact sat_modifyState.mpr rfl

lemma writeBlock_room {E : String → Prop} (h : 1 ≤ s.outstanding) (b : Nat) (v : Block)
    (hfull : s.logCap ≤ s.logged.length → E "too big a transaction") :
    Sat (writeBlock b v) s E fun _ s' =>
      s' = { s with disk := update s.disk b v, logged := logAbsorb s.logged b } := by
  unfold writeBlock
  rw [sat_bind, sat_modifyState]
  exact logWrite_room (s := s.setBlock b v) h b hfull

lemma logWrite_sat (h : 1 ≤ s.outstanding) (b : Nat) :
    Sat (Fs.logWrite b) s E fun _ s' => s' = { s with logged := logAbsorb s.logged b } :=
  logWrite_room h b fun _ => E.tooBig

lemma writeBlock_sat (h : 1 ≤ s.outstanding) (b : Nat) (v : Block) :
    Sat (writeBlock b v) s E fun _ s' =>
      s' = { s with disk := update s.disk b v, logged := logAbsorb s.logged b } :=
  writeBlock_room h b v fun _ => E.tooBig

structure BitmapFits (sb : Superblock) : Prop where
  size_le : sb.size ≤ 2 ^ 31
  start_le : sb.bmapstart + 2 ^ 19 ≤ 2 ^ 32

lemma bblockInt_eq {sb : Superblock} (hstart : sb.bmapstart + 2 ^ 19 ≤ 2 ^ 32) {k : Nat}
    (hk : k * bpb < 2 ^ 31) : bblockInt sb (k * bpb) = bblock sb (k * bpb) := by
  have hpos : 0 < bpb := by decide
  have hlt : k < 2 ^ 18 := by
    have hbpb : bpb = 8192 := rfl
    rw [hbpb] at hk
    omega
  have hdiv : (toInt32 (k * bpb)).tdiv bpb = k := by
    rw [toInt32, if_pos hk, ← Int.ofNat_tdiv, Nat.mul_div_cancel _ hpos]
  rw [bblockInt, hdiv, bblock, Nat.mul_div_cancel _ hpos]
  omega

lemma bblock_row {sb : Superblock} {k i : Nat} (hi : i < bpb) :
    bblock sb (k * bpb + i) = bblock sb (k * bpb) := by
  have hpos : 0 < bpb := by decide
  rw [bblock, bblock, Nat.mul_div_cancel _ hpos, Nat.mul_comm, Nat.mul_add_div hpos,
    Nat.div_eq_of_lt hi, Nat.add_zero]

lemma mod_row {k i : Nat} (hi : i < bpb) : (k * bpb + i) % bpb = i := by
  rw [Nat.mul_comm, Nat.mul_add_mod, Nat.mod_eq_of_lt hi]

lemma Fs.bit_row {k i : Nat} (hi : i < bpb) :
    s.bit (k * bpb + i) = getBit (s.disk (bblock s.sb (k * bpb))) i := by
  rw [Fs.bit, bblock_row hi, mod_row hi]

lemma firstFree_eq (h : BitmapFits s.sb) : (firstFree s).map (fun r => r.1 + r.2) =
    (List.range s.sb.size).find? fun b => !s.bit b := by
  have hpos : 0 < bpb := by decide
  have hbpb : bpb = 8192 := rfl
  have hsize := h.size_le
  rw [← find?_rows hpos, firstFree, map_findSome?]
  refine findSome?_congr fun k hk => ?_
  have hk : k * bpb ≤ s.sb.size :=
    (Nat.mul_le_mul_right _ (Nat.le_of_lt_succ (mem_range.mp hk))).trans (Nat.div_mul_le_self ..)
  have htest : ∀ i ∈ List.range bpb, (decide ((k * bpb + i) % 2 ^ 32 < s.sb.size) &&
      !getBit (s.disk (bblockInt s.sb (k * bpb))) i) =
      (decide (k * bpb + i < s.sb.size) && !s.bit (k * bpb + i)) := by
    intro i hi
    rw [mem_range] at hi
    rw [Nat.mod_eq_of_lt (by omega)]
    by_cases hlt : k * bpb < 2 ^ 31
    · rw [bblockInt_eq h.start_le hlt, Fs.bit_row hi]
    · rw [decide_eq_false (by omega), Bool.false_and, Bool.false_and]
  rw [Function.comp_apply, Option.map_map, freeBit, find?_congr htest]
  rfl

lemma firstFree_some (hs : BitmapFits s.sb) {r : Nat × Nat} (h : firstFree s = some r) :
    r.1 + r.2 < s.sb.size ∧ s.bit (r.1 + r.2) = false ∧ (∀ c < r.1 + r.2, s.bit c = true) ∧
      bblockInt s.sb r.1 = bblock s.sb (r.1 + r.2) ∧ r.2 = (r.1 + r.2) % bpb := by
  have hfind := firstFree_eq hs
  rw [h, Option.map_some, eq_comm, find?_range_eq_some] at hfind
  obtain ⟨hbit, hlt, hleast⟩ := hfind
  rw [mem_range] at hlt
  refine ⟨hlt, by simpa using hbit, fun c hc => by simpa using hleast c hc, ?_⟩
  obtain ⟨k, -, hk⟩ := exists_of_findSome?_eq_some h
  obtain ⟨bi, hbi, rfl⟩ := Option.map_eq_some_iff.mp hk
  rw [freeBit] at hbi
  have hbi : bi < bpb := mem_range.mp (mem_of_find?_eq_some hbi)
  have hsize := hs.size_le
  dsimp only at hlt ⊢
  rw [bblockInt_eq hs.start_le (by omega), bblock_row hbi, mod_row hbi]
  exact ⟨rfl, rfl⟩

lemma firstFree_none (hs : BitmapFits s.sb) (h : firstFree s = none) (hb : b < s.sb.size) :
    s.bit b = true := by
  have hfind := firstFree_eq hs
  rw [h, Option.map_none, eq_comm, find?_eq_none] at hfind
  simpa using hfind b (mem_range.mpr hb)

lemma Layout.bitmapFits {sb : Superblock} (h : Layout sb) : BitmapFits sb := by
  have hlt := h.bblock_lt 0 h.size_pos
  have hle := h.size_lt
  have hm : nmeta sb ≤ sb.size := Nat.sub_le ..
  have h0 : bblock sb 0 = sb.bmapstart := by simp [bblock]
  exact ⟨Nat.le_of_lt h.size_lt, by omega⟩

def ballocDisk (s : Fs) (b : Nat) : Disk :=
  update (update s.disk (bblock s.sb b) (setBit (s.disk (bblock s.sb b)) (b % bpb))) b
    (Bytes.fill bsize 0)

lemma balloc_room {E : String → Prop} (hs : BitmapFits s.sb) (hout : 1 ≤ s.outstanding)
    (hfull : s.logCap ≤ s.logged.length + 1 → E "too big a transaction") :
    Sat balloc s E fun b s' => (b = 0 ∧ s' = s ∧ ∀ c < s.sb.size, s.bit c = true) ∨
      (b < s.sb.size ∧ s.bit b = false ∧ (∀ c < b, s.bit c = true) ∧
        s' = { s with
          disk := ballocDisk s b
          logged := logAbsorb (logAbsorb s.logged (bblock s.sb b)) b }) := by
  unfold balloc
  rw [sat_bind, sat_getState]
  cases hf : firstFree s with
  | none => exact sat_pure.mpr (.inl ⟨rfl, rfl, fun c hc => firstFree_none hs hf hc⟩)
  | some r =>
    obtain ⟨hlt, hbit, hleast, hblk, hmod⟩ := firstFree_some hs hf
    have hsize := hs.size_le
    dsimp only
    rw [Nat.mod_eq_of_lt (a := r.1 + r.2) (by omega), hblk]
    refine (writeBlock_room hout _ _ fun h => hfull (by omega)).bind ?_
    rintro _ s1 rfl
    unfold bzero
    refine Sat.bind (writeBlock_room (by exact hout) (r.1 + r.2) _ fun h => hfull ?_) ?_
    · have hlen := length_logAbsorb_le s.logged (bblock s.sb (r.1 + r.2))
      exact Nat.le_trans h hlen
    · rintro _ s2 rfl
      refine sat_pure.mpr (.inr ⟨hlt, hbit, hleast, ?_⟩)
      rw [ballocDisk, ← hmod]

lemma bfree_room {E : String → Prop} (hout : 1 ≤ s.outstanding) (hbit : s.bit b = true)
    (hfull : s.logCap ≤ s.logged.length → E "too big a transaction") :
    Sat (bfree b) s E fun _ s' => s' = { s with
      disk := update s.disk (bblock s.sb b) (clearBit (s.disk (bblock s.sb b)) (b % bpb)),
      logged := logAbsorb s.logged (bblock s.sb b) } := by
  unfold bfree
  rw [sat_bind, sat_getState, if_neg (by rw [hbit]; decide)]
  exact writeBlock_room hout _ _ hfull

lemma balloc_sat (hl : Layout s.sb) (hout : 1 ≤ s.outstanding) (h : Own s.sb s.disk I L) :
    Sat balloc s E fun b s' => (b = 0 ∧ s' = s ∧ ∀ c < s.sb.size, s.bit c = true) ∨
      (InPool s.sb b ∧ s.bit b = false ∧ Own s.sb s'.disk I (b :: L) ∧
        s' = { s with
          disk := ballocDisk s b, logged := logAbsorb (logAbsorb s.logged (bblock s.sb b)) b }) := by
  refine (balloc_room hl.bitmapFits hout fun _ => E.tooBig).imp ?_
  rintro b s' (hnone | ⟨hlt, hbit, -, rfl⟩)
  · exact .inl hnone
  · obtain ⟨hpool, hown⟩ := h.alloc hl hlt hbit
    exact .inr ⟨hpool, hbit, hown, rfl⟩

/-- The block is loose no more: its bit is clear. -/
lemma bfree_sat (hl : Layout s.sb) (hout : 1 ≤ s.outstanding) (h : Own s.sb s.disk I (b :: L)) :
    Sat (bfree b) s E fun _ s' => Own s.sb s'.disk I L ∧ ∃ lg, s' = { s with
      disk := update s.disk (bblock s.sb b) (clearBit (s.disk (bblock s.sb b)) (b % bpb)),
      logged := lg } := by
  obtain ⟨hbit, hown⟩ := h.free hl
  refine (bfree_room hout hbit fun _ => E.tooBig).imp ?_
  rintro _ s' rfl
  exact ⟨hown, _, rfl⟩

end

end Xv6
