import Xv6.MkfsModel
import Xv6.RootImage

/-! The image that `mkfs` makes. While it is made, every block below `freeblock` has one
owner, and the blocks of a file are mapped just up to its size. -/

namespace Xv6

open List
open Function (update_self update_of_ne update_idem update_eq_self update update_comm)

/-- Exactly the blocks below `n` bytes are mapped. -/
def Maps (disk : Disk) (d : Dinode) (n : Nat) : Prop :=
  ∀ bn < maxfile, slotAddr disk d (slotOf bn) ≠ 0 ↔ bn * bsize < n

section

variable {s s' : Mkfs} {d d' : Dinode} {I : Nat → Dinode} {i j k n off inum : Nat} {p : List UInt8}

lemma usedBits_succ (n : Nat) : usedBits (n + 1) = setBit (usedBits n) n := by
  simp [usedBits, range_succ]

lemma getBit_usedBits (hn : n ≤ bpb) (hj : j < bpb) : getBit (usedBits n) j = decide (j < n) := by
  induction n with
  | zero =>
    have hget : (Bytes.fill bsize 0).get (j / 8) = 0 :=
      Bytes.get_fill 0 (by have hj : j < 8192 := hj; show j / 8 < 1024; omega)
    rw [getBit_eq_testBit]
    change ((Bytes.fill bsize 0).get (j / 8)).toNat.testBit (j % 8) = _
    rw [hget]
    simp
  | succ n ih =>
    rw [usedBits_succ, getBit_setBit _ (by omega), ih (by omega)]
    by_cases hjn : j = n
    · simp [hjn]
    · simp only [hjn, decide_false, Bool.false_or]
      congr 1
      exact propext ⟨fun h => by omega, fun h => by omega⟩

lemma mkfs_bblock (hn : n < bpb) : bblock mkfsSb n = mkfsSb.bmapstart := by
  unfold bblock
  rw [Nat.div_eq_of_lt hn, Nat.zero_add]

namespace Mkfs

lemma image_of_ne (h : n ≠ mkfsSb.bmapstart) : s.image n = s.disk n := update_of_ne h _ _

lemma image_bits : s.image mkfsSb.bmapstart = usedBits s.freeblock := update_self ..

lemma image_wsect {b : Block} (h : n ≠ mkfsSb.bmapstart) :
    (s.wsect n b).image = update s.image n b := by
  unfold image wsect
  exact update_comm h _ _ _

lemma bitOf_image (hs : s.freeblock ≤ bpb) (hn : n < bpb) :
    bitOf mkfsSb s.image n = decide (n < s.freeblock) := by
  rw [bitOf, mkfs_bblock hn, image_bits, Nat.mod_eq_of_lt hn]
  exact getBit_usedBits hs hn

lemma alloc (h : Own mkfsSb s.image I []) (hlt : s.freeblock < fssize)
    (hge : nmeta mkfsSb ≤ s.freeblock) (hz : s.disk s.freeblock = Bytes.fill bsize 0) :
    Own mkfsSb { s with freeblock := s.freeblock + 1 }.image I [s.freeblock] := by
  have hlt' : s.freeblock < 2000 := hlt
  have hge' : 46 ≤ s.freeblock := hge
  have hbpb : s.freeblock < bpb := show s.freeblock < 8192 by omega
  have hbit : bitOf mkfsSb s.image s.freeblock = false := by
    rw [bitOf_image (Nat.le_of_lt hbpb) hbpb]
    simp
  have hown := (h.alloc mkfsSb_layout hlt hbit).2
  have hne : s.freeblock ≠ mkfsSb.bmapstart := show s.freeblock ≠ 45 by omega
  have himage : update (update s.image (bblock mkfsSb s.freeblock)
      (setBit (s.image (bblock mkfsSb s.freeblock)) (s.freeblock % bpb))) s.freeblock
      (Bytes.fill bsize 0) =
      { s with freeblock := s.freeblock + 1 }.image := by
    rw [mkfs_bblock hbpb, Nat.mod_eq_of_lt hbpb, image_bits, ← usedBits_succ, image, update_idem,
      update_comm hne.symm, ← hz, update_eq_self]
    rfl
  rwa [himage] at hown

end Mkfs

structure MkOwn (s : Mkfs) (inum : Nat) (d : Dinode) : Prop where
  own : Own mkfsSb s.image (update s.rinode inum d) []
  zero : ∀ b, s.freeblock ≤ b → s.disk b = Bytes.fill bsize 0
  ge : nmeta mkfsSb ≤ s.freeblock
  lt : inum < mkfsSb.ninodes
  typed : d.type ≠ 0
  others : ∀ i < mkfsSb.ninodes, i ≠ inum → (s.rinode i).type ≠ 0 → Maps s.image (s.rinode i)
    (s.rinode i).size

structure MkSame (s s' : Mkfs) : Prop where
  inodes : ∀ i < mkfsSb.ninodes, s'.rinode i = s.rinode i
  freeinode : s'.freeinode = s.freeinode
  mono : s.freeblock ≤ s'.freeblock

lemma MkSame.refl (s : Mkfs) : MkSame s s := ⟨fun _ _ => rfl, rfl, le_rfl⟩

variable {s1 s2 : Mkfs} {disk disk' : Disk} {m : Nat} {name : List UInt8}

lemma MkSame.trans (h : MkSame s s1) (h' : MkSame s1 s2) : MkSame s s2 :=
  ⟨fun i hi => (h'.inodes i hi).trans (h.inodes i hi), h'.freeinode.trans h.freeinode,
    h.mono.trans h'.mono⟩

namespace Mkfs

lemma rinode_wsect {b : Block} (hn : nmeta mkfsSb ≤ n) (hi : i < mkfsSb.ninodes) :
    (s.wsect n b).rinode i = s.rinode i := by
  have hlt := mkfsSb_layout.iblock_lt i hi
  have hbm := mkfsSb_layout.bmap_meta
  change getDinode (update s.disk n b (iblock mkfsSb i)) _ = _
  rw [update_of_ne (by omega)]
  rfl

lemma grow_same (s : Mkfs) (d : Dinode) (k : Nat) : MkSame s (s.grow d k).1 := by
  unfold grow
  split
  · exact ⟨fun _ _ => rfl, rfl, Nat.le_succ _⟩
  · exact MkSame.refl s

lemma growWord_same {ind : Nat} (hind : nmeta mkfsSb ≤ ind) (j : Nat) :
    MkSame s (s.growWord ind j) := by
  unfold growWord
  split
  · exact ⟨fun _ hi => rinode_wsect hind hi, rfl, Nat.le_succ _⟩
  · exact MkSame.refl s

end Mkfs

lemma mkfs_pool (h : nmeta mkfsSb ≤ n) : n ≠ mkfsSb.bmapstart := by
  have h : 46 ≤ n := h
  change n ≠ 45
  omega

lemma Maps.congr (h : Maps disk d n)
    (hd : d.addrs ndirect ≠ 0 → disk' (d.addrs ndirect) = disk (d.addrs ndirect)) : Maps disk' d n := by
  intro bn hbn
  rw [slotAddr_congr hd]
  exact h bn hbn

lemma Own.inodes_congr {I I' : Nat → Dinode} (h : Own mkfsSb disk I [])
    (hI : ∀ i < mkfsSb.ninodes, (I' i).type = (I i).type ∧
      (I' i).addrs = (I i).addrs) : Own mkfsSb disk I' [] := by
  refine h.congr mkfsSb_layout (fun _ _ => rfl) fun o b => ?_
  unfold Owns
  by_cases ho : o.1 < mkfsSb.ninodes
  · obtain ⟨ht, ha⟩ := hI o.1 ho
    unfold slotAddr
    rw [ht, ha]
  · exact iff_of_false (fun hh => ho hh.1) fun hh => ho hh.1

lemma Own.inodes_update {I I' : Nat → Dinode} (h : Own mkfsSb disk (update I inum d) [])
    (hI : ∀ i < mkfsSb.ninodes, I' i = I i) : Own mkfsSb disk (update I' inum d) [] := by
  refine h.inodes_congr fun i hi => ?_
  by_cases hii : i = inum
  · rw [hii, update_self, update_self]
    exact ⟨rfl, rfl⟩
  · rw [update_of_ne hii, update_of_ne hii, hI i hi]
    exact ⟨rfl, rfl⟩

namespace MkOwn

lemma indirect_pool (h : MkOwn s inum d) (hd : d.addrs ndirect ≠ 0) :
    nmeta mkfsSb ≤ d.addrs ndirect := by
  have hI : update s.rinode inum d inum = d := update_self ..
  have ho : Owns mkfsSb s.image (update s.rinode inum d) (inum, ndirect) _ :=
    owns_indirect h.lt (by rw [hI]; exact h.typed) (by rw [hI]; exact hd)
  rw [hI] at ho
  exact (h.own.owned_pool ho).1

lemma other_owns (_h : MkOwn s inum d) (hi : i < mkfsSb.ninodes) (hne : i ≠ inum)
    (ht : (s.rinode i).type ≠ 0) (ha : (s.rinode i).addrs ndirect ≠ 0) :
    Owns mkfsSb s.image (update s.rinode inum d) (i, ndirect) ((s.rinode i).addrs ndirect) := by
  have hI : update s.rinode inum d i = s.rinode i := update_of_ne hne ..
  have ho : Owns mkfsSb s.image (update s.rinode inum d) (i, ndirect) _ :=
    owns_indirect hi (by rw [hI]; exact ht) (by rw [hI]; exact ha)
  rwa [hI] at ho

variable (h : MkOwn s inum d)
include h

lemma self_owns (hk : slotAddr s.image d k ≠ 0) :
    Owns mkfsSb s.image (update s.rinode inum d) (inum, k) (slotAddr s.image d k) := by
  have hI : update s.rinode inum d inum = d := update_self ..
  refine ⟨h.lt, ?_, ?_, hk⟩
  · change (update s.rinode inum d inum).type ≠ 0
    rw [hI]
    exact h.typed
  · change slotAddr s.image (update s.rinode inum d inum) k = _
    rw [hI]

lemma owned_lt (hfit : s.freeblock ≤ fssize) {o : Nat × Nat}
    (ho : Owns mkfsSb s.image (update s.rinode inum d) o n) : n < s.freeblock := by
  obtain ⟨hp, hf⟩ := h.own.ledger.owned o n ho
  have hn : n < 2000 := hp.2
  have hs : s.freeblock ≤ 2000 := hfit
  by_contra hlt
  refine hf ?_
  rw [Mkfs.bitOf_image (show s.freeblock ≤ 8192 by omega) (show n < 8192 by omega), decide_eq_false hlt]

lemma fresh_slot (k : Nat) :
    slotAddr { s with freeblock := n }.image d k = slotAddr s.image d k := by
  refine slotAddr_congr (fun ha => ?_) k
  rw [Mkfs.image_of_ne (mkfs_pool (h.indirect_pool ha)),
    Mkfs.image_of_ne (mkfs_pool (h.indirect_pool ha))]

lemma fresh_others (hi : i < mkfsSb.ninodes) (hne : i ≠ inum) (ht : (s.rinode i).type ≠ 0) :
    Maps { s with freeblock := n }.image (s.rinode i) (s.rinode i).size := by
  refine (h.others i hi hne ht).congr fun ha => ?_
  have hpool := mkfs_pool (h.own.owned_pool (h.other_owns hi hne ht ha)).1
  rw [Mkfs.image_of_ne hpool, Mkfs.image_of_ne hpool]

lemma grow (hk : k ≤ ndirect) (hfit : (s.grow d k).1.freeblock ≤ fssize) :
    MkOwn (s.grow d k).1 inum (s.grow d k).2 ∧ (s.grow d k).2.addrs k ≠ 0 ∧
    (s.grow d k).2.type = d.type ∧
      ∀ k' ≠ k, slotAddr (s.grow d k).1.image (s.grow d k).2 k' = slotAddr s.image d k' := by
  unfold Mkfs.grow at hfit ⊢
  by_cases h0 : d.addrs k = 0
  · simp only [if_pos h0] at hfit ⊢
    have hlt : s.freeblock < fssize := hfit
    have hI : update s.rinode inum d inum = d := update_self ..
    have hz := h.zero s.freeblock le_rfl
    have hown := Mkfs.alloc h.own hlt h.ge hz
    have hne := mkfs_pool h.ge
    have hzero : { s with freeblock := s.freeblock + 1 }.image s.freeblock = Bytes.fill bsize 0 := by
      rw [Mkfs.image_of_ne hne]
      exact hz
    have hge : 46 ≤ s.freeblock := h.ge
    have hb : s.freeblock < 2 ^ 32 := by
      have hlt : s.freeblock < 2000 := hlt
      omega
    have hatt :=
      hown.attach mkfsSb_layout (i := inum) (k := k) h.lt (by rw [hI]; exact h.typed) hk
        (by rw [hI]; exact h0)
      fun _ => hzero
    rw [hI, update_idem] at hatt
    have hslot :=
      slotAddr_setAddr { s with freeblock := s.freeblock + 1 }.image (d := d) hk hb fun hkd =>
      ⟨hkd ▸ h0, fun j hj => by rw [hzero]; exact getWord_fill_zero hj⟩
    refine ⟨⟨hatt, fun b hb => h.zero b (by change s.freeblock + 1 ≤ b at hb; omega),
      Nat.le_succ_of_le h.ge, h.lt, h.typed,
      fun i hi hne ht => h.fresh_others hi hne ht⟩, ?_, rfl, fun k' hk' => ?_⟩
    · rw [Dinode.setAddr_self d hk hb]
      omega
    · rw [hslot, if_neg hk']
      exact h.fresh_slot k'
  · simp only [if_neg h0] at hfit ⊢
    exact ⟨h, h0, trivial, fun _ _ => trivial⟩

lemma growWord (ha : d.addrs ndirect ≠ 0) (hj : j < nindirect)
    (hfit : (s.growWord (d.addrs ndirect) j).freeblock ≤ fssize) :
    MkOwn (s.growWord (d.addrs ndirect) j) inum d ∧
      slotAddr (s.growWord (d.addrs ndirect) j).image d (ndirect + 1 + j) ≠ 0 ∧
      ∀ k ≠ ndirect + 1 + j,
      slotAddr (s.growWord (d.addrs ndirect) j).image d k = slotAddr s.image d k := by
  have hpool := h.indirect_pool ha
  have hne := mkfs_pool hpool
  unfold Mkfs.growWord at hfit ⊢
  by_cases h0 : getWord (s.disk (d.addrs ndirect)) j = 0
  · simp only [if_pos h0] at hfit ⊢
    have hlt : s.freeblock < fssize := hfit
    have hge : 46 ≤ s.freeblock := h.ge
    have hI : update s.rinode inum d inum = d := update_self ..
    have hown := Mkfs.alloc h.own hlt h.ge (h.zero s.freeblock le_rfl)
    have hdisk : { s with freeblock := s.freeblock + 1 }.image (d.addrs ndirect) = s.disk
      (d.addrs ndirect) := Mkfs.image_of_ne hne
    obtain ⟨hatt, hslot⟩ :=
      hown.attachWord mkfsSb_layout (i := inum) (j := j) h.lt (by rw [hI]; exact h.typed)
      (by rw [hI]; exact ha) hj (by rw [hI, hdisk]; exact h0)
    rw [hI, hdisk] at hatt hslot
    have himage := Mkfs.image_wsect (s := { s with freeblock := s.freeblock + 1 })
      (b := setWord (s.disk (d.addrs ndirect)) j s.freeblock) hne
    rw [← himage] at hatt hslot
    have hind : d.addrs ndirect < s.freeblock := by
      have ho := h.self_owns (k := ndirect) (by rw [slotAddr_of_le le_rfl]; exact ha)
      rw [slotAddr_of_le le_rfl] at ho
      exact h.owned_lt (Nat.le_of_lt hlt) ho
    have hin : ∀ i < mkfsSb.ninodes, ({ s with freeblock := s.freeblock + 1 }.wsect (d.addrs ndirect)
        (setWord (s.disk (d.addrs ndirect)) j s.freeblock)).rinode i = s.rinode i :=
        fun i hi => Mkfs.rinode_wsect hpool hi
    refine ⟨⟨?_, fun b hb => ?_, Nat.le_succ_of_le h.ge, h.lt, h.typed, fun i hi hne' ht => ?_⟩, ?_,
      fun k hk => ?_⟩
    · exact hatt.inodes_update hin
    · change s.freeblock + 1 ≤ b at hb
      change update s.disk _ _ b = _
      rw [update_of_ne (by omega)]
      exact h.zero b (by omega)
    · rw [hin i hi] at ht ⊢
      refine (h.fresh_others (n := s.freeblock + 1) hi hne' ht).congr fun hai => ?_
      rw [himage, update_of_ne]
      intro he
      have h1 := h.other_owns hi hne' ht hai
      have h2 := h.self_owns (k := ndirect) (by rw [slotAddr_of_le le_rfl]; exact ha)
      rw [slotAddr_of_le le_rfl, ← he] at h2
      exact hne' (congrArg Prod.fst (h.own.ledger.single _ _ _ h1 h2))
    · rw [hslot, if_pos rfl]
      omega
    · rw [hslot, if_neg hk]
      exact h.fresh_slot k
  · simp only [if_neg h0] at hfit ⊢
    refine ⟨h, ?_, fun _ _ => trivial⟩
    rw [slotAddr_word _ ha hj, Mkfs.image_of_ne hne]
    exact h0

lemma write {x : Nat} (hk : k ≠ ndirect) (hx : slotAddr s.image d k = x) (h0 : x ≠ 0)
    (hfit : s.freeblock ≤ fssize) (b : Block) : MkOwn (s.wsect x b) inum d ∧ MkSame s (s.wsect x b) ∧
      ∀ k', slotAddr (s.wsect x b).image d k' = slotAddr s.image d k' := by
  have hown := h.self_owns (k := k) (by rw [hx]; exact h0)
  rw [hx] at hown
  have hpool := (h.own.owned_pool hown).1
  have hlt := h.owned_lt hfit hown
  have himage := Mkfs.image_wsect (s := s) (b := b) (mkfs_pool hpool)
  have hin : ∀ i < mkfsSb.ninodes, (s.wsect x b).rinode i = s.rinode i :=
    fun i hi => Mkfs.rinode_wsect hpool hi
  have hdata := (h.own.setData mkfsSb_layout b (.inr ⟨_, hown, hk⟩)).1
  rw [← himage] at hdata
  refine ⟨⟨hdata.inodes_update hin, fun c hc => ?_, h.ge, h.lt, h.typed, fun i hi hne ht => ?_⟩,
    ⟨hin, rfl, le_rfl⟩, fun k' => ?_⟩
  · change s.freeblock ≤ c at hc
    change update s.disk x b c = _
    rw [update_of_ne (by omega)]
    exact h.zero c hc
  · rw [hin i hi] at ht ⊢
    refine (h.others i hi hne ht).congr fun ha => ?_
    rw [himage, update_of_ne]
    intro he
    have h1 := h.other_owns hi hne ht ha
    rw [he] at h1
    exact hne (congrArg Prod.fst (h.own.ledger.single _ _ _ h1 hown))
  · refine slotAddr_congr (fun ha => ?_) k'
    rw [himage, update_of_ne]
    intro he
    have h1 := h.self_owns (k := ndirect) (by rw [slotAddr_of_le le_rfl]; exact ha)
    rw [slotAddr_of_le le_rfl, he] at h1
    exact hk (congrArg Prod.snd (h.own.ledger.single _ _ _ hown h1))

lemma place {fbn : Nat} (hb : fbn < maxfile) (hfit : (s.place d fbn).1.freeblock ≤ fssize) :
    MkOwn (s.place d fbn).1 inum (s.place d fbn).2.1 ∧ MkSame s (s.place d fbn).1 ∧
    (s.place d fbn).2.1.type = d.type ∧ slotAddr (s.place d fbn).1.image (s.place d fbn).2.1
    (slotOf fbn) = (s.place d fbn).2.2 ∧ (s.place d fbn).2.2 ≠ 0 ∧ ∀ bn ≠ fbn,
    slotAddr (s.place d fbn).1.image (s.place d fbn).2.1 (slotOf bn) = slotAddr s.image d
    (slotOf bn) := by
  have hslots : ∀ bn ≠ fbn, slotOf bn ≠ slotOf fbn := fun bn hbn he => hbn (slotOf_inj he)
  unfold Mkfs.place at hfit ⊢
  by_cases hdir : fbn < ndirect
  · have hslot : slotOf fbn = fbn := if_pos hdir
    simp only [if_pos hdir] at hfit ⊢
    obtain ⟨h1, h2, h3, h4⟩ := h.grow (Nat.le_of_lt hdir) hfit
    refine ⟨h1, Mkfs.grow_same s d fbn, h3, ?_, h2, fun bn hbn => h4 _ (hslot ▸ hslots bn hbn)⟩
    rw [hslot, slotAddr_of_le (Nat.le_of_lt hdir)]
  · simp only [if_neg hdir] at hfit ⊢
    have hj : fbn - ndirect < nindirect := by
      have hb : fbn < 12 + 256 := hb
      change fbn - 12 < 256
      omega
    have hslot : slotOf fbn = ndirect + 1 + (fbn - ndirect) := by
      unfold slotOf
      rw [if_neg hdir]
      omega
    have hmono : (s.grow d ndirect).1.freeblock ≤ fssize := by
      refine le_trans ?_ hfit
      unfold Mkfs.growWord
      split
      · exact Nat.le_succ _
      · exact le_rfl
    obtain ⟨h1, h2, h3, h4⟩ := h.grow le_rfl hmono
    obtain ⟨h5, h6, h7⟩ := h1.growWord h2 hj hfit
    have hword :=
      slotAddr_word
        (((s.grow d ndirect).1.growWord ((s.grow d ndirect).2.addrs ndirect)
          (fbn - ndirect)).image) h2 hj
    rw [Mkfs.image_of_ne (mkfs_pool (h1.indirect_pool h2))] at hword
    refine ⟨h5, (Mkfs.grow_same s d ndirect).trans (Mkfs.growWord_same (h1.indirect_pool h2) _), h3,
      ?_, ?_, fun bn hbn => ?_⟩
    · rw [hslot, hword]
    · rw [← hword]
      exact h6
    · rw [h7 _ (hslot ▸ hslots bn hbn), h4 _ (slotOf_ne bn)]

omit h

end MkOwn

namespace Mkfs

lemma place_mono (s : Mkfs) (d : Dinode) (fbn : Nat) : s.freeblock ≤ (s.place d fbn).1.freeblock ∧
    (s.place d fbn).1.freeblock ≤ s.freeblock + 2 := by
  have hg : ∀ k, s.freeblock ≤ (s.grow d k).1.freeblock ∧
    (s.grow d k).1.freeblock ≤ s.freeblock + 1 := by
    intro k
    unfold grow
    split
    · exact ⟨Nat.le_succ _, le_rfl⟩
    · exact ⟨le_rfl, Nat.le_succ _⟩
  have hw : ∀ (s : Mkfs) ind j, s.freeblock ≤ (s.growWord ind j).freeblock ∧
    (s.growWord ind j).freeblock ≤ s.freeblock + 1 := by
    intro s ind j
    unfold growWord
    split
    · exact ⟨Nat.le_succ _, le_rfl⟩
    · exact ⟨le_rfl, Nat.le_succ _⟩
  unfold place
  split
  · exact ⟨(hg _).1, (hg _).2.trans (Nat.le_succ _)⟩
  · have h1 := hg ndirect
    have h2 := hw (s.grow d ndirect).1 ((s.grow d ndirect).2.addrs ndirect) (fbn - ndirect)
    dsimp only
    omega

lemma iappendLoop_mono {fuel : Nat} {r : Mkfs × Dinode × Nat}
    (h : iappendLoop fuel s d off p = some r) : s.freeblock ≤ r.1.freeblock ∧
      r.1.freeblock ≤ s.freeblock + 2 * min p.length
      ((off % bsize + p.length + (bsize - 1)) / bsize) := by
  induction fuel generalizing s d off p with
  | zero =>
    rw [iappendLoop] at h
    split at h
    · cases h
      exact ⟨le_rfl, Nat.le_add_right _ _⟩
    · cases h
  | succ fuel ih =>
    rw [iappendLoop] at h
    split at h
    · cases h
      exact ⟨le_rfl, Nat.le_add_right _ _⟩
    next hp =>
      split at h
      next hb =>
        obtain ⟨h1, h2⟩ := ih h
        obtain ⟨h3, h4⟩ := place_mono s d (off / bsize)
        have hpos : 0 < p.length := length_pos_iff.mpr hp
        change (s.place d (off / bsize)).1.freeblock ≤ _ at h1
        change r.1.freeblock ≤ (s.place d (off / bsize)).1.freeblock + _ at h2
        refine ⟨h3.trans h1, ?_⟩
        rw [length_drop] at h2
        simp only [bsize] at h2 h3 h4 ⊢
        omega
      next => cases h

lemma iappendLoop_some (fuel : Nat) (hlen : p.length ≤ fuel)
    (hsize : off + p.length ≤ maxfile * bsize) : ∃ r, iappendLoop fuel s d off p = some r := by
  induction fuel generalizing s d off p with
  | zero =>
    have hp : p = [] := eq_nil_of_length_eq_zero (by omega)
    exact ⟨_, by rw [iappendLoop, if_pos hp]⟩
  | succ fuel ih =>
    rw [iappendLoop]
    by_cases hp : p = []
    · exact ⟨_, if_pos hp⟩
    · have hpos : 0 < p.length := length_pos_iff.mpr hp
      have hb : off / bsize < maxfile := by
        simp only [bsize, maxfile, ndirect, nindirect] at hsize ⊢
        omega
      rw [if_neg hp, if_pos hb]
      refine ih ?_ ?_
      · rw [length_drop]
        simp only [bsize]
        omega
      · rw [length_drop]
        simp only [bsize] at hsize ⊢
        omega

end Mkfs

lemma Maps.extend (hm : Maps disk d off) (hn : 0 < n)
    (h : slotAddr disk' d' (slotOf (off / bsize)) ≠ 0)
    (hrest : ∀ bn ≠ off / bsize, slotAddr disk' d' (slotOf bn) = slotAddr disk d (slotOf bn)) :
    Maps disk' d' (off + min n ((off / bsize + 1) * bsize - off)) := by
  intro bn hbn
  by_cases hbf : bn = off / bsize
  · rw [hbf]
    refine iff_of_true h ?_
    simp only [bsize]
    omega
  · rw [hrest bn hbf, hm bn hbn]
    simp only [bsize] at hbf ⊢
    omega

lemma MkOwn.round {d1 : Dinode} {x : Nat} (h : MkOwn s inum d) (hm : Maps s.image d off)
    (hle : off ≤ maxfile * bsize)
    (hpos : 0 < p.length) (hb : off / bsize < maxfile) (hpl : s.place d (off / bsize) = (s1, d1, x))
    (hfit : s1.freeblock ≤ fssize) (blk : Block) : MkOwn (s1.wsect x blk) inum d1 ∧
      Maps (s1.wsect x blk).image d1 (off + min p.length ((off / bsize + 1) * bsize - off)) ∧
      MkSame s (s1.wsect x blk) ∧
      d1.type = d.type ∧ off + min p.length ((off / bsize + 1) * bsize - off) ≤ maxfile * bsize := by
  have hplace := h.place hb (by rw [hpl]; exact hfit)
  rw [hpl] at hplace
  obtain ⟨h1, h2, h3, h4, h5, h6⟩ := hplace
  obtain ⟨h7, h8, h9⟩ := h1.write (slotOf_ne _) h4 h5 hfit blk
  refine ⟨h7, hm.extend hpos (by rw [h9, h4]; exact h5) fun bn hbn => by rw [h9, h6 bn hbn],
    h2.trans h8, h3, ?_⟩
  have hb' : off / 1024 < 268 := hb
  simp only [bsize, maxfile, ndirect, nindirect] at hle ⊢
  omega

lemma MkOwn.loop {fuel off' : Nat} (h : MkOwn s inum d) (hm : Maps s.image d off)
    (hle : off ≤ maxfile * bsize)
    (hl : Mkfs.iappendLoop fuel s d off p = some (s', d', off')) (hfit : s'.freeblock ≤ fssize) :
    MkOwn s' inum d' ∧ Maps s'.image d' off' ∧ MkSame s s' ∧ d'.type = d.type ∧
    off' = off + p.length ∧ off' ≤ maxfile * bsize := by
  induction fuel generalizing s d off p with
  | zero =>
    rw [Mkfs.iappendLoop] at hl
    split at hl
    next hp =>
      cases hl
      exact ⟨h, hm, MkSame.refl _, rfl, by rw [hp]; rfl, hle⟩
    next => cases hl
  | succ fuel ih =>
    rw [Mkfs.iappendLoop] at hl
    split at hl
    next hp =>
      cases hl
      exact ⟨h, hm, MkSame.refl _, rfl, by rw [hp]; rfl, hle⟩
    next hp =>
      split at hl
      next hb =>
        have hpos : 0 < p.length := length_pos_iff.mpr hp
        have hmono := (Mkfs.iappendLoop_mono hl).1
        change (s.place d (off / bsize)).1.freeblock ≤ s'.freeblock at hmono
        obtain ⟨h7, h8, h9, h3, hle'⟩ := h.round hm hle hpos hb rfl (hmono.trans hfit)
          (((s.place d (off / bsize)).1.disk (s.place d (off / bsize)).2.2).patch
            (off - off / bsize * bsize) (p.take (min p.length ((off / bsize + 1) * bsize - off))))
        obtain ⟨h10, h11, h12, h13, h14, h15⟩ := ih h7 h8 hle' hl
        refine ⟨h10, h11, h9.trans h12, h13.trans h3, ?_, h15⟩
        rw [h14, length_drop]
        simp only [bsize]
        omega
      next => cases hl

lemma Mkfs.rinode_winode (s : Mkfs) (d : Dinode) (i j : Nat) :
    (s.winode i d).rinode j = if j = i then d else s.rinode j := by
  change getDinode
    (update s.disk (iblock mkfsSb i) (setDinode (s.disk (iblock mkfsSb i)) (i % ipb) d)
      (iblock mkfsSb j))
    (j % ipb) = _
  by_cases hji : j = i
  · rw [hji, update_self, if_pos rfl, getDinode_setDinode_self _ _ (Nat.mod_lt _ (by decide))]
  · rw [if_neg hji]
    by_cases hb : iblock mkfsSb j = iblock mkfsSb i
    · have hmod : j % ipb ≠ i % ipb := by
        simp only [iblock, ipb, bsize] at hb ⊢
        omega
      rw [hb, update_self, getDinode_setDinode_of_ne _ _ hmod, Mkfs.rinode, hb]
    · rw [update_of_ne hb]
      rfl

/-- What holds between the calls of `mkfs`. -/
structure MkInv (s : Mkfs) : Prop where
  own : Own mkfsSb s.image s.rinode []
  zero : ∀ b, s.freeblock ≤ b → s.disk b = Bytes.fill bsize 0
  ge : nmeta mkfsSb ≤ s.freeblock
  free : ∀ i < mkfsSb.ninodes, s.freeinode ≤ i → (s.rinode i).type = 0
  maps : ∀ i < mkfsSb.ninodes, (s.rinode i).type ≠ 0 →
    Maps s.image (s.rinode i) (s.rinode i).size ∧ (s.rinode i).size ≤ maxfile * bsize

lemma MkInv.own_self (h : MkInv s) (hi : inum < mkfsSb.ninodes) (ht : (s.rinode inum).type ≠ 0) :
    MkOwn s inum (s.rinode inum) := by
  refine ⟨?_, h.zero, h.ge, hi, ht, fun i hi _ ht => (h.maps i hi ht).1⟩
  rw [update_eq_self]
  exact h.own

lemma MkOwn.written (h : MkOwn s inum d) (v : Nat) :
    Own mkfsSb (s.winode inum (d.setSize v)).image (s.winode inum (d.setSize v)).rinode [] ∧
      ∀ x, nmeta mkfsSb ≤ x → (s.winode inum (d.setSize v)).image x = s.image x := by
  have hlt := mkfsSb_layout.iblock_lt inum h.lt
  have hbm := mkfsSb_layout.bmap_meta
  have himage : (s.winode inum (d.setSize v)).image = update s.image (iblock mkfsSb inum) _ :=
    Mkfs.image_wsect (Nat.ne_of_lt hlt)
  rw [himage]
  refine ⟨(h.own.setMeta mkfsSb_layout _ hlt).inodes_congr fun i _ => ?_, fun x hx =>
    update_of_ne (by omega) _ _⟩
  rw [Mkfs.rinode_winode]
  by_cases hii : i = inum
  · rw [if_pos hii, hii, update_self]
    exact ⟨rfl, rfl⟩
  · rw [if_neg hii, update_of_ne hii]
    exact ⟨rfl, rfl⟩

lemma MkOwn.winode (h : MkOwn s inum d) (hm : Maps s.image d n) (hn : n ≤ maxfile * bsize)
    (hfree : ∀ i < mkfsSb.ninodes, s.freeinode ≤ i → i ≠ inum ∧ (s.rinode i).type = 0)
    (hle : ∀ i < mkfsSb.ninodes, i ≠ inum → (s.rinode i).type ≠ 0 →
      (s.rinode i).size ≤ maxfile * bsize) :
    MkInv (s.winode inum (d.setSize n)) := by
  have hlt := mkfsSb_layout.iblock_lt inum h.lt
  have hbm := mkfsSb_layout.bmap_meta
  have hsize : (d.setSize n).size = n := by
    refine Nat.mod_eq_of_lt (lt_of_le_of_lt hn ?_)
    decide
  obtain ⟨hown, hsame⟩ := h.written n
  refine ⟨hown, fun b hb => ?_, h.ge, fun i hi hf => ?_, fun i hi ht => ?_⟩
  · have hge := h.ge
    change s.freeblock ≤ b at hb
    change update s.disk (iblock mkfsSb inum) _ b = _
    rw [update_of_ne (by omega)]
    exact h.zero b hb
  · obtain ⟨hne, ht⟩ := hfree i hi hf
    rw [Mkfs.rinode_winode, if_neg hne]
    exact ht
  · rw [Mkfs.rinode_winode] at ht ⊢
    by_cases hii : i = inum
    · rw [if_pos hii, hsize]
      exact ⟨hm.congr fun ha => hsame _ (h.indirect_pool ha), hn⟩
    · rw [if_neg hii] at ht ⊢
      exact ⟨(h.others i hi hii ht).congr fun ha =>
        hsame _ (h.own.owned_pool (h.other_owns hi hii ht ha)).1, hle i hi hii ht⟩

structure Appended (s s' : Mkfs) (inum n : Nat) : Prop where
  inv : MkInv s'
  freeinode : s'.freeinode = s.freeinode
  size : (s'.rinode inum).size = (s.rinode inum).size + n
  type : (s'.rinode inum).type = (s.rinode inum).type
  others : ∀ i < mkfsSb.ninodes, i ≠ inum → s'.rinode i = s.rinode i

lemma MkInv.iappend (h : MkInv s) (hi : inum < mkfsSb.ninodes) (ht : (s.rinode inum).type ≠ 0)
    (hr : s.iappend inum p = some s') (hfit : s'.freeblock ≤ fssize) : Appended s s' inum p.length := by
  unfold Mkfs.iappend at hr
  split at hr
  next s1 d1 off1 hl =>
    cases hr
    obtain ⟨hm, hle⟩ := h.maps inum hi ht
    obtain ⟨h1, h2, h3, h4, h5, h6⟩ := (h.own_self hi ht).loop hm hle hl hfit
    have hlt : inum < s.freeinode := by
      by_contra hge
      exact ht (h.free inum hi (by omega))
    have hinv : MkInv (s1.winode inum (d1.setSize off1)) := by
      refine h1.winode h2 h6 (fun i hi hf => ?_) fun i hi _ ht => ?_
      · rw [h3.freeinode] at hf
        rw [h3.inodes i hi]
        exact ⟨by omega, h.free i hi hf⟩
      · rw [h3.inodes i hi] at ht ⊢
        exact (h.maps i hi ht).2
    refine ⟨hinv, h3.freeinode, ?_, ?_, fun i hi hne => ?_⟩
    · rw [Mkfs.rinode_winode, if_pos rfl]
      refine (Nat.mod_eq_of_lt (lt_of_le_of_lt h6 ?_)).trans h5
      decide
    · rw [Mkfs.rinode_winode, if_pos rfl]
      exact h4
    · rw [Mkfs.rinode_winode, if_neg hne]
      exact h3.inodes i hi
  next => cases hr

lemma Mkfs.iappend_mono (hr : s.iappend inum p = some s') : s.freeblock ≤ s'.freeblock ∧
    s'.freeblock ≤ s.freeblock + 2 * min p.length
    (((s.rinode inum).size % bsize + p.length + (bsize - 1)) / bsize) := by
  unfold Mkfs.iappend at hr
  split at hr
  next s1 d1 off1 hl =>
    cases hr
    exact iappendLoop_mono hl
  next => cases hr

lemma Mkfs.iappend_some (hsize : (s.rinode inum).size + p.length ≤ maxfile * bsize) :
    ∃ s', s.iappend inum p = some s' := by
  obtain ⟨⟨s1, d1, off1⟩, hl⟩ := iappendLoop_some (s := s) (d := s.rinode inum) p.length le_rfl hsize
  exact ⟨s1.winode inum (d1.setSize off1), by unfold Mkfs.iappend; rw [hl]⟩

lemma slotAddr_none (h : ∀ k, d.addrs k = 0) (k : Nat) : slotAddr disk d k = 0 := by
  unfold slotAddr
  split
  · exact h k
  · exact if_pos (Or.inl (h ndirect))

lemma MkInv.ialloc (type : Nat) (h : MkInv s) (hlt : s.freeinode < mkfsSb.ninodes)
    (ht : type % 2 ^ 16 ≠ 0) :
    MkInv (s.ialloc type).1 ∧ (∀ i, i ≠ s.freeinode → (s.ialloc type).1.rinode i = s.rinode i) ∧
      ((s.ialloc type).1.rinode s.freeinode).type = type % 2 ^ 16 ∧
      ((s.ialloc type).1.rinode s.freeinode).size = 0 := by
  have haddrs : ∀ k, ((Dinode.zero.setType type).setNlink 1).addrs k = 0 := fun _ => rfl
  have hgone : ∀ o b,
    Owns mkfsSb s.image (update s.rinode s.freeinode ((Dinode.zero.setType type).setNlink 1)) o b ↔
      Owns mkfsSb s.image s.rinode o b := by
    intro o b
    by_cases ho : o.1 = s.freeinode
    · unfold Owns
      rw [ho, update_self]
      refine iff_of_false (fun hh => ?_) fun hh => hh.2.1 (h.free _ hlt le_rfl)
      rw [slotAddr_none haddrs] at hh
      exact hh.2.2.2 hh.2.2.1.symm
    · exact owns_update_ne ho b
  have hown : MkOwn { s with freeinode := s.freeinode + 1 } s.freeinode
    ((Dinode.zero.setType type).setNlink 1) :=
    ⟨h.own.congr mkfsSb_layout (fun _ _ => rfl) hgone, h.zero, h.ge, hlt, ht, fun i hi _ ht =>
      (h.maps i hi ht).1⟩
  refine ⟨hown.winode (n := 0) (fun bn _ => ?_) (Nat.zero_le _) (fun i hi hf => ?_)
    (fun i hi _ ht => (h.maps i hi ht).2), fun i hi => ?_, ?_, ?_⟩
  · rw [slotAddr_none haddrs]
    exact iff_of_false (fun hh => hh rfl) (Nat.not_lt_zero _)
  · change s.freeinode + 1 ≤ i at hf
    exact ⟨by omega, h.free i hi (by omega)⟩
  · exact (Mkfs.rinode_winode _ _ _ _).trans (if_neg hi)
  · rw [Mkfs.ialloc, Mkfs.rinode_winode, if_pos rfl]
    rfl
  · rw [Mkfs.ialloc, Mkfs.rinode_winode, if_pos rfl]
    rfl

lemma Appended.refl (h : MkInv s) : Appended s s inum 0 := ⟨h, rfl, rfl, rfl, fun _ _ _ => rfl⟩

lemma Appended.trans (h : Appended s s1 inum n) (h' : Appended s1 s2 inum m) :
    Appended s s2 inum (n + m) :=
  ⟨h'.inv, h'.freeinode.trans h.freeinode, by rw [h'.size, h.size, Nat.add_assoc],
    h'.type.trans h.type, fun i hi hne => (h'.others i hi hne).trans (h.others i hi hne)⟩

lemma reads_mono {reads : List (List UInt8)}
    (hr : reads.foldlM (fun s p => s.iappend inum p) s = some s') : s.freeblock ≤ s'.freeblock := by
  induction reads generalizing s with
  | nil =>
    cases hr
    exact le_rfl
  | cons p ps ih =>
    rw [foldlM_cons] at hr
    obtain ⟨s1, h1, h2⟩ := Option.bind_eq_some_iff.mp hr
    exact (Mkfs.iappend_mono h1).1.trans (ih h2)

lemma MkInv.reads {reads : List (List UInt8)} (h : MkInv s) (hi : inum < mkfsSb.ninodes)
    (ht : (s.rinode inum).type ≠ 0)
    (hr : reads.foldlM (fun s p => s.iappend inum p) s = some s') (hfit : s'.freeblock ≤ fssize) :
    Appended s s' inum (reads.map List.length).sum := by
  induction reads generalizing s with
  | nil =>
    cases hr
    exact Appended.refl h
  | cons p ps ih =>
    rw [foldlM_cons] at hr
    obtain ⟨s1, h1, h2⟩ := Option.bind_eq_some_iff.mp hr
    have happ := h.iappend hi ht h1 ((reads_mono h2).trans hfit)
    exact happ.trans (ih happ.inv (by rw [happ.type]; exact ht) h2)

/-- The image after `n` files. -/
structure RootOf (s : Mkfs) (n : Nat) : Prop where
  inv : MkInv s
  next : s.freeinode = n + 2
  type : (s.rinode rootino).type = tDir
  size : (s.rinode rootino).size = 16 * (n + 2)

lemma RootOf.root_ne (h : RootOf s n) : rootino ≠ s.freeinode := by
  rw [h.next]
  change 1 ≠ n + 2
  omega

lemma RootOf.entry (h : RootOf s n) (hn : n + 2 < mkfsSb.ninodes)
    (hr : (s.ialloc tFile).1.iappend rootino (putDirent (s.ialloc tFile).2 name) = some s')
    (hfit : s'.freeblock ≤ fssize) :
    RootOf s' (n + 1) ∧ (s'.rinode s.freeinode).type = tFile := by
  have hlt : s.freeinode < mkfsSb.ninodes := by rw [h.next]; exact hn
  obtain ⟨h1, h2, h3, -⟩ := h.inv.ialloc tFile hlt (by decide)
  have hne := h.root_ne
  have hroot := h2 rootino hne
  have happ := h1.iappend (by decide) (by rw [hroot, h.type]; decide) hr hfit
  rw [putDirent_length] at happ
  refine ⟨⟨happ.inv, ?_, ?_, ?_⟩, ?_⟩
  · rw [happ.freeinode]
    change s.freeinode + 1 = _
    rw [h.next]
  · rw [happ.type, hroot, h.type]
  · rw [happ.size, hroot, h.size]
    omega
  · rw [happ.others _ hlt (Ne.symm hne), h3]
    rfl

lemma RootOf.addFile {f : MkfsFile} (h : RootOf s n) (hn : n + 2 < mkfsSb.ninodes)
    (hr : s.addFile f = some s') (hfit : s'.freeblock ≤ fssize) : RootOf s' (n + 1) := by
  unfold Mkfs.addFile at hr
  split at hr
  · cases hr
  · obtain ⟨s1, h1, h2⟩ := Option.bind_eq_some_iff.mp hr
    obtain ⟨hroot, htype⟩ := h.entry hn h1 ((reads_mono h2).trans hfit)
    have hlt : s.freeinode < mkfsSb.ninodes := by rw [h.next]; exact hn
    have hne := h.root_ne
    have happ := hroot.inv.reads hlt (by rw [htype]; decide) h2 hfit
    have hkeep := happ.others rootino (by decide) hne
    exact ⟨happ.inv, happ.freeinode.trans hroot.next, by rw [hkeep]; exact hroot.type,
      by rw [hkeep]; exact hroot.size⟩

lemma addFile_mono {f : MkfsFile} (hr : s.addFile f = some s') : s.freeblock ≤ s'.freeblock := by
  unfold Mkfs.addFile at hr
  split at hr
  · cases hr
  · obtain ⟨s1, h1, h2⟩ := Option.bind_eq_some_iff.mp hr
    exact (Mkfs.iappend_mono h1).1.trans (reads_mono h2)

lemma files_mono {files : List MkfsFile} (hr : files.foldlM Mkfs.addFile s = some s') :
    s.freeblock ≤ s'.freeblock := by
  induction files generalizing s with
  | nil =>
    cases hr
    exact le_rfl
  | cons f fs ih =>
    rw [foldlM_cons] at hr
    obtain ⟨s1, h1, h2⟩ := Option.bind_eq_some_iff.mp hr
    exact (addFile_mono h1).trans (ih h2)

lemma RootOf.files {files : List MkfsFile} (h : RootOf s n)
    (hn : n + 2 + files.length ≤ mkfsSb.ninodes) (hr : files.foldlM Mkfs.addFile s = some s')
    (hfit : s'.freeblock ≤ fssize) : RootOf s' (n + files.length) := by
  induction files generalizing s n with
  | nil =>
    cases hr
    exact h
  | cons f fs ih =>
    rw [foldlM_cons] at hr
    obtain ⟨s1, h1, h2⟩ := Option.bind_eq_some_iff.mp hr
    rw [length_cons] at hn ⊢
    have h' := ih (h.addFile (by omega) h1 ((files_mono h2).trans hfit)) (by omega) h2
    rwa [Nat.add_assoc, Nat.add_comm 1] at h'

lemma start_free (hi : i < mkfsSb.ninodes) : (Mkfs.start.rinode i).type = 0 := by
  have hi : i < 200 := hi
  change (getDinode (update (fun _ => Bytes.fill bsize 0) 1 (sbBlock mkfsSb) (i / 16 + 32))
    (i % 16)).type = 0
  rw [update_of_ne (by omega)]
  exact getDinode_zero_type (Nat.mod_lt _ (by decide))

lemma start_inv : MkInv Mkfs.start where
  own := by
    have hno : ∀ o b, ¬ Owns mkfsSb Mkfs.start.image Mkfs.start.rinode o b :=
      fun o b ho => ho.2.1 (start_free ho.1)
    have hbit : ∀ b, b < bpb → bitOf mkfsSb Mkfs.start.image b = decide (b < nmeta mkfsSb) :=
      fun b hb =>
      Mkfs.bitOf_image (s := Mkfs.start) (by decide) hb
    refine ⟨⟨fun b hb => .inl ?_, fun o b ho => absurd ho (hno o b), fun o _ b ho =>
      absurd ho (hno o b), fun b hb => absurd hb not_mem_nil, fun b hb => absurd hb not_mem_nil,
        nodup_nil⟩, fun b hb _ => hbit b ?_⟩
    · have hlt : b < 2000 := hb.2
      rw [hbit b (show b < 8192 by omega)]
      exact decide_eq_false (Nat.not_lt.mpr hb.1)
    · have hb : b / 8192 + 45 < 46 := hb
      change b < 8192
      omega
  zero := fun b hb => by
    have hb : 46 ≤ b := hb
    change update (fun _ => Bytes.fill bsize 0) 1 (sbBlock mkfsSb) b = _
    rw [update_of_ne (by omega)]
  ge := le_rfl
  free := fun i hi _ => start_free hi
  maps := fun i hi ht => absurd (start_free hi) ht

lemma Mkfs.entry_blocks (hr : s.iappend inum (putDirent m name) = some s') :
    s'.freeblock ≤ s.freeblock + 4 := by
  have h := (iappend_mono hr).2
  rw [putDirent_length] at h
  simp only [bsize] at h
  omega

lemma addFiles_root : ∃ s, RootOf s 0 ∧ s.freeblock ≤ nmeta mkfsSb + 8 ∧
    ∀ files, Mkfs.addFiles files = files.foldlM Mkfs.addFile s := by
  obtain ⟨h1, -, h2, h3⟩ := start_inv.ialloc tDir (by decide) (by decide)
  change ((Mkfs.start.ialloc tDir).1.rinode rootino).type = tDir at h2
  change ((Mkfs.start.ialloc tDir).1.rinode rootino).size = 0 at h3
  have hroom1 : ((Mkfs.start.ialloc tDir).1.rinode rootino).size + (putDirent rootino dot).length ≤
    maxfile * bsize := by
    rw [h3, putDirent_length]
    decide
  obtain ⟨s1, hs1⟩ := Mkfs.iappend_some hroom1
  have hb1 := Mkfs.entry_blocks hs1
  have hstart : (Mkfs.start.ialloc tDir).1.freeblock = nmeta mkfsSb := rfl
  have hmeta : nmeta mkfsSb = 46 := rfl
  have hsize : fssize = 2000 := rfl
  have a1 := h1.iappend (by decide) (by rw [h2]; decide) hs1 (by omega)
  rw [putDirent_length] at a1
  have hroom2 : (s1.rinode rootino).size + (putDirent rootino dotdot).length ≤ maxfile * bsize := by
    rw [a1.size, h3, putDirent_length]
    decide
  obtain ⟨s2, hs2⟩ := Mkfs.iappend_some hroom2
  have hb2 := Mkfs.entry_blocks hs2
  have a2 := a1.inv.iappend (by decide) (by rw [a1.type, h2]; decide) hs2 (by omega)
  rw [putDirent_length] at a2
  refine ⟨s2, ⟨a2.inv, ?_, ?_, ?_⟩, by omega, fun files => ?_⟩
  · rw [a2.freeinode, a1.freeinode]
    rfl
  · rw [a2.type, a1.type, h2]
  · rw [a2.size, a1.size, h3]
  · unfold Mkfs.addFiles
    rw [if_neg (fun h => h rfl), hs1]
    change (s1.iappend rootino (putDirent rootino dotdot)).bind _ = _
    rw [hs2]
    rfl

def emptyFiles (n : Nat) : List MkfsFile := (List.range n).map fun i => ⟨[UInt8.ofNat (97 + i)], []⟩

lemma RootOf.addEmpty {path : List UInt8} (h : RootOf s n) (hn : n + 2 < mkfsSb.ninodes)
    (hslash : slash ∉ Mkfs.baseName path) : ∃ s', s.addFile ⟨path, []⟩ = some s' ∧
    s'.freeblock ≤ s.freeblock + 4 := by
  have hlt : s.freeinode < mkfsSb.ninodes := by rw [h.next]; exact hn
  obtain ⟨-, h2, -⟩ := h.inv.ialloc tFile hlt (by decide)
  have hne := h.root_ne
  have hroom :
    ((s.ialloc tFile).1.rinode rootino).size +
    (putDirent (s.ialloc tFile).2 (Mkfs.shortName path)).length ≤ maxfile * bsize := by
    have hn : n + 2 < 200 := hn
    rw [h2 rootino hne, h.size, putDirent_length]
    simp only [maxfile, ndirect, nindirect, bsize]
    omega
  obtain ⟨s1, hs1⟩ := Mkfs.iappend_some hroom
  have hblocks := Mkfs.entry_blocks hs1
  have hsame : (s.ialloc tFile).1.freeblock = s.freeblock := rfl
  rw [hsame] at hblocks
  refine ⟨s1, ?_, hblocks⟩
  simp only [Mkfs.addFile, if_neg hslash, hs1, Option.bind_eq_bind, Option.bind_some, foldlM_nil,
    Option.pure_def]

lemma RootOf.addEmptyFiles {files : List MkfsFile} (h : RootOf s n)
    (hn : n + 2 + files.length ≤ mkfsSb.ninodes) (hb : s.freeblock ≤ nmeta mkfsSb + 4 * (n + 2))
    (hf : ∀ f ∈ files, slash ∉ Mkfs.baseName f.path ∧ f.reads = []) :
    ∃ s', files.foldlM Mkfs.addFile s = some s' ∧
    s'.freeblock ≤ nmeta mkfsSb + 4 * (n + 2 + files.length) := by
  have hmeta : nmeta mkfsSb = 46 := rfl
  have hsize : fssize = 2000 := rfl
  have hinodes : mkfsSb.ninodes = 200 := rfl
  induction files generalizing s n with
  | nil => exact ⟨s, rfl, hb⟩
  | cons f fs ih =>
    rw [length_cons] at hn
    obtain ⟨hslash, hreads⟩ := hf f mem_cons_self
    obtain ⟨s1, hs1, hb1⟩ := h.addEmpty (by omega) hslash
    have hf1 : s.addFile f = some s1 := by
      rw [← hs1, ← hreads]
    obtain ⟨s2, hs2, hb2⟩ := ih (h.addFile (by omega) hf1 (by omega)) (by omega) (by omega)
      fun g hg => hf g (mem_cons_of_mem _ hg)
    refine ⟨s2, ?_, by rw [length_cons]; omega⟩
    rw [foldlM_cons, hf1]
    exact hs2

lemma Own.blocksOwned (h : Own mkfsSb disk (mount mkfsSb disk).dinode []) :
    BlocksOwned (mount mkfsSb disk) := by
  refine ⟨h.ledger.single, fun o b ho => h.owned_pool ho, fun b hb => ?_⟩
  change bitOf mkfsSb disk b = true ↔ _
  by_cases hp : InPool mkfsSb b
  · have hge : ¬ b < nmeta mkfsSb := Nat.not_lt.mpr hp.1
    constructor
    · intro ht
      rcases h.ledger.total b hp with hf | hl | ho
      · rw [ht] at hf
        cases hf
      · cases hl
      · exact .inr ho
    · rintro (hlt | ⟨o, ho⟩)
      · exact absurd hlt hge
      · exact Bool.not_eq_false _ ▸ (h.ledger.owned o b ho).2
  · rw [h.rest b hb hp, decide_eq_true_eq]
    exact ⟨.inl, fun hh => hh.elim id fun ⟨o, ho⟩ => absurd (h.owned_pool ho) hp⟩

lemma Mkfs.finish_blocks (hr : s.finish = some s') : s'.freeblock = s.freeblock := by
  unfold Mkfs.finish at hr
  dsimp only at hr
  split at hr
  · cases hr
    rfl
  · cases hr

lemma RootOf.finish (h : RootOf s n) (hr : s.finish = some s') :
    s'.disk =
    (s.winode rootino ((s.rinode rootino).setSize ((16 * (n + 2) / bsize + 1) * bsize))).image := by
  unfold Mkfs.finish at hr
  dsimp only at hr
  split at hr
  · cases hr
    rw [h.size]
    rfl
  · cases hr

lemma Maps.solid_iff (hm : Maps disk d n) (hle : d.size ≤ maxfile * bsize) :
    Solid disk d ↔ ∀ bn, bn * bsize < d.size → bn * bsize < n := by
  have hmapped : ∀ bn, bn * bsize < d.size →
      (fileBlock disk d bn ≠ none ↔ bn * bsize < n) := by
    intro bn hbn
    rw [← hm bn (Nat.lt_of_mul_lt_mul_right (lt_of_lt_of_le hbn hle)), fileBlock]
    split_ifs with h0
    · simp [h0]
    · simp [h0]
  exact ⟨fun h bn hbn => (hmapped bn hbn).mp (h.mapped bn hbn),
    fun h => ⟨hle, fun bn hbn => (hmapped bn hbn).mpr (h bn hbn)⟩⟩

lemma RootOf.dinodes (h : RootOf s n) (hr : s.finish = some s') (hi : i < mkfsSb.ninodes) :
    (mount mkfsSb s'.disk).dinode i =
    (s.winode rootino ((s.rinode rootino).setSize ((16 * (n + 2) / bsize + 1) * bsize))).rinode i := by
  have hlt := mkfsSb_layout.iblock_lt i hi
  change getDinode (s'.disk (iblock mkfsSb i)) _ = _
  rw [h.finish hr, Mkfs.image_of_ne (Nat.ne_of_lt hlt)]
  rfl

lemma RootOf.rootMaps (h : RootOf s n) (hr : s.finish = some s') (hn : n + 2 ≤ mkfsSb.ninodes) :
    Maps s'.disk ((mount mkfsSb s'.disk).dinode rootino) (16 * (n + 2)) ∧
      ((mount mkfsSb s'.disk).dinode rootino).size = (16 * (n + 2) / bsize + 1) * bsize ∧
      ((mount mkfsSb s'.disk).dinode rootino).type = tDir := by
  have hroot : (s.rinode rootino).type ≠ 0 := by rw [h.type]; decide
  have hown := h.inv.own_self (by decide) hroot
  have hm := (h.inv.maps rootino (by decide) hroot).1
  rw [h.size] at hm
  rw [h.dinodes hr (by decide), Mkfs.rinode_winode, if_pos rfl, h.finish hr]
  refine ⟨Maps.congr (d := (s.rinode rootino).setSize _) (fun bn hbn => hm bn hbn) fun ha => ?_,
    Nat.mod_eq_of_lt ?_, h.type⟩
  · exact (hown.written _).2 _ (hown.indirect_pool ha)
  · have hn : n + 2 ≤ 200 := hn
    simp only [bsize]
    omega

lemma RootOf.rootSolid (h : RootOf s n) (hr : s.finish = some s') (hn : n + 2 ≤ mkfsSb.ninodes) :
    Solid s'.disk ((mount mkfsSb s'.disk).dinode rootino) ↔ (n + 2) * 16 % bsize ≠ 0 := by
  obtain ⟨hm, hsz, -⟩ := h.rootMaps hr hn
  have hn : n + 2 ≤ 200 := hn
  rw [hm.solid_iff (by rw [hsz]; simp only [bsize, maxfile, ndirect, nindirect]; omega), hsz]
  simp only [bsize]
  constructor
  · intro hall
    have hlast := hall (16 * (n + 2) / 1024) (by omega)
    omega
  · intro hround bn hbn
    omega

/-- The image of any files that fit has the kernel's layout, one owner for each block and the
bitmap of the blocks in use. Its inodes have no holes exactly if the entries of the root
directory do not fill its blocks. -/
theorem mkfs_image_wellformed {files : List MkfsFile}
    (hcount : files.length ≤ mkfsSb.ninodes - 2) (hr : Mkfs.main files = some s)
    (hfit : s.freeblock ≤ fssize) :
    Layout mkfsSb ∧ BlocksOwned (mount mkfsSb s.disk) ∧
      (∀ i < mkfsSb.ninodes, i ≠ rootino → ((mount mkfsSb s.disk).dinode i).type ≠ 0 →
        Solid s.disk ((mount mkfsSb s.disk).dinode i)) ∧
      (NoHoles (mount mkfsSb s.disk) ↔ (files.length + 2) * 16 % bsize ≠ 0) := by
  have hcount : files.length ≤ 198 := hcount
  obtain ⟨s1, h1, h2⟩ := Option.bind_eq_some_iff.mp hr
  obtain ⟨s0, h0, -, hall⟩ := addFiles_root
  rw [hall] at h1
  have hle : 0 + 2 + files.length ≤ mkfsSb.ninodes := show 0 + 2 + files.length ≤ 200 by omega
  have hroot := h0.files hle h1 (by rw [← Mkfs.finish_blocks h2]; exact hfit)
  rw [Nat.zero_add] at hroot
  have hrt : (s1.rinode rootino).type ≠ 0 := by rw [hroot.type]; decide
  have hown := hroot.inv.own_self (by decide) hrt
  obtain ⟨hw, hsame⟩ := hown.written ((16 * (files.length + 2) / bsize + 1) * bsize)
  have hdisk := hroot.finish h2
  have hsolid := hroot.rootSolid h2 (show files.length + 2 ≤ 200 by omega)
  have hother : ∀ i < mkfsSb.ninodes, i ≠ rootino →
      ((mount mkfsSb s.disk).dinode i).type ≠ 0 →
      Solid s.disk ((mount mkfsSb s.disk).dinode i) := by
    intro i hi hir ht
    have hi' : (mount mkfsSb s.disk).dinode i = s1.rinode i := by
      rw [hroot.dinodes h2 hi, Mkfs.rinode_winode, if_neg hir]
    rw [hi'] at ht ⊢
    obtain ⟨hm, hsz⟩ := hroot.inv.maps i hi ht
    refine (Maps.solid_iff (hm.congr fun ha => ?_) hsz).mpr fun _ hbn => hbn
    rw [hdisk]
    exact hsame _ (hown.own.owned_pool (hown.other_owns hi hir ht ha)).1
  refine ⟨mkfsSb_layout, Own.blocksOwned ?_, hother, fun h => ?_, fun hround i hi ht => ?_⟩
  · rw [← hdisk] at hw
    exact hw.inodes_congr fun i hi => by rw [hroot.dinodes h2 hi]; exact ⟨rfl, rfl⟩
  · refine hsolid.mp (h rootino (show 1 < 200 by decide) ?_)
    rw [(hroot.rootMaps h2 (show files.length + 2 ≤ 200 by omega)).2.2]
    decide
  · by_cases hir : i = rootino
    · subst hir
      exact hsolid.mpr hround
    · exact hother i hi hir ht

lemma main_empty (hm : m ≤ 62) :
    ∃ s1 s, RootOf s1 m ∧ s1.finish = some s ∧ Mkfs.main (emptyFiles m) = some s ∧
    s.freeblock ≤ fssize := by
  obtain ⟨s0, h0, hb, hall⟩ := addFiles_root
  have hlen : (emptyFiles m).length = m := by rw [emptyFiles, length_map, length_range]
  have hmeta : nmeta mkfsSb = 46 := rfl
  have hsize : fssize = 2000 := rfl
  have hle : 0 + 2 + (emptyFiles m).length ≤ mkfsSb.ninodes := by
    rw [hlen]
    change 0 + 2 + m ≤ 200
    omega
  have hfiles : ∀ f ∈ emptyFiles m, slash ∉ Mkfs.baseName f.path ∧ f.reads = [] := by
    intro f hf
    obtain ⟨k, hk, rfl⟩ := mem_map.mp hf
    have hbytes : ∀ k < 62, slash ∉ Mkfs.baseName [UInt8.ofNat (97 + k)] := by decide
    exact ⟨hbytes k (lt_of_lt_of_le (mem_range.mp hk) hm), rfl⟩
  obtain ⟨s1, hs1, hb1⟩ := h0.addEmptyFiles hle (by omega) hfiles
  rw [hlen] at hb1
  have hroot := h0.files hle hs1 (by omega)
  rw [hlen, Nat.zero_add] at hroot
  have hlt : s1.freeblock < bsize * 8 := by
    simp only [bsize]
    omega
  have hfin : ∃ s, s1.finish = some s := by
    unfold Mkfs.finish
    exact ⟨_, if_pos hlt⟩
  obtain ⟨s, hs⟩ := hfin
  refine ⟨s1, s, hroot, hs, ?_, ?_⟩
  · unfold Mkfs.main
    rw [hall, hs1]
    exact hs
  · rw [Mkfs.finish_blocks hs]
    omega

theorem mkfs_image_wellformed_one : ∃ s, Mkfs.main (emptyFiles 1) = some s ∧ s.freeblock ≤ fssize ∧
    BlocksOwned (mount mkfsSb s.disk) ∧ NoHoles (mount mkfsSb s.disk) := by
  obtain ⟨-, s, -, -, hr, hfit⟩ := main_empty (m := 1) (by decide)
  obtain ⟨-, howned, -, hholes⟩ := mkfs_image_wellformed (by decide) hr hfit
  exact ⟨s, hr, hfit, howned, hholes.mpr (by decide)⟩

/-- With 62 files the entries fill the first block of the root directory, and its rounded
size has a second block, which is not there. -/
theorem mkfs_root_has_hole : ∃ s, Mkfs.main (emptyFiles 62) = some s ∧ s.freeblock ≤ fssize ∧
    ((mount mkfsSb s.disk).dinode rootino).size = 2048 ∧
    fileBlock s.disk ((mount mkfsSb s.disk).dinode rootino) 1 = none ∧
    ¬ NoHoles (mount mkfsSb s.disk) := by
  obtain ⟨s1, s, hroot, hs, hr, hfit⟩ := main_empty (m := 62) le_rfl
  obtain ⟨hm, hsz, ht⟩ := hroot.rootMaps hs (by decide)
  have hnone : fileBlock s.disk ((mount mkfsSb s.disk).dinode rootino) 1 = none := by
    have hslot : ¬ slotAddr s.disk ((mount mkfsSb s.disk).dinode rootino) (slotOf 1) ≠ 0 := by
      rw [hm 1 (by decide)]
      decide
    rw [fileBlock, if_pos (not_not.mp hslot)]
  refine ⟨s, hr, hfit, hsz, hnone, fun hno => ?_⟩
  have hsolid := hno rootino (show 1 < 200 by decide) (by rw [ht]; decide)
  exact hsolid.mapped 1 (by rw [hsz]; decide) hnone

end

end Xv6
