import Xv6.FileData

/-! How much of the log a call of `writei` takes: the blocks it writes, the indirect block, the
bitmap blocks of what it allocates and, last, the block of the inode. -/

namespace Xv6

open Kern List

/-- The length of the log once all of `W` is in it. -/
def due (l W : List Nat) : Nat := l.length + (W.filter fun b => b ∉ l).length

section

variable {l W : List Nat} {b : Nat}

lemma due_le (l W : List Nat) : due l W ≤ l.length + W.length :=
  Nat.add_le_add_left (length_filter_le ..) _

lemma filter_logAbsorb (l W : List Nat) (b : Nat) :
    W.filter (fun x => x ∉ logAbsorb l b) = (W.filter fun x => x ∉ l).filter fun x => x ≠ b := by
  rw [filter_filter]
  refine filter_congr fun x _ => ?_
  simp [mem_logAbsorb, and_comm]

lemma due_logAbsorb_le (l W : List Nat) (b : Nat) : due (logAbsorb l b) W ≤ due l W + 1 := by
  have hlen := length_logAbsorb_le l b
  have hfilter := length_filter_le (fun x => decide (x ≠ b)) (W.filter fun x => x ∉ l)
  rw [due, due, filter_logAbsorb]
  omega

lemma due_logAbsorb_of_mem (l : List Nat) (hb : b ∈ W) : due (logAbsorb l b) W ≤ due l W := by
  by_cases hl : b ∈ l
  · rw [logAbsorb_of_mem hl]
  · have hless : ((W.filter fun x => x ∉ l).filter fun x => x ≠ b).length <
        (W.filter fun x => x ∉ l).length :=
      length_filter_lt_length_iff_exists.mpr ⟨b, by simp [hb, hl], by simp⟩
    rw [due, due, filter_logAbsorb, length_logAbsorb hl]
    omega

lemma due_cons_of_mem (W : List Nat) (hb : b ∈ l) : due l (b :: W) = due l W := by
  rw [due, due, filter_cons_of_neg (by simpa using hb)]

lemma due_cons_le (l W : List Nat) (b : Nat) : due l (b :: W) ≤ due l W + 1 := by
  rw [due, due, filter_cons]
  split
  · rw [length_cons]
    omega
  · omega

end

def spanBlocks (off n : Nat) : Nat := if n = 0 then 0 else (off + n - 1) / bsize - off / bsize + 1

lemma spanBlocks_chunk {off rem : Nat} (h : rem ≠ 0) :
    spanBlocks (off + min rem (bsize - off % bsize)) (rem - min rem (bsize - off % bsize)) + 1 ≤
      spanBlocks off rem := by
  have hb : bsize = 1024 := rfl
  unfold spanBlocks
  rw [if_neg h, hb]
  split <;> omega

/-- The blocks of the bitmap. -/
def bitmapBlocks (sb : Superblock) : List Nat :=
  (List.range (sb.size / bpb + 1)).map fun k => k + sb.bmapstart

lemma bblock_mem {sb : Superblock} {b : Nat} (h : b < sb.size) : bblock sb b ∈ bitmapBlocks sb :=
  mem_map.mpr ⟨b / bpb, mem_range.mpr (Nat.lt_succ_of_le (Nat.div_le_div_right h.le)), rfl⟩

def writeBlocks (sb : Superblock) (off n : Nat) : Nat :=
  spanBlocks off n + 1 + min (bitmapBlocks sb).length (spanBlocks off n + 1)

def NotBig (e : String) : Prop := e ≠ "too big a transaction"

structure Spare (V : List Nat) (c e k : Nat) (s : Fs) : Prop where
  txn : 1 ≤ s.outstanding
  fits : BitmapFits s.sb
  pos : 1 ≤ c
  rate : ∀ b < s.sb.size, bblock s.sb b ∈ V ∨ 2 ≤ c
  room : due s.logged V + k * c + e < s.logCap

section

variable {V : List Nat} {c e k x b : Nat} {s s' : Fs}

lemma Spare.length_lt (h : Spare V c e k s) : s.logged.length + e < s.logCap := by
  have hroom := h.room
  unfold due at hroom
  omega

lemma Spare.of_due (h : Spare V c e k s) {j : Nat} (hout : s'.outstanding = s.outstanding)
    (hsb : s'.sb = s.sb) (hdue : due s'.logged V + j * c ≤ due s.logged V + k * c) :
    Spare V c e j s' := by
  refine ⟨hout ▸ h.txn, hsb ▸ h.fits, h.pos, hsb ▸ h.rate, ?_⟩
  rw [Fs.logCap, hsb]
  exact Nat.lt_of_le_of_lt (Nat.add_le_add_right hdue e) h.room

lemma Spare.keep (h : Spare V c e k s) (hout : s'.outstanding = s.outstanding) (hsb : s'.sb = s.sb)
    (hlog : s'.logged = s.logged) : Spare V c e k s' :=
  h.of_due hout hsb (by rw [hlog])

lemma Spare.absorb (h : Spare V c e (k + 1) s) (b : Nat) :
    Spare V c e k { s with logged := logAbsorb s.logged b } := by
  have hdue := due_logAbsorb_le s.logged V b
  have hpos := h.pos
  exact h.of_due rfl rfl (by rw [Nat.succ_mul]; dsimp only; omega)

lemma Spare.absorb_mem (h : Spare V c e k s) (hb : b ∈ V ∨ b ∈ s.logged) :
    Spare V c e k { s with logged := logAbsorb s.logged b } := by
  rcases hb with hb | hb
  · exact h.of_due rfl rfl (Nat.add_le_add_right (due_logAbsorb_of_mem s.logged hb) _)
  · exact h.keep rfl rfl (logAbsorb_of_mem hb)

lemma Spare.reckon (h : Spare V c e k s) (hb : b ∈ s.logged) : Spare (b :: V) c e k s := by
  refine ⟨h.txn, h.fits, h.pos, fun x hx => (h.rate x hx).imp_left (mem_cons_of_mem b), ?_⟩
  rw [due_cons_of_mem V hb]
  exact h.room

lemma due_alloc (l : List Nat) (hc : 1 ≤ c) (hx : x ∈ V ∨ 2 ≤ c) (b : Nat) :
    due (logAbsorb (logAbsorb l x) b) V ≤ due l V + c := by
  have hb := due_logAbsorb_le (logAbsorb l x) V b
  rcases hx with hx | hc2
  · have hmem := due_logAbsorb_of_mem l hx
    omega
  · have hnew := due_logAbsorb_le l V x
    omega

lemma balloc_spare (h : Spare V c e (k + 1) s) : Sat balloc s NotBig fun b s' =>
    (b = 0 ∧ s' = s) ∨ (Spare V c e k s' ∧ b ∈ s'.logged ∧ b < 2 ^ 32 ∧ s'.itable = s.itable) := by
  have hroom : s.logged.length + 1 < s.logCap := by
    have hr := h.room
    have hpos := h.pos
    rw [due, Nat.succ_mul] at hr
    omega
  refine (balloc_room h.fits h.txn fun hfull => by omega).imp ?_
  rintro b s' (⟨rfl, rfl, -⟩ | ⟨hlt, -, -, rfl⟩)
  · exact .inl ⟨rfl, rfl⟩
  · have hsize := h.fits.size_le
    refine .inr ⟨?_, mem_logAbsorb.mpr (.inr rfl), by omega, rfl⟩
    have hdue := due_alloc s.logged h.pos (h.rate b hlt) b
    exact h.of_due rfl rfl (by rw [Nat.succ_mul]; dsimp only; omega)

end

def SpareFor (W : List Nat) (c e ip k : Nat) (s : Fs) : Prop :=
  ((s.itable ip).din.addrs ndirect = 0 ∧ Spare W c e (k + 1) s) ∨
    ((s.itable ip).din.addrs ndirect ≠ 0 ∧ Spare ((s.itable ip).din.addrs ndirect :: W) c e k s)

section

variable {W : List Nat} {c e ip k i j b : Nat} {s s' : Fs} {src : Src}

lemma SpareFor.of_spare (h : SpareFor W c e ip k s) {k' : Nat}
    (hind : (s'.itable ip).din.addrs ndirect = (s.itable ip).din.addrs ndirect)
    (himp : ∀ V j, Spare V c e (k + j) s → Spare V c e (k' + j) s') : SpareFor W c e ip k' s' := by
  unfold SpareFor
  rw [hind]
  exact Or.imp (And.imp_right (himp W 1)) (And.imp_right (himp _ 0)) h

lemma SpareFor.le (h : SpareFor W c e ip k s) {k' : Nat} (hk : k' ≤ k) : SpareFor W c e ip k' s :=
  h.of_spare rfl fun _ j h' => h'.of_due rfl rfl
    (Nat.add_le_add_left (Nat.mul_le_mul_right c (Nat.add_le_add_right hk j)) _)

lemma SpareFor.keep (h : SpareFor W c e ip k s) (hout : s'.outstanding = s.outstanding)
    (hsb : s'.sb = s.sb) (hlog : s'.logged = s.logged)
    (hind : (s'.itable ip).din.addrs ndirect = (s.itable ip).din.addrs ndirect) :
    SpareFor W c e ip k s' :=
  h.of_spare hind fun _ _ h' => h'.keep hout hsb hlog

lemma SpareFor.absorb (h : SpareFor W c e ip (k + 1) s) (b : Nat) :
    SpareFor W c e ip k { s with logged := logAbsorb s.logged b } :=
  h.of_spare rfl fun _ j h' => Spare.absorb (by rwa [Nat.add_right_comm]) b

lemma SpareFor.absorb_mem (h : SpareFor W c e ip k s)
    (hb : b ∈ s.logged ∨ b ≠ 0 ∧ (s.itable ip).din.addrs ndirect = b) :
    SpareFor W c e ip k { s with logged := logAbsorb s.logged b } := by
  rcases h with ⟨h0, h⟩ | ⟨h0, h⟩
  · refine .inl ⟨h0, h.absorb_mem (.inr (hb.resolve_right ?_))⟩
    rintro ⟨hb0, rfl⟩
    exact hb0 h0
  · exact .inr ⟨h0, h.absorb_mem (hb.symm.imp_left fun hb => by rw [hb.2]; exact mem_cons_self)⟩

lemma SpareFor.length_lt (h : SpareFor W c e ip k s) : s.logged.length + e < s.logCap :=
  h.elim (fun h => h.2.length_lt) fun h => h.2.length_lt

lemma SpareFor.txn (h : SpareFor W c e ip k s) : 1 ≤ s.outstanding :=
  h.elim (fun h => h.2.txn) fun h => h.2.txn

lemma SpareFor.balloc_sat (h : SpareFor W c e ip (k + 1) s) : Sat balloc s NotBig fun b s' =>
    (b = 0 ∧ s' = s) ∨ (SpareFor W c e ip k s' ∧ b ∈ s'.logged ∧ s'.itable = s.itable) := by
  rcases h with ⟨h0, h⟩ | ⟨h0, h⟩
  · refine (balloc_spare h).imp fun b s' => Or.imp_right ?_
    rintro ⟨h', hb, -, htab⟩
    exact ⟨.inl ⟨by rwa [htab], h'⟩, hb, htab⟩
  · refine (balloc_spare h).imp fun b s' => Or.imp_right ?_
    rintro ⟨h', hb, -, htab⟩
    exact ⟨.inr (by rw [htab]; exact ⟨h0, h'⟩), hb, htab⟩

def Charged (W : List Nat) (c e ip k a : Nat) (s : Fs) : Prop :=
  s.logged.length + e < s.logCap ∧ 1 ≤ s.outstanding ∧
    (a ≠ 0 → SpareFor W c e ip k { s with logged := logAbsorb s.logged a })

lemma SpareFor.found (h : SpareFor W c e ip (k + 1) s) (a : Nat) : Charged W c e ip k a s :=
  ⟨h.length_lt, h.txn, fun _ => h.absorb a⟩

lemma SpareFor.fresh (h : SpareFor W c e ip k s) {a : Nat} (ha : a ∈ s.logged) :
    Charged W c e ip k a s :=
  ⟨h.length_lt, h.txn, fun _ => h.absorb_mem (.inl ha)⟩

lemma bmapAddr_cost (h : SpareFor W c e ip (k + 1) s) (hi : i < ndirect) :
    Sat (bmapAddr ip i) s NotBig fun a s' => Charged W c e ip k a s' := by
  unfold bmapAddr
  rw [sat_bind, sat_getState]
  split
  · refine h.balloc_sat.bind ?_
    rintro a s1 (⟨rfl, rfl⟩ | ⟨h1, hmem, -⟩)
    · rw [if_pos rfl, sat_pure]
      exact h.found 0
    · split
      next ha =>
        rw [sat_pure, ← ha]
        exact h1.fresh hmem
      next =>
        rw [sat_bind, sat_modifyState, sat_pure]
        refine SpareFor.fresh (s := s1.setDin ip _) (h1.keep rfl rfl rfl ?_) hmem
        simp only [Fs.setDin, Fs.setInode, Function.update_self]
        exact Dinode.setAddr_of_ne _ _ (by omega)
  · rw [sat_pure]
    exact h.found _

lemma bmapAddr_indirect_cost (h : SpareFor W c e ip k s) :
    Sat (bmapAddr ip ndirect) s NotBig fun a s' => s'.logged.length + e < s'.logCap ∧
      1 ≤ s'.outstanding ∧
      (a ≠ 0 → SpareFor W c e ip k s' ∧ (s'.itable ip).din.addrs ndirect = a) := by
  unfold bmapAddr
  rw [sat_bind, sat_getState]
  split
  next hz =>
    have h0 := (h.resolve_right fun h' => h'.1 hz).2
    refine (balloc_spare h0).bind ?_
    rintro a s1 (⟨rfl, rfl⟩ | ⟨h1, hmem, hlt, -⟩)
    · rw [if_pos rfl, sat_pure]
      exact ⟨h0.length_lt, h0.txn, fun h => absurd rfl h⟩
    · by_cases ha : a = 0
      · rw [if_pos ha, sat_pure]
        exact ⟨h1.length_lt, h1.txn, fun h => absurd rfl h⟩
      · rw [if_neg ha, sat_bind, sat_modifyState, sat_pure]
        have haddr : ((s1.setDin ip ((s1.itable ip).din.setAddr ndirect a)).itable
            ip).din.addrs ndirect = a := by
          simp only [Fs.setDin, Fs.setInode, Function.update_self]
          exact Dinode.setAddr_self _ (Nat.le_refl _) hlt
        refine ⟨h1.length_lt, h1.txn, fun _ => ⟨.inr ⟨by rwa [haddr], ?_⟩, haddr⟩⟩
        rw [haddr]
        exact (h1.reckon hmem).keep rfl rfl rfl
  · rw [sat_pure]
    exact ⟨h.length_lt, h.txn, fun _ => ⟨h, rfl⟩⟩

lemma bmapWord_cost (h : SpareFor W c e ip (k + 1) s) (hb : b ≠ 0)
    (hind : (s.itable ip).din.addrs ndirect = b) :
    Sat (bmapWord b j) s NotBig fun a s' => Charged W c e ip k a s' := by
  unfold bmapWord
  rw [sat_bind, sat_getState]
  split
  · refine h.balloc_sat.bind ?_
    rintro a s1 (⟨rfl, rfl⟩ | ⟨h1, hmem, htab⟩)
    · rw [if_pos rfl, sat_pure]
      exact h.found 0
    · split
      next ha =>
        rw [sat_pure, ← ha]
        exact h1.fresh hmem
      next =>
        rw [sat_bind, sat_getState]
        refine (writeBlock_room h1.txn _ _ fun hfull => absurd h1.length_lt (by omega)).bind ?_
        rintro _ s2 rfl
        rw [sat_pure]
        have h2 := h1.absorb_mem (b := b) (.inr ⟨hb, by rw [htab, hind]⟩)
        refine SpareFor.fresh (SpareFor.keep h2 ?_ ?_ ?_ ?_) (mem_logAbsorb.mpr (.inl hmem)) <;> rfl
  · rw [sat_pure]
    exact h.found _

lemma bmap_cost (h : SpareFor W c e ip (k + 1) s) (bn : Nat) :
    Sat (bmap ip bn) s NotBig fun a s' => Charged W c e ip k a s' := by
  unfold bmap
  split
  next hd => exact bmapAddr_cost h hd
  next =>
    split
    · refine (bmapAddr_indirect_cost h).bind ?_
      rintro a s1 ⟨hlen, htx, h1⟩
      split
      next =>
        rw [sat_pure]
        exact ⟨hlen, htx, fun h0 => absurd rfl h0⟩
      next ha => exact bmapWord_cost (h1 ha).1 ha (h1 ha).2
    · rw [sat_panic, NotBig]
      decide

lemma writeLoop_cost (rem off tot : Nat) (h : SpareFor W c e ip (spanBlocks off rem) s) :
    Sat (writeLoop ip src rem off tot) s NotBig fun _ s' =>
      s'.logged.length + e < s'.logCap ∧ 1 ≤ s'.outstanding := by
  induction rem using Nat.strong_induction_on generalizing s off tot with
  | h rem ih =>
    rw [writeLoop]
    by_cases hrem : rem = 0
    · rw [dif_pos hrem, sat_pure]
      exact ⟨h.length_lt, h.txn⟩
    · have hpos := chunk_pos off hrem
      rw [dif_neg hrem]
      refine (bmap_cost (h.le (spanBlocks_chunk hrem)) _).bind ?_
      rintro a s1 ⟨hlen, htx, h1⟩
      by_cases ha : a = 0
      · rw [if_pos ha, sat_pure]
        exact ⟨hlen, htx⟩
      · rw [if_neg ha, sat_bind, sat_modifyState]
        split
        · rw [sat_pure]
          exact ⟨hlen, htx⟩
        · refine (logWrite_room (s := s1.setBlock a _) htx a fun hfull => absurd hlen ?_).bind ?_
          · exact Nat.not_lt.mpr (Nat.le_add_right_of_le hfull)
          · rintro _ s2 rfl
            exact ih _ (by omega) _ _ ((h1 ha).keep rfl rfl rfl rfl)

lemma SpareFor.start (hs : BitmapFits s.sb) (htx : 1 ≤ s.outstanding) (k : Nat)
    (hroom : s.logged.length + (k + 1 + min (bitmapBlocks s.sb).length (k + 1)) + e < s.logCap) :
    ∃ W c, SpareFor W c e ip k s := by
  by_cases hle : (bitmapBlocks s.sb).length ≤ k + 1
  · -- every bitmap block is reckoned with
    rw [min_eq_left hle] at hroom
    refine ⟨bitmapBlocks s.sb, 1, ?_⟩
    have hrate : ∀ b < s.sb.size, bblock s.sb b ∈ bitmapBlocks s.sb := fun b hb => bblock_mem hb
    have hdue := due_le s.logged (bitmapBlocks s.sb)
    by_cases h0 : (s.itable ip).din.addrs ndirect = 0
    · exact .inl ⟨h0, htx, hs, Nat.le_refl _, fun b hb => .inl (hrate b hb), by omega⟩
    · have hcons := due_cons_le s.logged (bitmapBlocks s.sb) ((s.itable ip).din.addrs ndirect)
      exact .inr ⟨h0, htx, hs, Nat.le_refl _, fun b hb => .inl (mem_cons_of_mem _ (hrate b hb)),
        by omega⟩
  · -- every block comes with a bitmap block
    rw [min_eq_right (by omega)] at hroom
    refine ⟨[], 2, ?_⟩
    have hdue := due_le s.logged []
    rw [length_nil] at hdue
    by_cases h0 : (s.itable ip).din.addrs ndirect = 0
    · exact .inl ⟨h0, htx, hs, by decide, fun b _ => .inr (Nat.le_refl _), by omega⟩
    · have hcons := due_cons_le s.logged [] ((s.itable ip).din.addrs ndirect)
      exact .inr ⟨h0, htx, hs, by decide, fun b _ => .inr (Nat.le_refl _), by omega⟩

lemma iupdate_cost (htx : 1 ≤ s.outstanding) (hroom : s.logged.length + e < s.logCap) :
    Sat (iupdate ip) s NotBig fun _ s' => s'.logged.length + e ≤ s'.logCap ∧
    1 ≤ s'.outstanding := by
  unfold iupdate
  rw [sat_bind, sat_getState]
  refine (writeBlock_room htx _ _ fun hfull => absurd hroom (by omega)).imp ?_
  rintro _ s' rfl
  refine ⟨?_, htx⟩
  have hlen := length_logAbsorb_le s.logged (iblock s.sb (s.itable ip).inum)
  exact (Nat.add_le_add_right hlen e).trans (by rw [Nat.add_right_comm]; exact hroom)

lemma writei_cost (hs : BitmapFits s.sb) (htx : 1 ≤ s.outstanding) (off n : UInt32)
    (hroom : s.logged.length + writeBlocks s.sb off.toNat n.toNat + e < s.logCap) :
    Sat (writei ip src off n) s NotBig fun _ s' =>
      s'.logged.length + e ≤ s'.logCap ∧ 1 ≤ s'.outstanding := by
  obtain ⟨W, c, h⟩ : ∃ W c, SpareFor W c e ip (spanBlocks off.toNat n.toNat) s :=
    SpareFor.start hs htx _ hroom
  unfold writei
  rw [sat_bind, sat_getState]
  split
  · exact sat_pure.mpr ⟨by omega, htx⟩
  split
  · exact sat_pure.mpr ⟨by omega, htx⟩
  refine (writeLoop_cost n.toNat off.toNat 0 h).bind ?_
  rintro ⟨w, x⟩ s1 ⟨hlen, htx1⟩
  rw [sat_bind, sat_getState]
  dsimp only
  split
  · rw [sat_bind, sat_modifyState]
    exact (iupdate_cost (s := s1.setDin ip _) htx1 hlen).bind fun _ _ h' => sat_pure.mpr h'
  · exact (iupdate_cost htx1 hlen).bind fun _ _ h' => sat_pure.mpr h'

lemma sat_of_cost {α : Type} {m : Kern Fs α} {Q : α → Fs → Prop}
    (h : Sat m s (⟨fun e => e = "too big a transaction", rfl⟩ : Panics) Q)
    (hcost : s.logged.length + k < s.logCap → Sat m s NotBig fun _ _ => True) :
    Sat m s (fun e => e = "too big a transaction" ∧ s.logCap ≤ s.logged.length + k) Q :=
  ⟨h.of_ok, fun hm => ⟨h.of_error hm, Nat.le_of_not_lt fun hroom =>
    (hcost hroom).of_error hm (h.of_error hm)⟩⟩

end

end Xv6
