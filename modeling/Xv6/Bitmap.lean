import Xv6.RootImage

/-! `balloc` and `bfree` at the level of bits, on any super block. -/

namespace Xv6

open Kern List
open Function (update update_of_ne update_self)

section

variable {s : Fs} {b c : Nat}

lemma bit_pos_inj {sb : Superblock}
    (h : (bblock sb b, b % bpb / 8, b % bpb % 8) = (bblock sb c, c % bpb / 8, c % bpb % 8)) :
    b = c := by
  simp only [bblock, bpb, bsize, Prod.mk.injEq] at h
  omega

lemma Fs.bit_ballocDisk {s' : Fs} (hd : s'.disk = ballocDisk s b) (hsb : s'.sb = s.sb)
    (hc : bblock s.sb c ≠ b) : s'.bit c = (decide (c = b) || s.bit c) := by
  rw [Fs.bit, hd, hsb, ballocDisk, update_of_ne hc]
  exact bitOf_setBit b c

lemma bfree_exact (htx : 1 ≤ s.outstanding) (hroom : s.logged.length < s.logCap)
    (hb : s.bit b = true) : ∃ s', bfree b s = .ok ((), s') ∧
      (∀ c, s'.bit c = (decide (c ≠ b) && s.bit c)) ∧
      ∀ x ≠ bblock s.sb b, s'.disk x = s.disk x := by
  obtain ⟨_, s', hr, rfl⟩ := (bfree_room (E := fun _ => False) htx hb fun h => by omega).returns
  exact ⟨_, hr, fun c => bitOf_clearBit b c, fun x hx => update_of_ne hx ..⟩

/-- The free map bit by bit. `balloc` takes the smallest free block, sets its bit and no other one
and zeroes the block, or it returns 0 on a full disk and changes nothing; `bfree` of a used block
clears its bit and no other one, and undoes `balloc`; no two blocks have their bits at one place.
The bits of a bitmap block that is itself handed out are lost with it, so they are left out. -/
theorem bitmap_bit_exact (s : Fs) (hs : BitmapFits s.sb) (htx : 1 ≤ s.outstanding)
    (hroom : s.logged.length + 2 < s.logCap) (h0 : s.bit 0 = true) :
    (∃ b s', balloc s = .ok (b, s') ∧ ((b = 0 ∧ s' = s ∧ ∀ c < s.sb.size, s.bit c = true) ∨
      (b ≠ 0 ∧ b < s.sb.size ∧ s.bit b = false ∧ (∀ c < b, s.bit c = true) ∧
        s'.disk b = Bytes.fill bsize 0 ∧
        (∀ x ≠ b, x ≠ bblock s.sb b → s'.disk x = s.disk x) ∧
        (∀ c, bblock s.sb c ≠ b → s'.bit c = (decide (c = b) || s.bit c)) ∧
        (bblock s.sb b ≠ b → ∃ s₁, bfree b s' = .ok ((), s₁) ∧
          ∀ c, bblock s.sb c ≠ b → s₁.bit c = s.bit c)))) ∧
    (∀ b < 2 ^ 32, s.bit b = true → ∃ s', bfree b s = .ok ((), s') ∧
      (∀ c, s'.bit c = (decide (c ≠ b) && s.bit c)) ∧
      ∀ x ≠ bblock s.sb b, s'.disk x = s.disk x) ∧
    ∀ b c, (bblock s.sb b, b % bpb / 8, b % bpb % 8) =
      (bblock s.sb c, c % bpb / 8, c % bpb % 8) → b = c := by
  refine ⟨?_, fun b _ => bfree_exact htx (by omega), fun b c => bit_pos_inj⟩
  obtain ⟨b, s', hr, hnone | ⟨hlt, hfree, hleast, hs'⟩⟩ :=
    (balloc_room (E := fun _ => False) hs htx fun h => by omega).returns
  · exact ⟨b, s', hr, .inl hnone⟩
  · have hb0 : b ≠ 0 := by
      rintro rfl
      rw [h0] at hfree
      cases hfree
    have hdisk : s'.disk = ballocDisk s b := by rw [hs']
    have hsb : s'.sb = s.sb := by rw [hs']
    have hbits : ∀ c, bblock s.sb c ≠ b → s'.bit c = (decide (c = b) || s.bit c) := fun c hc =>
      Fs.bit_ballocDisk hdisk hsb hc
    refine ⟨b, s', hr, .inr ⟨hb0, hlt, hfree, hleast, ?_, fun x hx hx' => ?_, hbits, fun hne => ?_⟩⟩
    · rw [hdisk, ballocDisk, update_self]
    · rw [hdisk, ballocDisk, update_of_ne hx, update_of_ne hx']
    · -- the log has taken at most two blocks
      have hlen := length_logAbsorb_le (logAbsorb s.logged (bblock s.sb b)) b
      have hlen' := length_logAbsorb_le s.logged (bblock s.sb b)
      have hcap : s'.logCap = s.logCap := by rw [Fs.logCap, hsb, Fs.logCap]
      obtain ⟨s₁, hr1, hback, -⟩ := bfree_exact (s := s') (b := b) (by rw [hs']; exact htx)
        (by rw [hcap, hs']; dsimp only; omega) (by rw [hbits b hne]; simp)
      refine ⟨s₁, hr1, fun c hc => ?_⟩
      rw [hback, hbits c hc]
      by_cases hcb : c = b
      · rw [hcb, hfree]
        simp
      · simp [hcb]

end

theorem bitmap_bit_exact_root : ∃ s', balloc { mount mkfsSb rootImage with outstanding := 1 } =
      .ok (47, s') ∧ s'.disk 47 = Bytes.fill bsize 0 ∧
    (∀ c < mkfsSb.size, s'.bit c = decide (c < 48)) ∧
    ∃ s₁, bfree 47 s' = .ok ((), s₁) ∧ ∀ c < mkfsSb.size, s₁.bit c = decide (c < 47) := by
  have hbit : ∀ c < mkfsSb.size,
      Fs.bit { mount mkfsSb rootImage with outstanding := 1 } c = decide (c < 47) := fun c hc =>
    rootImage_bit (mkfsSb_layout.bblock_lt c hc)
  have hblk : ∀ c < mkfsSb.size, bblock mkfsSb c = 45 := by
    intro c hc
    have hc : c < 2000 := hc
    show c / 8192 + 45 = 45
    omega
  obtain ⟨⟨b, s', hr, ⟨-, -, hused⟩ | ⟨-, hlt, hfree, hleast, hzero, -, hbits, hundo⟩⟩, -⟩ :=
    bitmap_bit_exact { mount mkfsSb rootImage with outstanding := 1 } mkfsSb_layout.bitmapFits
      (by decide) (by decide) ((hbit 0 (by decide)).trans (by decide))
  · have h := hused 47 (by decide)
    rw [hbit 47 (by decide)] at h
    exact absurd h (by decide)
  · -- the first free block is 47
    have hb : b = 47 := by
      rw [hbit b hlt] at hfree
      have hge : ¬ b < 47 := of_decide_eq_false hfree
      by_contra hne
      have h := hleast 47 (by omega)
      rw [hbit 47 (by decide)] at h
      exact absurd h (by decide)
    subst hb
    obtain ⟨s₁, hr1, hback⟩ := hundo (by decide)
    refine ⟨s', hr, hzero, fun c hc => ?_, s₁, hr1, fun c hc => ?_⟩
    · rw [hbits c (by rw [show Fs.sb _ = mkfsSb from rfl, hblk c hc]; decide), hbit c hc,
        ← Bool.decide_or]
      exact decide_eq_decide.mpr (by omega)
    · rw [hback c (by rw [show Fs.sb _ = mkfsSb from rfl, hblk c hc]; decide), hbit c hc]

def freeBitmap : Fs :=
  { mount mkfsSb (update rootImage 45 (clearBit rootBitmap 45)) with outstanding := 1 }

def longBitmap : Fs where
  sb := { mkfsSb with size := 2 ^ 31 + 1, bmapstart := 300000 }
  disk := fun x =>
    if 300000 ≤ x ∧ x < 300000 + 2 ^ 18 then Bytes.fill bsize 255 else Bytes.fill bsize 0
  outstanding := 1
  logged := []
  itable := (mount mkfsSb rootImage).itable

lemma longBitmap_disk (x : Nat) : longBitmap.disk x =
    if 300000 ≤ x ∧ x < 300000 + 2 ^ 18 then Bytes.fill bsize 255 else Bytes.fill bsize 0 := rfl

lemma getBit_fill_255 {i : Nat} (hi : i < bpb) : getBit (Bytes.fill bsize 255) i = true := by
  have hbpb : bpb = 8192 := rfl
  have hbs : bsize = 1024 := rfl
  rw [getBit_eq_testBit, Bytes.get, dif_pos (by omega)]
  have hlt : i % 8 < 8 := Nat.mod_lt _ (by decide)
  generalize i % 8 = j at hlt
  show (255 : Nat).testBit j = true
  interval_cases j <;> rfl

lemma firstFree_longBitmap : firstFree longBitmap = some (2 ^ 31, 0) := by
  have hbpb : bpb = 8192 := rfl
  have hrows : longBitmap.sb.size / bpb + 1 = 2 ^ 18 + 1 := rfl
  rw [firstFree, hrows, range_succ, findSome?_append, findSome?_eq_none_iff.mpr, Option.none_or]
  · have hfree : freeBit longBitmap (2 ^ 18 * bpb) = some 0 := by
      have hrange : range bpb = 0 :: (range 8191).map Nat.succ := range_succ_eq_map
      rw [freeBit, hrange]
      exact find?_cons_of_pos (by decide +kernel)
    rw [findSome?_singleton, hfree]
    rfl
  · intro k hk
    rw [mem_range] at hk
    rw [Option.map_eq_none_iff, freeBit, find?_eq_none]
    intro i hi
    rw [mem_range] at hi
    have hblk : bblockInt longBitmap.sb (k * bpb) = k + 300000 := by
      rw [bblockInt_eq (by decide) (by rw [hbpb]; omega), bblock, Nat.mul_div_cancel _ (by decide)]
      rfl
    have hdisk : longBitmap.disk (k + 300000) = Bytes.fill bsize 255 := by
      rw [longBitmap_disk, if_pos (by omega)]
    rw [hblk, hdisk, getBit_fill_255 hi]
    simp

/-- What is left out: `balloc` zeroes a bitmap block whose own bit is clear, and so clears the
bits of all blocks; past `2 ^ 31` blocks it returns a block whose bit stays clear. -/
theorem balloc_zeroes_bitmap :
    (freeBitmap.bit 0 = true ∧ ∃ s', balloc freeBitmap = .ok (45, s') ∧
      s'.bit 0 = false ∧ s'.bit 45 = false) ∧
    ∃ s', balloc longBitmap = .ok (2 ^ 31, s') ∧ s'.bit (2 ^ 31) = false := by
  refine ⟨⟨by decide +kernel, ?_⟩, ?_⟩
  · have htest : (match balloc freeBitmap with
        | .ok (b, s') => b == 45 && !s'.bit 0 && !s'.bit 45
        | .error _ => false) = true := by decide +kernel
    split at htest
    · rename_i b s' hr
      simp only [Bool.and_eq_true, beq_iff_eq, Bool.not_eq_true'] at htest
      obtain ⟨⟨rfl, h0⟩, h45⟩ := htest
      exact ⟨s', hr, h0, h45⟩
    · cases htest
  · have hsat : Sat balloc longBitmap (fun _ => False) fun b s' =>
        b = 2 ^ 31 ∧ s'.bit (2 ^ 31) = false := by
      unfold balloc
      rw [sat_bind, sat_getState, firstFree_longBitmap]
      refine (writeBlock_room (by decide) _ _ fun h => absurd h (by decide)).bind ?_
      rintro _ s1 rfl
      refine Sat.bind (writeBlock_room (by exact Nat.le_refl 1) _ _ fun h => absurd h ?_) ?_
      · decide +kernel
      · rintro _ s2 rfl
        refine sat_pure.mpr ⟨by decide, ?_⟩
        decide +kernel
    obtain ⟨_, s', hr, rfl, hbit⟩ := hsat.returns
    exact ⟨s', hr, hbit⟩

end Xv6
