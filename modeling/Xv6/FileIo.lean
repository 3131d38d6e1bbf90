import Xv6.FsNodes

/-! `readi` and `writei` on whole files: a file is the byte string of its first `size`
bytes. What a copy does that stops at a byte of user memory it cannot reach, when a write
is short, and which blocks a write has passed to `log_write`. -/

namespace Xv6

open Kern List

/-- The contents of a file as a list. -/
def FileNode.bytes (m : FileNode) : List UInt8 := (List.range m.size).map m.data

@[simp] lemma FileNode.bytes_length (m : FileNode) : m.bytes.length = m.size := by simp [bytes]

lemma FileNode.bytes_getElem? {m : FileNode} {x : Nat} (hx : x < m.size) :
    m.bytes[x]? = some (m.data x) := by
  simp [bytes, hx]

lemma FileNode.bytes_write {m : FileNode} {off : Nat} (data : List UInt8) (hoff : off ≤ m.size) :
    (m.write off data).bytes = m.bytes.take off ++ data ++ m.bytes.drop (off + data.length) := by
  refine ext_getElem? fun x => ?_
  have htake : (m.bytes.take off).length = off := by simp [hoff]
  by_cases hx : x < max m.size (off + data.length)
  · rw [FileNode.bytes_getElem? (m := m.write off data) hx]
    simp only [FileNode.write]
    by_cases h1 : x < off
    · rw [if_neg (by omega), append_assoc, List.getElem?_append_left (by omega),
        List.getElem?_take_of_lt h1, bytes_getElem? (by omega)]
    · by_cases h2 : x < off + data.length
      · rw [if_pos ⟨by omega, h2⟩, List.getElem?_append_left (by rw [length_append]; omega),
          List.getElem?_append_right (by omega), htake, getD_eq_getElem?_getD,
          List.getElem?_eq_getElem (by omega)]
        rfl
      · have hlen : (m.bytes.take off ++ data).length = off + data.length := by
          rw [length_append, htake]
        rw [if_neg (by omega), List.getElem?_append_right (by omega), hlen, List.getElem?_drop,
          show off + data.length + (x - (off + data.length)) = x by omega, bytes_getElem? (by omega)]
  · have hnone : (m.write off data).bytes[x]? = none := by
      rw [List.getElem?_eq_none_iff, FileNode.bytes_length]
      exact Nat.le_of_not_lt hx
    rw [hnone, eq_comm, List.getElem?_eq_none_iff, length_append, length_append, htake, length_drop,
      bytes_length]
    omega

section

variable {I : Nat → Dinode} {L : List Nat} {ip : Nat} {s s' s'' : Fs} {E : Panics} {src src' : Src}
  {m : FileNode}

variable {pos len off k tot rem : Nat}

lemma eitherCopyin_congr (h : ∀ j, pos ≤ j → j < pos + len → src j = src' j) :
    eitherCopyin src pos len = eitherCopyin src' pos len := by
  induction len generalizing pos with
  | zero => rfl
  | succ len ih =>
    rw [eitherCopyin, eitherCopyin, h pos (Nat.le_refl _) (by omega), ih fun j h1 h2 =>
      h j (by omega) (by omega)]

lemma writeLoop_congr (rem off tot : Nat) (h : ∀ j, tot ≤ j → j < tot + rem → src j = src' j) :
    writeLoop ip src rem off tot = writeLoop ip src' rem off tot := by
  induction rem using Nat.strong_induction_on generalizing off tot with
  | h rem ih =>
    rw [writeLoop, writeLoop]
    by_cases hrem : rem = 0
    · rw [dif_pos hrem, dif_pos hrem]
    · have hpos := chunk_pos off hrem
      rw [dif_neg hrem, dif_neg hrem]
      dsimp only
      rw [@eitherCopyin_congr src src' _ _ fun j h1 h2 => h j h1 (by omega)]
      rw [ih _ (by omega) _ _ fun j h1 h2 => h j (by omega) (by omega)]

lemma writei_congr {off n : UInt32} (h : ∀ j < n.toNat, src j = src' j) :
    writei ip src off n = writei ip src' off n := by
  unfold writei
  rw [@writeLoop_congr _ src src' n.toNat off.toNat 0 fun j _ hj => h j (by omega)]

lemma eitherCopyin_short (h : (eitherCopyin src pos len).length < len) :
    src (pos + (eitherCopyin src pos len).length) = none := by
  induction len generalizing pos with
  | zero => exact absurd h (Nat.not_lt_zero _)
  | succ len ih =>
    cases hsrc : src pos with
    | none => simp [eitherCopyin, hsrc]
    | some v =>
      simp only [eitherCopyin, hsrc, length_cons] at h ⊢
      have h1 : src (pos + 1 + _) = none := ih (by omega)
      rwa [Nat.add_right_comm] at h1

structure Flushed (ip : Nat) (s s' : Fs) : Prop where
  recorded : Recorded s s'
  disk : ∀ b, InPool s.sb b → s'.disk b = s.disk b
  logged : ∀ b, InPool s.sb b → b ∈ s'.logged → b ∈ s.logged
  slots : ∀ k, slotAddr s'.disk (s'.itable ip).din k = slotAddr s.disk (s.itable ip).din k
  bytes : ∀ x, fileByte s'.disk (s'.itable ip).din x = fileByte s.disk (s.itable ip).din x
  full : s.Full → s'.Full

lemma iupdate_audit (he : Editing I L ip s) : Sat (iupdate ip) s E fun _ s' => Flushed ip s s' := by
  unfold iupdate
  rw [sat_bind, sat_getState]
  refine (writeBlock_sat he.txn _ _).imp ?_
  rintro _ s' rfl
  have hlt : iblock s.sb (s.itable ip).inum < s.sb.bmapstart := he.layout.iblock_lt _ he.inum
  have hm := he.layout.bmap_meta
  have hne : ∀ b, InPool s.sb b → b ≠ iblock s.sb (s.itable ip).inum := fun b hb => by
    have hge := hb.1
    omega
  have hpool : ∀ k, slotAddr s.disk (s.itable ip).din k ≠ 0 →
      InPool s.sb (slotAddr s.disk (s.itable ip).din k) :=
      fun k hk => he.own.owned_pool (he.owns rfl hk)
  have hslots : ∀ k, slotAddr (Function.update s.disk (iblock s.sb (s.itable ip).inum) (setDinode
      (s.disk (iblock s.sb (s.itable ip).inum)) ((s.itable ip).inum % ipb) (s.itable ip).din))
      (s.itable ip).din k = slotAddr s.disk (s.itable ip).din k := by
    refine slotAddr_congr fun hind => Function.update_of_ne (hne _ ?_) _ _
    have hp := hpool ndirect
    rw [slotAddr_of_le (Nat.le_refl _)] at hp
    exact hp hind
  refine ⟨.put .., fun b hb => Function.update_of_ne (hne b hb) _ _, fun b hb hmem => ?_, hslots,
    fun x => ?_, fun hf c hc => ?_⟩
  · exact (mem_logAbsorb.mp hmem).resolve_right (hne b hb)
  · rw [fileByte, fileByte, fileBlock_congr (hslots _) fun hk =>
      Function.update_of_ne (hne _ (hpool _ hk)) _ _]
  · have hge : s.sb.bmapstart ≤ bblock s.sb c := Nat.le_add_left ..
    rw [Fs.bit]
    dsimp only
    rw [Function.update_of_ne (by omega)]
    exact hf c hc

lemma Flushed.of_setSize {n : Nat} (h : Flushed ip (s.setDin ip ((s.itable ip).din.setSize n)) s') :
    Flushed ip s s' := by
  have hdin : ((s.setDin ip ((s.itable ip).din.setSize n)).itable ip).din =
      (s.itable ip).din.setSize n := by
    simp only [Fs.setDin, Fs.setInode, Function.update_self]
  refine ⟨⟨h.recorded.kept, h.recorded.changed⟩, h.disk, h.logged, fun k => ?_, fun x => ?_, h.full⟩
  · rw [h.slots, hdin]
    rfl
  · rw [h.bytes, hdin]
    rfl

lemma writei_audit (hi : FsInv s) (hip : Loaded ip s) (htx : 1 ≤ s.outstanding) (off n : UInt32) :
    Sat (writei ip src off n) s E fun r s' => ∀ w : Nat, r = w →
      ∃ s₁, OnInode s.dinode [] ip s s₁ ∧ Flushed ip s₁ s' ∧
        Ended ip src n.toNat off.toNat 0 w s s₁ := by
  have he := hi.editing hip htx
  unfold writei
  rw [sat_bind, sat_getState]
  by_cases hc : off.toNat > (s.itable ip).din.size ∨ off + n < off
  · rw [if_pos hc, sat_pure]
    intro w hw
    omega
  · rw [if_neg hc]
    by_cases hbig : (off + n).toNat > maxfile * bsize
    · rw [if_pos hbig, sat_pure]
      intro w hw
      omega
    · rw [if_neg hbig]
      have hsum := add_toNat_of_not_lt (not_or.mp hc).2
      have hend : off.toNat + n.toNat ≤ maxfile * bsize := by omega
      refine (writeLoop_sat he n.toNat off.toNat 0 hend).bind ?_
      rintro r s1 ⟨w, rfl, hw, haud⟩
      rw [Nat.zero_add]
      -- the inode goes back with its new size, or as it is
      have hfin : ∀ s2, OnInode s.dinode [] ip s s2 → (∀ s', Flushed ip s2 s' → Flushed ip s1 s') →
          Sat (do iupdate ip; pure (w : Int)) s2 E fun r s' => ∀ w : Nat, r = w →
            ∃ s₁, OnInode s.dinode [] ip s s₁ ∧ Flushed ip s₁ s' ∧
              Ended ip src n.toNat off.toNat 0 w s s₁ := by
        intro s2 hon hflush
        refine (iupdate_audit (hon.editing he)).bind ?_
        rintro _ s' hf
        rw [sat_pure]
        rintro w' hw'
        obtain rfl : w = w' := Int.ofNat_inj.mp hw'
        exact ⟨s1, hw.on, hflush s' hf, haud⟩
      rw [sat_bind, sat_getState]
      split
      · rw [sat_bind, sat_modifyState]
        exact hfin _ (hw.on.setDin (d := (s1.itable ip).din.setSize _) rfl rfl)
          fun _ h => h.of_setSize
      · exact hfin s1 hw.on fun _ h => h

lemma fileByte_of_addr {disk : Disk} {d : Dinode} {x a : Nat}
    (h : slotAddr disk d (slotOf (x / bsize)) = a) (ha : a ≠ 0) :
    fileByte disk d x = (disk a).get (x % bsize) := by
  rw [fileByte, fileBlock_of_addr h ha, Option.getD_some]

def Unseen (s : Fs) (ip : Nat) (src : Src) (off j : Nat) : Prop :=
  fileBlock s.disk (s.itable ip).din ((off + j) / bsize) = none ∨
    src j = some (fileByte s.disk (s.itable ip).din (off + j)) ∨
    ((s.itable ip).din.size ≤ off + j ∧
      slotAddr s.disk (s.itable ip).din (slotOf ((off + j) / bsize)) ∈ s.logged)

def FaultUnseen (s : Fs) (ip : Nat) (src : Src) (off n : Nat) : Prop :=
  ∀ k < n, src k = none → (∀ i < k, src i ≠ none) →
    ∀ j < k, (off + j) / bsize = (off + k) / bsize → Unseen s ip src off j

section

variable {n w j x b : Nat} {s₀ s₁ : Fs}

lemma Faulted.block (h : Faulted ip src n off 0 w s s₀ s₁)
    (hj : j ≤ (lastCopy src off 0 w n).length) : (off + (w + j)) / bsize = (off + w) / bsize := by
  have hshort := h.short
  have hb : bsize = 1024 := rfl
  rw [hb] at hshort ⊢
  omega

lemma copied_of_lt (hj : j < (lastCopy src off 0 w n).length) : ∃ v, src (w + j) = some v ∧
      (lastCopy src off 0 w n).getD j 0 = v := by
  have hpos : 0 + w + j = w + j := by omega
  have hne : src (0 + w + j) ≠ none := eitherCopyin_readable _ _ j hj
  have hget : (lastCopy src off 0 w n).getD j 0 = (src (0 + w + j)).getD 0 :=
    eitherCopyin_getD src _ _ hj
  rw [hpos] at hne hget
  obtain ⟨v, hv⟩ := Option.ne_none_iff_exists'.mp hne
  rw [hv] at hget
  exact ⟨v, hv, hget⟩

lemma Faulted.unseen_iff (h : Faulted ip src n off 0 w s s₀ s₁) : FaultUnseen s ip src off n ↔
    ∀ j < (lastCopy src off 0 w n).length, Unseen s ip src off (w + j) := by
  have hstop : src (w + (lastCopy src off 0 w n).length) = none := by
    have hs : src (0 + w + (lastCopy src off 0 w n).length) = none := eitherCopyin_short h.short
    rwa [Nat.zero_add w] at hs
  have hread : ∀ i < w + (lastCopy src off 0 w n).length, src i ≠ none := by
    intro i hi
    by_cases hiw : i < w
    · have hr := h.read i hiw
      rwa [Nat.zero_add] at hr
    · have hlt : i - w < (lastCopy src off 0 w n).length := by omega
      obtain ⟨v, hv, -⟩ := copied_of_lt hlt
      rw [Nat.add_sub_cancel' (by omega)] at hv
      rw [hv]
      exact Option.some_ne_none v
  have hshort := h.short
  constructor
  · intro hu j hj
    refine hu _ (by omega) hstop hread _ (by omega) ?_
    rw [h.block (Nat.le_of_lt hj), h.block (Nat.le_refl _)]
  · intro hu k _ hnone hbefore j hj hblk
    -- `k` is the first byte that cannot be read
    obtain rfl : k = w + (lastCopy src off 0 w n).length := by
      refine Nat.le_antisymm (Nat.le_of_not_lt fun hlt => hbefore _ hlt hstop) ?_
      exact Nat.le_of_not_lt fun hlt => hread _ hlt hnone
    rw [h.block (Nat.le_refl _)] at hblk
    have hw : w ≤ j := by
      have hb : bsize = 1024 := rfl
      have hstart := h.start
      rw [hb] at hblk hstart
      omega
    have huj := hu (j - w) (by omega)
    rwa [Nat.add_sub_cancel' hw] at huj

lemma Faulted.byte (h : Faulted ip src n off 0 w s s₀ s₁)
    (hj : j < (lastCopy src off 0 w n).length) :
    src (w + j) = some (fileByte s₁.disk (s₁.itable ip).din (off + (w + j))) := by
  obtain ⟨v, hv, hget⟩ := copied_of_lt hj
  rw [h.bytes, if_pos (by omega), show off + (w + j) - (off + w) = j by omega, hget, hv]

lemma Faulted.byte_of_not_mem (h : Faulted ip src n off 0 w s s₀ s₁)
    (hout : ¬ (off ≤ x ∧ x < off + w)) (hx : ∀ j < (lastCopy src off 0 w n).length,
      x ≠ off + (w + j)) :
    fileByte s₁.disk (s₁.itable ip).din x = fileByte s.disk (s.itable ip).din x := by
  rw [h.bytes, if_neg ?_, h.counted.outside x hout]
  rintro ⟨h1, h2⟩
  exact hx (x - (off + w)) (by omega) (by omega)

lemma Faulted.bytes_iff (h : Faulted ip src n off 0 w s s₀ s₁) (size : Nat) :
    (∀ x < size, ¬ (off ≤ x ∧ x < off + w) →
      fileByte s₁.disk (s₁.itable ip).din x = fileByte s.disk (s.itable ip).din x) ↔
    ∀ j < (lastCopy src off 0 w n).length, off + (w + j) < size →
      src (w + j) = some (fileByte s.disk (s.itable ip).din (off + (w + j))) := by
  constructor
  · intro hold j hj hlt
    rw [h.byte hj, hold _ hlt (by omega)]
  · intro hsame x hx hout
    by_cases hmem : ∃ j < (lastCopy src off 0 w n).length, x = off + (w + j)
    · obtain ⟨j, hj, rfl⟩ := hmem
      have hb := h.byte hj
      rw [hsame j hj hx] at hb
      exact (Option.some.inj hb).symm
    · exact h.byte_of_not_mem hout fun j hj heq => hmem ⟨j, hj, heq⟩

lemma Faulted.mod_eq (h : Faulted ip src n off 0 w s s₀ s₁)
    (hj : j < (lastCopy src off 0 w n).length) :
    (off + (w + j)) % bsize = (off + w) % bsize + j := by
  have hshort := h.short
  have hb : bsize = 1024 := rfl
  rw [hb] at hshort ⊢
  omega

lemma Faulted.disk_eq (h : Faulted ip src n off 0 w s s₀ s₁) {a : Nat}
    (ha : slotAddr s₀.disk (s₀.itable ip).din (slotOf ((off + w) / bsize)) = a) :
    s₁.disk = Function.update s₀.disk a
      ((s₀.disk a).patch ((off + w) % bsize) (lastCopy src off 0 w n)) := by
  have hstored := h.stored
  rw [ha] at hstored
  rw [hstored, Fs.setBlock]

lemma Faulted.get_stored (h : Faulted ip src n off 0 w s s₀ s₁) {a : Nat}
    (ha : slotAddr s₀.disk (s₀.itable ip).din (slotOf ((off + w) / bsize)) = a)
    (hj : j < (lastCopy src off 0 w n).length) :
    src (w + j) = some ((s₁.disk a).get ((off + (w + j)) % bsize)) := by
  obtain ⟨v, hv, hget⟩ := copied_of_lt hj
  have hshort := h.short
  rw [h.disk_eq ha, Function.update_self, h.mod_eq hj,
    Bytes.get_patch_of_mem _ (by omega) hj, hget, hv]

lemma Faulted.changed_iff (h : Faulted ip src n off 0 w s s₀ s₁) (hf : Flushed ip s₁ s') :
    (∀ b, s'.disk b ≠ s.disk b → b ∈ s'.logged) ↔
    (slotAddr s.disk (s.itable ip).din (slotOf ((off + w) / bsize)) = 0 ∨
      (∀ j < (lastCopy src off 0 w n).length,
        src (w + j) = some (fileByte s.disk (s.itable ip).din (off + (w + j)))) ∨
      slotAddr s.disk (s.itable ip).din (slotOf ((off + w) / bsize)) ∈ s.logged) := by
  have hlog : s₁.logged = s₀.logged := by rw [h.stored, Fs.setBlock]
  have hsb : s₁.sb = s₀.sb := by rw [h.stored, Fs.setBlock]
  have hpool := h.pool
  have hfresh := h.fresh
  have hkept := h.kept
  unfold BlockKept at hkept
  rw [← hsb] at hpool
  generalize ha : slotAddr s₀.disk (s₀.itable ip).din (slotOf ((off + w) / bsize)) = a
    at hpool hfresh hkept
  -- where the file had the block before, its bytes against those of the source
  have hbyte : slotAddr s.disk (s.itable ip).din (slotOf ((off + w) / bsize)) ≠ 0 →
      ∀ j < (lastCopy src off 0 w n).length, fileByte s.disk (s.itable ip).din (off + (w + j)) =
        (s.disk a).get ((off + (w + j)) % bsize) := by
    intro h0 j hj
    rw [(hkept h0).1]
    refine fileByte_of_addr ?_ h0
    rw [h.block (Nat.le_of_lt hj)]
  constructor
  · intro hall
    by_cases h0 : slotAddr s.disk (s.itable ip).din (slotOf ((off + w) / bsize)) = 0
    · exact .inl h0
    · refine .inr (or_iff_not_imp_left.mpr fun hdiff => (hkept h0).2 ?_)
      rw [← (hkept h0).1, ← hlog]
      refine hf.logged a hpool (hall a fun heq => hdiff fun j hj => ?_)
      rw [h.get_stored ha hj, hbyte h0 j hj, ← heq, hf.disk a hpool]
  · intro hcase b hb
    by_contra hout
    have hout₀ : b ∉ s₀.logged := fun hmem => hout (hf.recorded.kept b (by rwa [hlog]))
    have hsame : s'.disk b = s₁.disk b := by_contra fun hne => hout (hf.recorded.changed b hne)
    have hold : s₀.disk b = s.disk b :=
      by_contra fun hne => hout₀ (h.counted.recorded.changed b hne)
    have hput := h.disk_eq ha
    by_cases hba : b = a
    · subst hba
      have h0 : slotAddr s.disk (s.itable ip).din (slotOf ((off + w) / bsize)) ≠ 0 :=
        fun h0 => hout₀ (hfresh h0)
      rcases hcase with hz | heq | hmem
      · exact h0 hz
      · refine hb (hsame.trans ?_)
        rw [← hold]
        refine Bytes.ext_get fun i hi => ?_
        by_cases hi' : ∃ j < (lastCopy src off 0 w n).length, i = (off + (w + j)) % bsize
        · obtain ⟨j, hj, rfl⟩ := hi'
          have hget := h.get_stored ha hj
          rw [heq j hj, hbyte h0 j hj] at hget
          rw [hold]
          exact (Option.some.inj hget).symm
        · rw [hput, Function.update_self]
          refine Bytes.get_patch_of_not_mem _ ?_
          by_contra hin
          have hlt : i - (off + w) % bsize < (lastCopy src off 0 w n).length := by omega
          exact hi' ⟨_, hlt, by rw [h.mod_eq hlt]; omega⟩
      · rw [← (hkept h0).1] at hmem
        exact hout₀ (h.counted.recorded.kept _ hmem)
    · refine hb (hsame.trans ?_)
      rw [hput, Function.update_of_ne hba, hold]

end

/-- The tests at the start of `writei`. -/
def WriteRefused (size : Nat) (off n : UInt32) : Prop :=
  off.toNat > size ∨ off + n < off ∨ (off + n).toNat > maxfile * bsize

lemma writei_node (hi : FsInv s) (hip : Loaded ip s) (htx : 1 ≤ s.outstanding)
    (hm : s.node (s.itable ip).inum = some m) (off n : UInt32) (hsrc : ∀ j < n.toNat, src j ≠ none) :
    Sat (writei ip src off n) s E fun r s' =>
      (r = -1 ∧ s' = s ∧ WriteRefused m.size off n) ∨ ∃ w : Nat, r = w ∧ w ≤ n.toNat ∧
        ¬ WriteRefused m.size off n ∧ off.toNat ≤ m.size ∧ (w < n.toNat → s'.Full) ∧
        s'.node = Function.update s.node (s.itable ip).inum
        (some (m.write off.toNat (srcBytes src w))) := by
  have hcongr : writei ip src off n = writei ip (fun j => some ((src j).getD 0)) off n := by
    refine writei_congr fun j hj => ?_
    cases h : src j with
    | none => exact absurd h (hsrc j hj)
    | some v => rfl
  obtain ⟨-, -, hsz⟩ := hi.node_type hip hm
  rw [hcongr]
  refine ((writei_sat hi hip htx off n).and (writei_audit hi hip htx off n)).imp ?_
  rintro r s' ⟨⟨rfl, rfl, hwhy⟩ | ⟨w, rfl, hw⟩, haud⟩
  · exact .inl ⟨rfl, rfl, by rw [← hsz]; exact hwhy⟩
  · have hend := hw.end_le
    have hoff := hw.off_le
    have hmax : maxfile * bsize = 274432 := rfl
    refine .inr ⟨w, rfl, hw.le, ?_, by omega, fun hlt => ?_, ?_⟩
    · have hsum : (off + n).toNat = off.toNat + n.toNat := by
        rw [UInt32.toNat_add]
        omega
      rintro (h1 | h1 | h1)
      · omega
      · rw [UInt32.lt_iff_toNat_lt] at h1
        omega
      · omega
    · obtain ⟨s₁, -, hflush, ⟨-, hstop⟩ | ⟨s₀, hf⟩⟩ := haud w rfl
      · exact hflush.full (hstop hlt).1
      · exact absurd (eitherCopyin_short hf.short) (Option.some_ne_none _)
    · have hnode := hw.node_write hi hip (fun j => Option.some_ne_none _) hm
      rw [hnode]
      congr 3

end

end Xv6
