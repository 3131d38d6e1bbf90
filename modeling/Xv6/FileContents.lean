import Xv6.FileIo
import Xv6.WriteCost
import Xv6.SysSafety
import Xv6.PipeDelivery
import Xv6.ConsoleSafety

/-! Reading and writing files: what `readi`, `writei` and `fileread` deliver. -/

namespace Xv6

open Kern

section

variable {ip : Nat} {s s' : Fs} {src : Src} {m : FileNode} {off n : UInt32}

lemma FsInv.fileSlice_eq (hi : FsInv s) (hip : Loaded ip s)
    (hm : s.node (s.itable ip).inum = some m) {off k : Nat} (hk : off + k ≤ m.size) :
    fileSlice s.disk (s.itable ip).din off k = (m.bytes.drop off).take k := by
  rw [(hi.node_loaded hip).1] at hm
  obtain ⟨-, rfl⟩ := nodeOf_some hm
  refine List.ext_getElem? fun j => ?_
  by_cases hj : j < k
  · have hlt : off + j < ((s.itable ip).din.toNode s.disk).size := by omega
    rw [List.getElem?_take_of_lt hj, List.getElem?_drop, FileNode.bytes_getElem? hlt]
    simp only [fileSlice, List.getElem?_map, List.getElem?_range hj, Option.map_some]
    exact congrArg some (if_pos hlt).symm
  · rw [List.getElem?_eq_none (by simp [fileSlice]; omega),
      List.getElem?_eq_none (by rw [List.length_take]; omega)]

lemma readLen_eq (size : Nat) (off n : UInt32) : readLen size off n =
    if off.toNat ≤ size ∧ ¬ off + n < off then min n.toNat (size - off.toNat) else 0 := by
  unfold readLen
  by_cases h : off.toNat > size ∨ off + n < off
  · rw [if_pos h, if_neg (by rintro ⟨h1, h2⟩; exact h.elim (fun h => by omega) h2)]
  · rw [if_neg h, if_pos ⟨by omega, fun h2 => h (.inr h2)⟩]

lemma readi_node (hi : FsInv s) (hip : Loaded ip s) (hm : s.node (s.itable ip).inum = some m)
    (off n : UInt32) {dst : Dst}
    {k : Nat} (hk : k = readLen m.size off n) (hdst : ∀ j < k, dst j = true) :
    readi ip dst off n s = .ok (((k : Int), (m.bytes.drop off.toNat).take k), s) := by
  obtain ⟨-, -, hsz⟩ := hi.node_type hip hm
  rw [← hsz] at hk
  obtain ⟨r, s', hrun, rfl, hr⟩ :=
    (readi_any (hi.solid_of_loaded hip) dst off n (E := fun _ => False)).returns
  rw [hrun]
  rcases hr with ⟨rfl, -⟩ | ⟨-, j, hj, -, hf, -⟩
  · have hle : k = 0 ∨ off.toNat + k ≤ m.size := by
      rw [hk, hsz, readLen_eq]
      split <;> omega
    rw [← hk]
    rcases hle with h0 | hle
    · subst h0
      rfl
    · rw [hi.fileSlice_eq hip hm hle]
  · rw [hdst j (by omega)] at hf
    cases hf

lemma writei_refused (h : WriteRefused (s.itable ip).din.size off n) :
    writei ip src off n s = .ok (-1, s) := by
  have hsat : Sat (writei ip src off n) s (fun _ => False) fun r s' => r = -1 ∧ s' = s := by
    unfold writei
    rw [sat_bind, sat_getState]
    split
    · exact sat_pure.mpr ⟨rfl, rfl⟩
    next hc =>
      rw [if_pos ((or_assoc.mpr h).resolve_left hc)]
      exact sat_pure.mpr ⟨rfl, rfl⟩
  obtain ⟨r, s', hr, rfl, rfl⟩ := hsat.returns
  exact hr

/-- What `writei` and `readi` do to a file, as the string of its first `size` bytes. `writei` may
find the log full, but only if there is not room for all blocks of the write, the indirect block
and as many bitmap blocks. -/
theorem writei_readi_contents (hi : FsInv s) (hip : Loaded ip s)
    (hm : s.node (s.itable ip).inum = some m) (off n : UInt32) :
    (∀ src : Src, (∀ j < n.toNat, src j ≠ none) → 1 ≤ s.outstanding →
      (writei ip src off n s = .error "too big a transaction" ∧
        ¬ (off.toNat > m.size ∨ off + n < off ∨ (off + n).toNat > maxfile * bsize) ∧
        s.logCap ≤ s.logged.length + writeBlocks s.sb off.toNat n.toNat) ∨
      ∃ r s', writei ip src off n s = .ok (r, s') ∧
        (r = -1 ↔ off.toNat > m.size ∨ off + n < off ∨ (off + n).toNat > maxfile * bsize) ∧
        (r = -1 → s' = s) ∧
        (r ≠ -1 → ∃ tot : Nat, r = tot ∧ tot ≤ n.toNat ∧
          (tot < n.toNat → ∀ c < s'.sb.size, s'.bit c = true) ∧
          (∃ m', s'.node (s.itable ip).inum = some m' ∧ m'.size = max m.size (off.toNat + tot) ∧
            m'.bytes = m.bytes.take off.toNat ++ srcBytes src tot ++
              m.bytes.drop (off.toNat + tot)) ∧
          ∀ j, j ≠ (s.itable ip).inum → s'.node j = s.node j)) ∧
    ∀ (dst : Dst) (k : Nat), k = (if off.toNat ≤ m.size ∧ ¬ off + n < off then
        min n.toNat (m.size - off.toNat) else 0) → (∀ j < k, dst j = true) →
      readi ip dst off n s = .ok (((k : Int), (m.bytes.drop off.toNat).take k), s) := by
  constructor
  · intro src hsrc htx
    have hfits := (hi.editing hip htx).layout.bitmapFits
    have hsat := sat_of_cost (writei_node hi hip htx hm off n hsrc) fun hroom =>
      (writei_cost (e := 0) hfits htx off n hroom).imp fun _ _ _ => trivial
    cases hrun : writei ip src off n s with
    | error e =>
      obtain ⟨rfl, hroom⟩ := hsat.of_error hrun
      refine .inl ⟨rfl, fun href => ?_, hroom⟩
      obtain ⟨-, -, hsz⟩ := hi.node_type hip hm
      rw [writei_refused (by rw [hsz]; exact href)] at hrun
      cases hrun
    | ok x =>
      obtain ⟨r, s'⟩ := x
      refine .inr ⟨r, s', rfl, ?_⟩
      rcases hsat.of_ok hrun with ⟨rfl, rfl, hwhy⟩ | ⟨w, rfl, hle, hok, hoff, hfull, hnode⟩
      · exact ⟨⟨fun _ => hwhy, fun _ => rfl⟩, fun _ => rfl, fun h => absurd rfl h⟩
      · refine ⟨⟨fun h => by omega, fun h => absurd h hok⟩, fun h => by omega,
          fun _ => ⟨w, rfl, hle, hfull, ?_, ?_⟩⟩
        · refine ⟨_, by rw [hnode, Function.update_self], ?_, ?_⟩
          · simp [FileNode.write]
          · rw [FileNode.bytes_write _ hoff, srcBytes_length]
        · intro j hj
          rw [hnode, Function.update_of_ne hj]
  · intro dst k hk hdst
    rw [← readLen_eq] at hk
    exact readi_node hi hip hm off n hk hdst

end

lemma loaded_of_calls {calls : List (Nat × Call)} {t : Sys} {ip : Nat}
    (h : callsFromBoot calls = some t)
    (hip : ip < ninode) (href : (t.fs.itable ip).ref ≠ 0) (hvalid : (t.fs.itable ip).valid = true) :
    FsInv { t.fs with outstanding := 1 } ∧ Loaded ip { t.fs with outstanding := 1 } := by
  obtain ⟨hist, hr⟩ := reach_of_calls h
  have hrun := (sysMachine_inv rootImage_image hr).run
  refine ⟨⟨hrun.inv.toDiskInv.congr rfl rfl, ?_⟩, hip, Nat.pos_of_ne_zero href, hvalid⟩
  exact ⟨hrun.inv.inum, hrun.inv.unique, hrun.inv.coherent⟩

def createCall : Nat × Call := (0, .open (some [102]) (oCreate + oRdwr))

def fileCalls : List (Nat × Call) := [createCall, (0, .write 0 (kernelSrc [1, 2, 3, 4]) 4 0)]

lemma fileCalls_loaded : ∃ t m, callsFromBoot fileCalls = some t ∧
    FsInv { t.fs with outstanding := 1 } ∧ Loaded 1 { t.fs with outstanding := 1 } ∧
    (t.fs.itable 1).din.type = tFile ∧ t.fs.node (t.fs.itable 1).inum = some m ∧ m.size = 4 := by
  have htest : (callsFromBoot fileCalls).any (fun t =>
      decide ((t.fs.itable 1).ref ≠ 0) && decide ((t.fs.itable 1).valid = true) &&
      decide ((t.fs.itable 1).din.type = tFile) &&
        decide ((t.fs.itable 1).din.size = 4)) = true := by
    decide +kernel
  obtain ⟨t, ht, htest⟩ := (Option.any_eq_true _ _).mp htest
  simp only [Bool.and_eq_true, decide_eq_true_eq] at htest
  obtain ⟨⟨⟨href, hvalid⟩, htype⟩, hsize⟩ := htest
  obtain ⟨hi, hip⟩ := loaded_of_calls ht (by decide) href hvalid
  obtain ⟨m, hm⟩ := Option.ne_none_iff_exists'.mp (hi.node_loaded hip).2
  obtain ⟨-, -, hsz⟩ := hi.node_type hip hm
  exact ⟨t, m, ht, hi, hip, htype, hm, hsz.symm.trans hsize⟩

theorem writei_readi_contents_file : ∃ (s : Fs) (m m' : FileNode) (s' : Fs), FsInv s ∧ Loaded 1 s ∧
    1 ≤ s.outstanding ∧ s.node (s.itable 1).inum = some m ∧ m.size = 4 ∧
    writei 1 (kernelSrc [8, 9]) 3 2 s = .ok (2, s') ∧ s'.node (s.itable 1).inum = some m' ∧
    m'.bytes = m.bytes.take 3 ++ [8, 9] ∧
    readi 1 kernelDst 1 4 s = .ok ((3, m.bytes.drop 1), s) := by
  obtain ⟨t, m, ht, hi, hip, -, hm, hsize⟩ := fileCalls_loaded
  have htest : (callsFromBoot fileCalls).any (fun t =>
      match writei 1 (kernelSrc [8, 9]) 3 2 { t.fs with outstanding := 1 } with
      | .ok (r, _) => decide (r = 2)
      | .error _ => false) = true := by
    decide +kernel
  rw [ht, Option.any_some] at htest
  have hlen := m.bytes_length
  split at htest
  next r s' hrun =>
    obtain rfl := of_decide_eq_true htest
    rcases (writei_readi_contents hi hip hm 3 2).1 (kernelSrc [8, 9]) (fun _ _ => nofun)
      (Nat.le_refl 1) with ⟨herr, -⟩ | ⟨r, s₁, hrun', -, -, hok⟩
    · rw [hrun] at herr
      cases herr
    · rw [hrun] at hrun'
      cases hrun'
      obtain ⟨tot, htot, -, -, ⟨m', hm', -, hbytes⟩, -⟩ := hok (by decide)
      obtain rfl : tot = 2 := Int.ofNat_inj.mp htot.symm
      refine ⟨_, m, m', s', hi, hip, Nat.le_refl 1, hm, hsize, hrun, hm', ?_, ?_⟩
      · rw [hbytes, List.drop_eq_nil_of_le (by rw [hlen, hsize]; decide), List.append_nil]
        rfl
      · have hread := (writei_readi_contents hi hip hm 1 4).2 kernelDst 3 (by rw [hsize]; rfl)
          fun _ _ => rfl
        rwa [List.take_of_length_le (by rw [List.length_drop, hlen, hsize]; decide)] at hread
  next => cases htest

/-- A write of 27 blocks to the empty file, the log being empty and most of the disk free: with the
indirect block and the bitmap block the header of the log is full when the inode comes. -/
theorem writei_log_full : ∃ (s : Fs) (m : FileNode), FsInv s ∧ Loaded 1 s ∧ 1 ≤ s.outstanding ∧
    s.logged = [] ∧ s.node (s.itable 1).inum = some m ∧ m.size = 0 ∧
    (∀ c < s.sb.size, 100 ≤ c → s.bit c = false) ∧
    writei 1 (fun _ => some 7) 0 27648 s = .error "too big a transaction" := by
  have htest : (callsFromBoot [createCall]).any (fun t =>
      decide ((t.fs.itable 1).ref ≠ 0) && decide ((t.fs.itable 1).valid = true) &&
      decide ((t.fs.itable 1).din.size = 0) && decide (t.fs.logged = []) &&
      decide (∀ c < t.fs.sb.size, 100 ≤ c → t.fs.bit c = false) &&
      match writei 1 (fun _ => some 7) 0 27648 { t.fs with outstanding := 1 } with
      | .ok _ => false
      | .error e => decide (e = "too big a transaction")) = true := by
    decide +kernel
  obtain ⟨t, ht, htest⟩ := (Option.any_eq_true _ _).mp htest
  simp only [Bool.and_eq_true, decide_eq_true_eq] at htest
  obtain ⟨⟨⟨⟨⟨href, hvalid⟩, hsize⟩, hlog⟩, hfree⟩, hrun⟩ := htest
  obtain ⟨hi, hip⟩ := loaded_of_calls ht (by decide) href hvalid
  obtain ⟨m, hm⟩ := Option.ne_none_iff_exists'.mp (hi.node_loaded hip).2
  obtain ⟨-, -, hsz⟩ := hi.node_type hip hm
  refine ⟨_, m, hi, hip, Nat.le_refl 1, hlog, hm, hsz.symm.trans hsize, hfree, ?_⟩
  split at hrun
  next => cases hrun
  next e herr =>
    obtain rfl := of_decide_eq_true hrun
    exact herr

section

variable {ip tot : Nat} {s s' : Fs} {src : Src} {m : FileNode}

/-- A call of `writei` has stopped at a byte of the source that cannot be read; that there was a
block to write to shows that this is why. The file has kept its bytes, and what has changed is in
the log, if and only if none of the bytes in that block before the fault has made a difference. -/
theorem writei_fault_keeps_file (hi : FsInv s) (hip : Loaded ip s)
    (hm : s.node (s.itable ip).inum = some m) (htx : 1 ≤ s.outstanding) (off n : UInt32)
    (hrun : writei ip src off n s = .ok ((tot : Int), s')) (hlt : tot < n.toNat)
    (hblock : fileBlock s'.disk (s'.itable ip).din ((off.toNat + tot) / bsize) ≠ none) :
    ((∃ m', s'.node (s.itable ip).inum = some m' ∧
        ∀ x < m.size, ¬ (off.toNat ≤ x ∧ x < off.toNat + tot) → m'.data x = m.data x) ∧
      ∀ b, s'.disk b ≠ s.disk b → b ∈ s'.logged) ↔
    FaultUnseen s ip src off.toNat n.toNat := by
  have hwrite := (writei_sat hi hip htx off n (E := .any)).of_ok hrun
  obtain ⟨s₁, -, hflush, hcase⟩ := (writei_audit hi hip htx off n (E := .any)).of_ok hrun tot rfl
  -- on a full disk the loop stops because there is no block
  have hf : ∃ s₀, Faulted ip src n.toNat off.toNat 0 tot s s₀ s₁ := by
    refine hcase.resolve_left fun hfull => hblock (fileBlock_eq_none.mpr ?_)
    rw [hflush.slots, (hfull.2 hlt).2]
  obtain ⟨s₀, hf⟩ := hf
  have hnode : (∃ m', s'.node (s.itable ip).inum = some m' ∧
      ∀ x < m.size, ¬ (off.toNat ≤ x ∧ x < off.toNat + tot) → m'.data x = m.data x) ↔
      ∀ x < m.size, ¬ (off.toNat ≤ x ∧ x < off.toNat + tot) →
        fileByte s₁.disk (s₁.itable ip).din x = fileByte s.disk (s.itable ip).din x := by
    obtain ⟨w, hw, hwrote⟩ := hwrite.resolve_left fun h => by omega
    obtain rfl : tot = w := Int.ofNat_inj.mp hw
    have hnode := hwrote.saved.node (hi.inum ip hip.lt hip.ref)
    rw [(hi.node_loaded hip).1] at hm
    obtain ⟨hne, rfl⟩ := nodeOf_some hm
    have hnew : s'.node (s.itable ip).inum = some ((s'.itable ip).din.toNode s'.disk) := by
      rw [hnode, Function.update_self, nodeOf, if_neg (by rw [hwrote.type]; exact hne)]
    have hsize : (s'.itable ip).din.size = max (s.itable ip).din.size (off.toNat + tot) :=
      hwrote.size
    have hdata : ∀ x < ((s.itable ip).din.toNode s.disk).size,
        (((s'.itable ip).din.toNode s'.disk).data x = ((s.itable ip).din.toNode s.disk).data x ↔
          fileByte s₁.disk (s₁.itable ip).din x = fileByte s.disk (s.itable ip).din x) := by
      intro x hx
      have hx' : x < (s.itable ip).din.size := hx
      simp only [Dinode.toNode]
      rw [if_pos (by omega), if_pos hx', hflush.bytes]
    constructor
    · rintro ⟨m', hm', hold⟩ x hx hout
      obtain rfl : _ = m' := Option.some.inj (hnew.symm.trans hm')
      exact (hdata x hx).mp (hold x hx hout)
    · intro hold
      exact ⟨_, hnew, fun x hx hout => (hdata x hx).mpr (hold x hx hout)⟩
  obtain ⟨-, -, hsz⟩ := hi.node_type hip hm
  rw [hnode, hf.bytes_iff, hf.changed_iff hflush, hf.unseen_iff, ← hsz]
  constructor
  · rintro ⟨hold, hlog⟩ j hj
    unfold Unseen
    rw [hf.block (Nat.le_of_lt hj), fileBlock_eq_none]
    rcases hlog with h0 | hall | hmem
    · exact .inl h0
    · exact .inr (.inl (hall j hj))
    · by_cases hin : off.toNat + (tot + j) < (s.itable ip).din.size
      · exact .inr (.inl (hold j hj hin))
      · exact .inr (.inr ⟨by omega, hmem⟩)
  · intro hun
    unfold Unseen at hun
    refine ⟨fun j hj hin => ?_, ?_⟩
    · rcases hun j hj with h0 | h | h
      · exact absurd h0 ((hi.solid_of_loaded hip).at hin)
      · exact h
      · omega
    · by_contra hno
      obtain ⟨h0, hno⟩ := not_or.mp hno
      obtain ⟨hdiff, hmem⟩ := not_or.mp hno
      refine hdiff fun j hj => ?_
      have hj' := hun j hj
      rw [hf.block (Nat.le_of_lt hj), fileBlock_eq_none] at hj'
      exact (hj'.resolve_left h0).resolve_right fun h => hmem h.2

end

def userBytes (k : Nat) (v : UInt8) : Src := fun j => if j < k then some v else none

/-- The source of a write of four bytes cannot be read at all. -/
theorem writei_fault_keeps_file_unmapped : ∃ (s s' : Fs) (m : FileNode), FsInv s ∧ Loaded 1 s ∧
    s.node (s.itable 1).inum = some m ∧ m.size = 4 ∧
    writei 1 (userBytes 0 9) 0 4 s = .ok (((0 : Nat) : Int), s') ∧
    (∃ m', s'.node (s.itable 1).inum = some m' ∧
      ∀ x < m.size, ¬ (0 ≤ x ∧ x < 0 + 0) → m'.data x = m.data x) ∧
    ∀ b, s'.disk b ≠ s.disk b → b ∈ s'.logged := by
  obtain ⟨t, m, ht, hi, hip, -, hm, hsize⟩ := fileCalls_loaded
  have htest : (callsFromBoot fileCalls).any (fun t =>
      match writei 1 (userBytes 0 9) 0 4 { t.fs with outstanding := 1 } with
      | .ok (r, s') => decide (r = ((0 : Nat) : Int)) &&
        decide (slotAddr s'.disk (s'.itable 1).din (slotOf 0) ≠ 0)
      | .error _ => false) = true := by
    decide +kernel
  rw [ht, Option.any_some] at htest
  split at htest
  next r s' hrun =>
    simp only [Bool.and_eq_true, decide_eq_true_eq] at htest
    obtain ⟨rfl, haddr⟩ := htest
    have hun : FaultUnseen { t.fs with outstanding := 1 } 1 (userBytes 0 9) (0 : UInt32).toNat
        (4 : UInt32).toNat := fun k _ _ hbefore j hj _ => absurd rfl (hbefore j hj)
    have hkeep := (writei_fault_keeps_file hi hip hm (Nat.le_refl 1) 0 4 hrun (by decide)
      fun hnone => haddr (fileBlock_eq_none.mp hnone)).mpr hun
    exact ⟨_, s', m, hi, hip, hm, hsize, hrun, hkeep.1, hkeep.2⟩
  next => cases htest

/-- The source of a write of four bytes to the file ends after one byte: `writei` returns 0, but
the first byte of the file has changed, and its block is not logged. -/
theorem writei_fault_corrupts : ∃ s s' : Fs, FsInv s ∧ Loaded 1 s ∧ 1 ≤ s.outstanding ∧
    (s.itable 1).din.type = tFile ∧ writei 1 (userBytes 1 9) 0 4 s = .ok (0, s') ∧
    0 < (s.itable 1).din.size ∧ fileBlock s'.disk (s'.itable 1).din 0 ≠ none ∧
    fileByte s'.disk (s'.itable 1).din 0 ≠ fileByte s.disk (s.itable 1).din 0 ∧
    ∃ b, (s'.disk b).get 0 ≠ (s.disk b).get 0 ∧ b ∉ s'.logged := by
  obtain ⟨t, m, ht, hi, hip, htype, hm, hsize⟩ := fileCalls_loaded
  have htest : (callsFromBoot fileCalls).any (fun t =>
      match writei 1 (userBytes 1 9) 0 4 { t.fs with outstanding := 1 } with
      | .ok (r, s') => decide (r = 0) && decide (0 < (t.fs.itable 1).din.size) &&
        decide (slotAddr s'.disk (s'.itable 1).din (slotOf 0) ≠ 0) &&
        decide (fileByte s'.disk (s'.itable 1).din 0 ≠ fileByte t.fs.disk (t.fs.itable 1).din 0) &&
        decide ((s'.disk ((t.fs.itable 1).din.addrs 0)).get 0 ≠
          (t.fs.disk ((t.fs.itable 1).din.addrs 0)).get 0) &&
        decide ((t.fs.itable 1).din.addrs 0 ∉ s'.logged)
      | .error _ => false) = true := by
    decide +kernel
  rw [ht, Option.any_some] at htest
  split at htest
  next r s' hrun =>
    simp only [Bool.and_eq_true, decide_eq_true_eq] at htest
    obtain ⟨⟨⟨⟨⟨rfl, hpos⟩, haddr⟩, hbyte⟩, hblk⟩, hlog⟩ := htest
    exact ⟨_, s', hi, hip, Nat.le_refl 1, htype, hrun, hpos,
      fun hnone => haddr (fileBlock_eq_none.mp hnone), hbyte, _, hblk, hlog⟩
  next => cases htest

/-- `fileread` with the bytes it stores; `ext` is what `piperead` or the driver returns and stores. -/
def filereadOut (p f : Nat) (dst : Dst) (n : UInt32) (ext : Int × List UInt8) :
    SysProg (Int × List UInt8) := do
  let s ← sysStep getState
  let ff := s.file f
  if ff.readable = false then pure (-1, [])
  else
    match ff.type with
    | .pipe => pure ext
    | .device => if short ff.major < 0 ∨ short ff.major ≥ ndev then pure (-1, []) else pure ext
    | .inode =>
      onFs (ilock p ff.ip)
      let (r, out) ← onFs (fsStep (readi ff.ip dst ff.off n))
      if r > 0 then
        sysStep (modifyState fun s => s.setFile f { s.file f with
          off := (s.file f).off + .ofNat r.toNat })
      onFs (iunlock p ff.ip)
      pure (r, out)
    | .none => sysStep (Kern.panic "fileread")

def consoleMajor : Nat := 1

/-- What a read of a pipe or a device gives: `piperead` on a pipe, `consoleread` on the console,
and -1 where there is no driver. -/
def ExtRead (ff : File) (dst : Dst) (n : Int) (ext : Int × List UInt8) : Prop :=
  (ff.type = .pipe → PipereadReturns ⟨dst, n⟩ ext.1 ext.2) ∧
  (ff.type = .device → ff.major = consoleMajor ∧ ConsolereadReturns ⟨dst, n⟩ ext.1 ext.2 ∨
    ff.major ≠ consoleMajor ∧ ext = (-1, []))

section

variable {sb : Superblock} {lost : Nat → Prop} {s s' : Sys} {p f : Nat} {dst : Dst} {n : Int}
  {ext : Int × List UInt8} {E : String → Prop}

lemma Thread.bind_assoc {L σ α β γ : Type} (t : Thread L σ α) (g : α → Thread L σ β)
    (h : β → Thread L σ γ) : (t.bind g).bind h = t.bind fun a => (g a).bind h := by
  induction t with
  | ret a => rfl
  | act l en k next ih => exact congrArg (Thread.act l en k) (funext fun b => ih b)

lemma Thread.run_bind_congr {L σ α β : Type} {g h : α → Thread L σ β}
    (hgh : ∀ a s, (g a).run s = (h a).run s)
    (t : Thread L σ α) (s : σ) : (t.bind g).run s = (t.bind h).run s := by
  induction t generalizing s with
  | ret a => exact hgh a s
  | act l en k next ih =>
    simp only [Thread.bind, Thread.run]
    split
    · split
      · exact ih _ _
      · rfl
    · rfl

lemma fileread_run (p f : Nat) (dst : Dst) (k : UInt32) (ext : Int × List UInt8) (s : Sys) :
    (fileread p f dst k ext.1).run s = ((filereadOut p f dst k ext).bind fun r => pure r.1).run s := by
  unfold fileread filereadOut
  rw [show ∀ (t : SysProg Sys) (g : Sys → SysProg (Int × List UInt8)), (t >>= g) = t.bind g from
    fun _ _ => rfl, Thread.bind_assoc]
  refine Thread.run_bind_congr (fun s s1 => ?_) _ _
  dsimp only
  by_cases hr : (s.file f).readable = false
  · rw [if_pos hr, if_pos hr]
    rfl
  · rw [if_neg hr, if_neg hr]
    cases (s.file f).type with
    | none | pipe => rfl
    | device =>
      dsimp only
      split <;> rfl
    | inode =>
      dsimp only
      refine Eq.trans ?_ (congrArg (Thread.run · s1) (Thread.bind_assoc ..).symm)
      refine Thread.run_bind_congr (fun _ s2 => ?_) _ _
      refine Eq.trans ?_ (congrArg (Thread.run · s2) (Thread.bind_assoc ..).symm)
      refine Thread.run_bind_congr (fun x s3 => ?_) _ _
      obtain ⟨r, out⟩ := x
      dsimp only
      split
      · rfl
      · refine Eq.trans ?_ (congrArg (Thread.run · s3) (Thread.bind_assoc ..).symm)
        rfl

variable {refs : List (Nat × Nat)} {locked : List Nat} {off : UInt32}

lemma readi_any_run {fs : Fs} {n ip i : Nat} {k : UInt32}
    (h : Run sb lost fs refs locked n) (hip : (ip, i) ∈ refs) (hl : ip ∈ locked) :
    Thread.Upholds FsInv (fsStep (readi ip dst off k)) fs E fun r fs' => fs' = fs ∧
      ReadResult fs.disk (fs.itable ip).din dst off.toNat
        (readLen (fs.itable ip).din.size off k) r := by
  refine Thread.upholds_step h.inv
    (readi_any (h.inv.solid_of_loaded (h.loaded hip hl)) dst off k) ?_
  rintro _ _ ⟨rfl, -⟩
  exact h.inv

lemma readLen_ofInt {size : Nat} (hn : -2 ^ 31 ≤ n ∧ n < 2 ^ 31) :
    (readLen size off (.ofInt n) : Int) ≤ max n 0 ↔ 0 ≤ n ∨ -n ≤ off.toNat ∨ size ≤ off.toNat := by
  have hto : ((UInt32.ofInt n).toNat : Int) = n % 2 ^ 32 := by
    rw [UInt32.ofInt, UInt32.toNat_ofNat']
    omega
  have hlt := off.toNat_lt
  rw [readLen_eq]
  split
  next h =>
    have hsum := add_toNat_of_not_lt h.2
    have hlt' := (off + UInt32.ofInt n).toNat_lt
    omega
  next h =>
    rw [UInt32.lt_iff_toNat_lt, UInt32.toNat_add] at h
    omega

lemma ReadResult.at_most_iff {disk : Disk} {d : Dinode} {r : Int × List UInt8}
    (hn : -2 ^ 31 ≤ n ∧ n < 2 ^ 31)
    (h : ReadResult disk d dst off.toNat (readLen d.size off (.ofInt n)) r) :
    (r.1 ≤ max n 0 ∧ (r.2.length : Int) ≤ max n 0) ↔
      0 ≤ n ∨ -n ≤ off.toNat ∨ d.size ≤ off.toNat ∨ dst 0 = false := by
  have hlen : (readLen d.size off (.ofInt n) : Int) ≤ _ ↔ _ := readLen_ofInt hn
  have hslice : ∀ k, (fileSlice disk d off.toNat k).length = k := fun k => by simp [fileSlice]
  rcases h with ⟨rfl, hall⟩ | ⟨hr, j, hj, hout, hfault, hbefore⟩
  · dsimp only
    rw [hslice, and_self, hlen]
    constructor
    · tauto
    · rintro (h | h | h | h)
      · exact .inl h
      · exact .inr (.inl h)
      · exact .inr (.inr h)
      · -- a first byte that cannot be stored is not read
        refine hlen.mp ?_
        by_contra hpos
        rw [hall 0 (by omega)] at h
        cases h
  · rw [hr, hout, hslice]
    constructor
    · rintro ⟨-, hle⟩
      by_cases hneg : 0 ≤ n
      · exact .inl hneg
      · obtain rfl : j = 0 := by omega
        exact .inr (.inr (.inr hfault))
    · intro hcase
      by_cases hd : dst 0 = false
      · have hj0 : j = 0 := by
          by_contra hne
          rw [hbefore 0 (by omega)] at hd
          cases hd
        omega
      · have hle := hlen.mpr (by tauto)
        omega

/-- When `fileread` keeps to `n`. -/
def ReadBounded (s : Sys) (f : Nat) (dst : Dst) (n : Int) : Prop :=
  (s.file f).type ≠ .inode ∨ (s.file f).readable = false ∨ 0 ≤ n ∨ -n ≤ (s.file f).off.toNat ∨
    (∃ m, s.fs.node (s.fs.itable (s.file f).ip).inum = some m ∧ m.size ≤ (s.file f).off.toNat) ∨
    dst 0 = false

lemma filereadOut_sat (h : SysInv sb lost s) (hf : f < nfile) (hpos : 0 < (s.file f).ref)
    (hn : -2 ^ 31 ≤ n ∧ n < 2 ^ 31) (hext : ExtRead (s.file f) dst n ext) (p : Nat) :
    Thread.Sat (filereadOut p f dst (.ofInt n) ext) s Panics.any fun r s' =>
      ((r.1 ≤ max n 0 ∧ (r.2.length : Int) ≤ max n 0) ↔ ReadBounded s f dst n) ∧
      ((s.file f).type = .inode →
        (s'.file f).off = if r.1 > 0 then (s.file f).off + .ofNat r.1.toNat else (s.file f).off) := by
  have hfail : (-1 : Int) ≤ max n 0 ∧ (([] : List UInt8).length : Int) ≤ max n 0 :=
    ⟨by omega, le_max_right _ _⟩
  unfold filereadOut
  refine getState_sat.bind ?_
  rintro x s1 ⟨rfl, hx⟩
  subst x
  dsimp only
  split
  next hread => exact ⟨iff_of_true hfail (.inr (.inl hread)), fun _ => rfl⟩
  next hread =>
  cases hty : (s1.file f).type with
  | none => exact absurd ((h.tables.typed f hf hpos).mp hty) List.not_mem_nil
  | pipe =>
    have hb := (hext.1 hty).bounded
    exact ⟨iff_of_true ⟨hb.1, hb.2⟩ (.inl (by rw [hty]; nofun)), nofun⟩
  | device =>
    have hcond : ReadBounded s1 f dst n := .inl (by rw [hty]; nofun)
    dsimp only
    split
    · exact ⟨iff_of_true hfail hcond, nofun⟩
    · rcases hext.2 hty with ⟨-, hc⟩ | ⟨-, he⟩
      · exact ⟨iff_of_true ⟨hc.bounded.1, hc.bounded.2⟩ hcond, nofun⟩
      · subst he
        exact ⟨iff_of_true hfail hcond, nofun⟩
  | inode =>
    have hmem := Sys.mem_refs_file hf hpos (.inl hty)
    refine Thread.Sat.bind (onFs_sat (ilock_run h.run hmem (.inr (h.alive hmem)))) ?_
    rintro _ s2 ⟨fs2, rfl, hr₂, hnode2, -⟩
    refine Thread.Sat.bind (onFs_sat (s := { s1 with fs := fs2 })
      (readi_any_run hr₂ hmem List.mem_cons_self)) ?_
    rintro ⟨r, d⟩ s3 ⟨fs3, rfl, rfl, hres⟩
    have hload := hr₂.loaded hmem List.mem_cons_self
    obtain ⟨m, hm⟩ := Option.ne_none_iff_exists'.mp (hr₂.inv.node_loaded hload).2
    obtain ⟨-, -, hsz⟩ := hr₂.inv.node_type hload hm
    rw [hr₂.num hmem, hnode2] at hm
    have hiff : (r ≤ max n 0 ∧ (d.length : Int) ≤ max n 0) ↔ ReadBounded s1 f dst n := by
      rw [hres.at_most_iff hn, hsz]
      refine ⟨fun hc => .inr (.inr ?_), fun hc => ?_⟩
      · exact hc.imp_right (Or.imp_right (Or.imp_left fun hle => ⟨m, hm, hle⟩))
      · have hc' := (hc.resolve_left fun hne => hne hty).resolve_left hread
        refine hc'.imp_right (Or.imp_right (Or.imp_left ?_))
        rintro ⟨m', hm', hle⟩
        rw [hm] at hm'
        cases hm'
        exact hle
    have hnext : ∀ off, off = (if r > 0 then (s1.file f).off + .ofNat r.toNat else (s1.file f).off) →
        Thread.Sat (do onFs (iunlock p (s1.file f).ip); pure (r, d))
          ({ s1 with fs := fs3 }.setFile f { s1.file f with off := off }) Panics.any fun x s' =>
          ((x.1 ≤ max n 0 ∧ (x.2.length : Int) ≤ max n 0) ↔ ReadBounded s1 f dst n) ∧
          (FdType.inode = .inode → (s'.file f).off =
            if x.1 > 0 then (s1.file f).off + .ofNat x.1.toNat else (s1.file f).off) := by
      intro off hoff
      refine Thread.Sat.bind (onFs_sat (iunlock_run hr₂ hmem fun _ _ => trivial)) ?_
      rintro _ s5 ⟨fs5, rfl, -, -⟩
      refine ⟨hiff, fun _ => ?_⟩
      rw [← hoff]
      exact congrArg File.off Sys.setFile_self
    dsimp only
    split
    next hpos' =>
      refine modify_sat.bind ?_
      rintro _ _ rfl
      exact hnext _ (if_pos hpos').symm
    next hneg =>
      have hsame := hnext (s1.file f).off (if_neg hneg).symm
      rw [Sys.setOff_self (s := { s1 with fs := fs3 })] at hsame
      exact hsame

/-- `fileread` returns and stores at most `max n 0` bytes exactly when `ReadBounded` holds; the
offset always moves by what it returns. -/
theorem fileread_at_most (h : SysInv sb lost s) (hf : f < nfile) (hpos : 0 < (s.file f).ref)
    (hn : -2 ^ 31 ≤ n ∧ n < 2 ^ 31) (hext : ExtRead (s.file f) dst n ext) (p : Nat) :
    ∀ r s', (filereadOut p f dst (.ofInt n) ext).run s = some (.ok (r, s')) →
      (fileread p f dst (.ofInt n) ext.1).run s = some (.ok (r.1, s')) ∧
      ((r.1 ≤ max n 0 ∧ (r.2.length : Int) ≤ max n 0) ↔ ReadBounded s f dst n) ∧
      ((s.file f).type = .inode →
        (s'.file f).off = if r.1 > 0 then (s.file f).off + .ofNat r.1.toNat else (s.file f).off) := by
  intro r s' hrun
  refine ⟨?_, (filereadOut_sat h hf hpos hn hext p).of_run hrun⟩
  rw [fileread_run]
  exact Thread.run_bind_of_run hrun

end

theorem fileread_at_most_root : ∃ s r s', SysInv mkfsSb (Stray mkfsSb rootImage) s ∧
    (s.file 0).type = .inode ∧
    (fileread 0 0 (fun _ => true) (.ofInt 4) 0).run s = some (.ok (r, s')) ∧ 0 < r ∧
    r ≤ max 4 0 := by
  have htest : (callsFromBoot [(0, .open (some [slash]) oRdonly)]).any (fun t =>
      decide ((t.file 0).type = .inode) && decide (0 < (t.file 0).ref) &&
      (filereadOut 0 0 (fun _ => true) (.ofInt 4) (0, [])).test t fun r _ =>
      decide (0 < r.1)) = true := by
    decide +kernel
  obtain ⟨s, hist, hr, hs⟩ := reach_of_test htest
  simp only [Bool.and_eq_true, decide_eq_true_eq] at hs
  obtain ⟨⟨hty, hpos⟩, hrun⟩ := hs
  obtain ⟨r, s', hrun, hgot⟩ := Thread.returns_of_test hrun
  have hi := sysMachine_inv rootImage_image hr
  have hext : ExtRead (s.file 0) (fun _ => true) 4 (0, []) := by
    refine ⟨fun h => ?_, fun h => ?_⟩
    · rw [hty] at h
      cases h
    · rw [hty] at h
      cases h
  obtain ⟨hfile, hle, -⟩ := fileread_at_most hi (by decide) hpos (by decide) hext 0 r s' hrun
  have hb : ReadBounded s 0 (fun _ => true) 4 := .inr (.inr (.inl (by decide)))
  exact ⟨s, r.1, s', hi, hty, hfile, of_decide_eq_true hgot, (hle.mpr hb).1⟩

/-- `read(fd, buf, -1)` at the start of the root directory stores the whole directory. -/
theorem fileread_negative : ∃ s r s', SysInv mkfsSb (Stray mkfsSb rootImage) s ∧
    (s.file 0).type = .inode ∧ 0 < (s.file 0).ref ∧
    (filereadOut 0 0 (fun _ => true) (.ofInt (-1)) (0, [])).run s = some (.ok (r, s')) ∧
    max (-1) 0 < r.1 ∧ 0 < r.2.length := by
  have htest : (callsFromBoot [(0, .open (some [slash]) oRdonly)]).any
    (fun t => decide ((t.file 0).type = .inode) && decide (0 < (t.file 0).ref) &&
      (filereadOut 0 0 (fun _ => true) (.ofInt (-1)) (0, [])).test t fun r _ =>
        decide (max (-1) 0 < r.1) && decide (0 < r.2.length)) = true := by
    decide +kernel
  obtain ⟨s, hist, hr, hs⟩ := reach_of_test htest
  simp only [Bool.and_eq_true, decide_eq_true_eq] at hs
  obtain ⟨⟨hty, hpos⟩, hrun⟩ := hs
  obtain ⟨r, s', hrun, hq⟩ := Thread.returns_of_test hrun
  simp only [Bool.and_eq_true, decide_eq_true_eq] at hq
  exact ⟨s, r, s', sysMachine_inv rootImage_image hr, hty, hpos, hrun, hq.1, hq.2⟩

end Xv6
