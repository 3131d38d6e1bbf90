import Xv6.FsNodes

/-! A process that runs alone keeps the invariant of the inode layer. `refs` are the
references to inodes that are held, `loaded` the inodes that the process has
locked, `n` the number of transactions. -/

namespace Xv6

open Kern List
open Function (update_of_ne update_self)

def Tolerated : Panics where
  allows e := e ≠ "freeing free block" ∧ e ≠ "bmap: out of range" ∧ e ≠ "log_write outside of trans"
  tooBig := by decide

instance (e : String) : Decidable (Tolerated e) := inferInstanceAs (Decidable (_ ∧ _ ∧ _))

structure Working (sb : Superblock) (s : Fs) (refs loaded : List Nat) (n : Nat) : Prop where
  inv : FsInv s
  sb : s.sb = sb
  txn : s.outstanding = n
  lt : ∀ ip ∈ refs, ip < ninode
  count : ∀ ip, refs.count ip ≤ (s.itable ip).ref
  held : ∀ ip ∈ loaded, ip ∈ refs
  valid : ∀ ip ∈ loaded, (s.itable ip).valid = true

section

variable {sb : Superblock} {s s' : Fs} {refs loaded : List Nat} {p ip n : Nat}

variable (h : Working sb s refs loaded n)
include h

lemma Working.ref_pos (hip : ip ∈ refs) : 0 < (s.itable ip).ref :=
  Nat.lt_of_lt_of_le (count_pos_iff.mpr hip) (h.count ip)

lemma Working.isLoaded (hip : ip ∈ loaded) : Loaded ip s :=
  ⟨h.lt ip (h.held ip hip), h.ref_pos (h.held ip hip), h.valid ip hip⟩

lemma Working.perm {refs' : List Nat} (hp : refs.Perm refs') :
    Working sb s refs' loaded n where
  inv := h.inv
  sb := h.sb
  txn := h.txn
  lt := fun x hx => h.lt x (hp.mem_iff.mpr hx)
  count := fun x => by rw [← hp.count_eq]; exact h.count x
  held := fun x hx => hp.mem_iff.mp (h.held x hx)
  valid := h.valid

lemma Working.forget {L : List Nat} (hs : ∀ x ∈ L, x ∈ loaded) :
    Working sb s refs L n :=
  { h with
    held := fun x hx => h.held x (hs x hx)
    valid := fun x hx => h.valid x (hs x hx) }

lemma Working.of_same (hi : FsInv s') (hs : SameRefs s s') :
    Working sb s' refs loaded n where
  inv := hi
  sb := hs.sb.trans h.sb
  txn := hs.outstanding.trans h.txn
  lt := h.lt
  count := fun x => by rw [(hs.slot x).1]; exact h.count x
  held := h.held
  valid := fun x hx => by rw [(hs.slot x).2.2.1]; exact h.valid x hx

omit h

variable {inum dp cwd type : Nat} {name path : List UInt8} {parent : Bool}

include h

lemma Working.got (hi : FsInv s') (hg : Got inum s s' ip) :
    Working sb s' (ip :: refs) loaded n := by
  have hsame : ∀ x, x ≠ ip → s'.itable x = s.itable x := fun x hx => by
    rw [hg.eq]
    exact update_of_ne hx _ _
  have hself : (s'.itable ip).ref = (s.itable ip).ref + 1 ∧
      (s'.itable ip).valid = ((s.itable ip).valid && decide (0 < (s.itable ip).ref)) := by
    rw [hg.eq]
    simp [Fs.setInode]
  refine ⟨hi, ?_, ?_, fun x hx => ?_, fun x => ?_, fun x hx => mem_cons_of_mem _ (h.held x hx),
    fun x hx => ?_⟩
  · rw [hg.eq]
    exact h.sb
  · rw [hg.eq]
    exact h.txn
  · rcases mem_cons.mp hx with rfl | hx
    · exact hg.lt
    · exact h.lt x hx
  · by_cases hx : x = ip
    · rw [hx, count_cons_self, hself.1]
      exact Nat.add_le_add_right (h.count ip) 1
    · rw [count_cons_of_ne (Ne.symm hx), hsame x hx]
      exact h.count x
  · by_cases hxi : x = ip
    · subst hxi
      rw [hself.2, h.valid x hx]
      simpa using h.ref_pos (h.held x hx)
    · rw [hsame x hxi]
      exact h.valid x hx

lemma Working.dup (hip : ip ∈ refs) :
    Working sb (s.setInode ip { s.itable ip with ref := (s.itable ip).ref + 1 })
    (ip :: refs) loaded n := by
  suffices hg : Got (s.itable ip).inum s
      (s.setInode ip { s.itable ip with ref := (s.itable ip).ref + 1 }) ip from
    h.got (h.inv.dup (h.lt ip hip) (h.ref_pos hip)) hg
  refine ⟨h.lt ip hip, fun _ => rfl, fun h0 => ?_, ?_⟩
  · have hr := h.ref_pos hip
    omega
  · simp [h.ref_pos hip]

lemma ilock_locked (hip : ip ∈ refs) :
    Thread.Upholds FsInv (ilock p ip) s Tolerated fun _ s' =>
      s' = s.locked p ip ∧ Working sb s' refs (ip :: loaded) n := by
  refine Thread.upholds_await h.inv (fun _ => (ilockStep_sat h.inv (h.lt ip hip) (h.ref_pos hip)
    (.inl (by decide))).imp ?_) fun _ _ h' => h'.2.inv
  rintro _ s' ⟨rfl, ht⟩
  have hi := h.inv.locked (p := p) (h.lt ip hip) ht
  have hself : (s.locked p ip).itable ip = { s.itable ip with
      lock := some p, valid := true, din := s.dinode (s.itable ip).inum } := update_self _ _ _
  have hsame : ∀ x, x ≠ ip → (s.locked p ip).itable x = s.itable x := fun x hx => update_of_ne hx _ _
  refine ⟨rfl, hi, h.sb, h.txn, h.lt, fun x => ?_, fun x hx => ?_, fun x hx => ?_⟩
  · by_cases hx : x = ip
    · rw [hx, hself]
      exact h.count ip
    · rw [hsame x hx]
      exact h.count x
  · rcases mem_cons.mp hx with rfl | hx
    · exact hip
    · exact h.held x hx
  · by_cases hxi : x = ip
    · rw [hxi, hself]
    · rw [hsame x hxi]
      exact h.valid x ((mem_cons.mp hx).resolve_left hxi)

lemma ilock_working (hip : ip ∈ refs) :
    Thread.Upholds FsInv (ilock p ip) s Tolerated fun _ s' => Working sb s' refs (ip :: loaded) n :=
  (ilock_locked h hip).imp fun _ _ h' => h'.2

lemma setLock_working (hip : ip < ninode) (l : Option Nat) :
    Working sb (s.setLock ip l) refs loaded n := by
  have hkeep : ∀ x, ((s.setLock ip l).itable x).ref = (s.itable x).ref ∧
      ((s.setLock ip l).itable x).valid = (s.itable x).valid := by
    intro x
    by_cases hx : x = ip
    · simp [Fs.setLock, Fs.setInode, hx]
    · simp [Fs.setLock, Fs.setInode, hx]
  exact { h with
    inv := h.inv.setLock hip l
    count := fun x => by rw [(hkeep x).1]; exact h.count x
    valid := fun x hx => by rw [(hkeep x).2]; exact h.valid x hx }

lemma iunlock_working (hip : ip ∈ refs) :
    Thread.Upholds FsInv (iunlock p ip) s Tolerated fun _ s' => Working sb s' refs loaded n := by
  refine Thread.upholds_step h.inv ((iunlockStep_sat (.inl (by decide))).imp ?_) fun _ _ h' => h'.inv
  rintro _ s' rfl
  exact setLock_working h (h.lt ip hip) none

omit h

lemma Working.drop (h : Working sb s (ip :: refs) loaded n) (hl : ∀ x ∈ loaded, x ∈ refs) :
    Working sb (s.dropRef ip) refs loaded n := by
  have hip := h.lt ip mem_cons_self
  have hsame : ∀ x, x ≠ ip → (s.dropRef ip).itable x = s.itable x := fun x hx => update_of_ne hx _ _
  have hself : (s.dropRef ip).itable ip = { s.itable ip with ref := (s.itable ip).ref - 1 } :=
    update_self _ _ _
  refine ⟨h.inv.dropRef hip, h.sb, h.txn, fun x hx => h.lt x (mem_cons_of_mem _ hx), fun x => ?_,
    hl, fun x hx => ?_⟩
  · have hc := h.count x
    by_cases hx : x = ip
    · rw [hx, hself]
      rw [hx, count_cons_self] at hc
      exact Nat.le_sub_of_add_le hc
    · rw [hsame x hx]
      rwa [count_cons_of_ne (Ne.symm hx)] at hc
  · by_cases hxi : x = ip
    · rw [hxi, hself]
      exact h.valid ip (hxi ▸ hx)
    · rw [hsame x hxi]
      exact h.valid x hx

lemma iput_working (h : Working sb s (ip :: refs) loaded n) (hn : 1 ≤ n) (hl : ∀ x ∈ loaded, x ∈ refs) :
    Thread.Upholds FsInv (iput p ip) s Tolerated fun _ s' => Working sb s' refs loaded n := by
  have hip := h.lt ip mem_cons_self
  unfold iput
  refine (Thread.upholds_step h.inv (iputStart_sat (.inl (by decide))) ?_).bind ?_
  · rintro r s1 (⟨-, -, rfl⟩ | ⟨-, -, rfl⟩)
    · exact h.inv.setLock hip _
    · exact h.inv.dropRef hip
  rintro r s1 (⟨rfl, hlast, rfl⟩ | ⟨rfl, -, rfl⟩)
  · -- the last reference: no other one is held, so `ip` is not locked
    have hone : ip ∉ refs := by
      intro hmem
      have hc := h.count ip
      rw [count_cons_self, hlast.1] at hc
      have hpos := count_pos_iff.mpr hmem
      omega
    have h1 := setLock_working h hip (some p)
    have hload : Loaded ip (s.setLock ip (some p)) :=
      ⟨hip, h1.ref_pos mem_cons_self, by simp [Fs.setLock, Fs.setInode, hlast.2.1]⟩
    refine Thread.Upholds.bind
      (Thread.upholds_step h1.inv (iputFree_sat h1.inv hload (by rw [h1.txn]; exact hn))
      fun _ _ h' => h'.1) ?_
    rintro _ s2 ⟨hi2, hfreed⟩
    refine Thread.upholds_step hi2 (sat_modifyState.mpr (Working.drop ?_ hl)) fun _ _ h' => h'.inv
    refine ⟨hi2, hfreed.sb.trans h1.sb, hfreed.outstanding.trans h1.txn, h1.lt,
      fun x => ?_, h1.held, fun x hx => ?_⟩
    · by_cases hx : x = ip
      · rw [hx, hfreed.slot]
        exact h1.count ip
      · rw [hfreed.slots x hx]
        exact h1.count x
    · have hne : x ≠ ip := fun he => hone (he ▸ hl x hx)
      rw [hfreed.slots x hne]
      exact h1.valid x hx
  · have h1 := h.drop hl
    exact Thread.upholds_pure h1.inv h1

lemma iunlockput_working (h : Working sb s (ip :: refs) loaded n) (hn : 1 ≤ n) {L : List Nat}
    (hl : ∀ x ∈ L, x ∈ loaded ∧ x ∈ refs) :
    Thread.Upholds FsInv (iunlockput p ip) s Tolerated fun _ s' => Working sb s' refs L n := by
  unfold iunlockput
  refine (iunlock_working h mem_cons_self).bind ?_
  intro _ s1 h1
  exact iput_working (h1.forget fun x hx => (hl x hx).1) hn fun x hx => (hl x hx).2

include h

lemma dirlookup_working (hdp : dp ∈ loaded) :
    Thread.Upholds FsInv (fsStep (dirlookup dp name)) s Tolerated fun r s' =>
      Working sb s' (r.toList.map Prod.fst ++ refs) loaded n ∧ ∀ q ∈ r, q.2 % 16 = 0 ∧
        q.2 < 2 ^ 31 := by
  have hs := h.inv.solid_of_loaded (h.isLoaded hdp)
  refine Thread.upholds_step h.inv
    ((dirlookup_sat h.inv (h.isLoaded hdp) (.inl (by decide)) (.inl (by decide))
    (.inl (by decide))).imp ?_) fun _ _ h' => h'.1.inv
  rintro r s' ⟨hi, -, hit, hsc, hr⟩
  cases hit with
  | none =>
    cases r with
    | none =>
      have hr : s' = s := hr
      subst hr
      exact ⟨h, fun _ hq => by cases hq⟩
    | some q => exact hr.elim
  | some q =>
    cases r with
    | none => exact hr.elim
    | some r =>
      obtain ⟨hoff, hgot⟩ : r.2 = q.1 ∧ Got q.2.inum s s' r.1 := hr
      refine ⟨h.got hi hgot, fun q' hq' => ?_⟩
      cases hq'
      obtain ⟨k, hk, -⟩ := mem_dirOffs.mp hsc.1
      have hlt := dirOffs_lt hs _ hsc.1
      rw [hoff]
      omega

lemma Working.inum_lt (hip : ip ∈ refs) : (s.itable ip).inum < sb.ninodes := by
  rw [← h.sb]
  exact h.inv.inum ip (h.lt ip hip) (h.ref_pos hip)

lemma dirlink_working
    (hdp : dp ∈ loaded) (hnum : inum < sb.ninodes) (hn : 1 ≤ n) :
    Thread.Upholds FsInv (dirlink p dp name inum) s Tolerated fun _ s' =>
    Working sb s' refs loaded n := by
  unfold dirlink
  refine (dirlookup_working h hdp).bind ?_
  rintro r s1 ⟨h1, -⟩
  cases r with
  | some q => exact (iput_working h1 hn h.held).bind fun _ s2 h2 => ⟨h2.inv, h2⟩
  | none =>
    obtain ⟨m, hm⟩ := Option.ne_none_iff_exists'.mp (h1.inv.node_loaded (h1.isLoaded hdp)).2
    refine Thread.upholds_step h1.inv
      ((dirlinkEntry_node h1.inv (h1.isLoaded hdp) (by rw [h1.txn]; exact hn) hm
      (by rw [h1.sb]; exact hnum) (.inl (by decide))).imp ?_) fun _ _ h' => h'.inv
    rintro r s2 ⟨hi2, hw, -⟩
    exact h1.of_same hi2 hw.sameRefs

lemma typeOf_working :
    Thread.Upholds FsInv (fsStep (typeOf ip)) s Tolerated fun r s' =>
      r = (s.itable ip).din.type ∧ s' = s ∧ Working sb s' refs loaded n :=
  Thread.upholds_step h.inv (sat_of_eq (by rfl) |>.mpr ⟨rfl, rfl, h⟩) fun _ _ h' => h'.2.2.inv

lemma inumOf_working :
    Thread.Upholds FsInv (fsStep (inumOf ip)) s Tolerated fun r s' =>
      r = (s.itable ip).inum ∧ s' = s ∧ Working sb s' refs loaded n :=
  Thread.upholds_step h.inv (sat_of_eq (by rfl) |>.mpr ⟨rfl, rfl, h⟩) fun _ _ h' => h'.2.2.inv

lemma updateDin_working {f : Dinode → Dinode} {l : FsStep}
    (hip : ip ∈ loaded) (hn : 1 ≤ n) (hf : ∀ d : Dinode, d.SameFile (f d)) :
    Thread.Upholds FsInv (Thread.step l (updateDin ip f)) s Tolerated fun _ s' =>
    Working sb s' refs loaded n := by
  refine Thread.upholds_step h.inv
    ((updateDin_sat h.inv (h.isLoaded hip) (by rw [h.txn]; exact hn) (hf _)).imp ?_)
    fun _ _ h' => h'.inv
  rintro _ s' ⟨hi, hs, -⟩
  exact h.of_same hi hs.sameRefs

omit h

lemma namexLoop_working {elems : List (List UInt8)} (h : Working sb s (ip :: refs) loaded n)
    (hn : 1 ≤ n) (hl : ∀ x ∈ loaded, x ∈ refs) :
    Thread.Upholds FsInv (namexLoop p parent ip elems) s Tolerated fun r s' =>
      Working sb s' (r.toList.map Prod.fst ++ refs) loaded n := by
  induction elems generalizing s ip with
  | nil =>
    unfold namexLoop
    split
    · exact (iput_working h hn hl).bind fun _ s1 h1 => ⟨h1.inv, h1⟩
    · exact Thread.upholds_pure h.inv h
  | cons name rest ih =>
    unfold namexLoop
    have hdrop : ∀ x ∈ loaded, x ∈ ip :: loaded ∧ x ∈ refs := fun x hx =>
      ⟨mem_cons_of_mem _ hx, hl x hx⟩
    refine (ilock_working h mem_cons_self).bind ?_
    intro _ s1 h1
    refine (typeOf_working h1).bind ?_
    rintro t s2 ⟨-, rfl, h2⟩
    split
    · exact (iunlockput_working h2 hn hdrop).bind fun _ s3 h3 => ⟨h3.inv, h3⟩
    · split
      · exact (iunlock_working h2 mem_cons_self).bind fun _ s3 h3 =>
          ⟨h3.inv, h3.forget fun x hx => mem_cons_of_mem _ hx⟩
      · refine (dirlookup_working h2 mem_cons_self).bind ?_
        rintro r s3 ⟨h3, -⟩
        cases r with
        | none => exact (iunlockput_working h3 hn hdrop).bind fun _ s4 h4 => ⟨h4.inv, h4⟩
        | some q =>
          have hswap : Working sb s3 (ip :: q.1 :: refs) (ip :: loaded) n :=
            h3.perm (List.Perm.swap _ _ _)
          refine (iunlockput_working hswap hn fun x hx =>
            ⟨(hdrop x hx).1, mem_cons_of_mem _ (hl x hx)⟩).bind ?_
          intro _ s4 h4
          exact ih h4

include h

lemma namex_working
    (hn : 1 ≤ n) (hcwd : path.head? = some slash ∨ cwd ∈ refs) :
    Thread.Upholds FsInv (namex p cwd path parent) s Tolerated fun r s' =>
      Working sb s' (r.toList.map Prod.fst ++ refs) loaded n := by
  unfold namex
  refine Thread.Upholds.bind (Q := fun ip s1 => Working sb s1 (ip :: refs) loaded n)
    (Thread.upholds_step h.inv ?_ fun _ _ h' => h'.inv) fun ip s1 h1 => namexLoop_working h1 hn h.held
  by_cases hp : path.head? = some slash
  · rw [if_pos hp]
    refine (iget_sat (.inl (by decide))).imp fun ip s1 hg =>
      h.got (h.inv.got h.inv.layout.root_lt hg) hg
  · rw [if_neg hp]
    refine idup_sat.imp ?_
    rintro ip s1 ⟨rfl, rfl⟩
    exact h.dup (hcwd.resolve_left hp)

lemma namei_working (hn : 1 ≤ n)
    (hcwd : path.head? = some slash ∨ cwd ∈ refs) :
    Thread.Upholds FsInv (namei p cwd path) s Tolerated fun r s' =>
    Working sb s' (r.toList ++ refs) loaded n := by
  refine (namex_working h hn hcwd).bind fun r s' h' => ?_
  cases r with
  | none => exact ⟨h'.inv, h'⟩
  | some q => exact ⟨h'.inv, h'⟩

lemma Working.begun :
    Working sb { s with outstanding := s.outstanding + 1 } refs loaded (n + 1) :=
  { h with
    inv := ⟨h.inv.toDiskInv.congr rfl rfl, ⟨h.inv.inum, h.inv.unique, h.inv.coherent⟩⟩
    txn := congrArg (· + 1) h.txn }

lemma beginOp_working :
    Thread.Upholds FsInv (fsStep Fs.beginOp) s Tolerated fun _ s' =>
    Working sb s' refs loaded (n + 1) :=
  Thread.upholds_step h.inv (sat_modifyState.mpr h.begun) fun _ _ h' => h'.inv

omit h

lemma endOp_working (h : Working sb s refs loaded (n + 1)) :
    Thread.Upholds FsInv (fsStep Fs.endOp) s Tolerated fun _ s' => Working sb s' refs loaded n := by
  refine Thread.upholds_step h.inv (sat_modifyState.mpr ?_) fun _ _ h' => h'.inv
  exact { h with
    inv := ⟨h.inv.toDiskInv.congr rfl rfl, ⟨h.inv.inum, h.inv.unique, h.inv.coherent⟩⟩
    txn := congrArg (· - 1) h.txn }

lemma Working.allocated (h : Working sb s refs loaded n) (hi : FsInv s')
    (ha : Allocated type s s' ip inum) : Working sb s' (ip :: refs) loaded n := by
  obtain ⟨s1, hput, hgot⟩ := ha.put
  have hsame : SameRefs s s1 :=
    ⟨hput.sb, hput.outstanding, fun x => by rw [hput.itable]; exact ⟨rfl, rfl, rfl, rfl⟩⟩
  exact (h.of_same (h.inv.putFree ha.free hput) hsame).got hi hgot

lemma createDots_working (h : Working sb s refs loaded n) (hn : 1 ≤ n) (hip : ip ∈ loaded)
    (hdp : dp ∈ loaded) :
    Thread.Upholds FsInv (createDots p dp ip) s Tolerated fun _ s' => Working sb s' refs loaded n := by
  unfold createDots
  refine (inumOf_working h).bind ?_
  rintro inum s1 ⟨rfl, rfl, h1⟩
  refine (dirlink_working h1 hip (h1.inum_lt (h1.held ip hip)) hn).bind ?_
  intro r s2 h2
  split
  · exact ⟨h2.inv, h2⟩
  · refine (inumOf_working h2).bind ?_
    rintro inum s3 ⟨rfl, rfl, h3⟩
    exact (dirlink_working h3 hip (h3.inum_lt (h3.held dp hdp)) hn).bind fun _ s4 h4 => ⟨h4.inv, h4⟩

lemma createLinks_working (h : Working sb s refs loaded n) (hn : 1 ≤ n)
    (hip : ip ∈ loaded) (hdp : dp ∈ loaded) :
    Thread.Upholds FsInv (createLinks p dp ip name type) s Tolerated fun _ s' =>
    Working sb s' refs loaded n := by
  have hname : ∀ {s}, Working sb s refs loaded n →
      Thread.Upholds FsInv (createName p dp ip name) s Tolerated fun _ s' =>
      Working sb s' refs loaded n := by
    intro s h
    unfold createName
    refine (inumOf_working h).bind ?_
    rintro inum s1 ⟨rfl, rfl, h1⟩
    exact (dirlink_working h1 hdp (h1.inum_lt (h1.held ip hip)) hn).bind fun _ s2 h2 => ⟨h2.inv, h2⟩
  unfold createLinks
  split
  · refine (createDots_working h hn hip hdp).bind ?_
    intro dots s1 h1
    split
    · exact hname h1
    · exact ⟨h1.inv, h1⟩
  · exact hname h

lemma createEntries_working
    (h : Working sb s (ip :: dp :: refs) (ip :: dp :: loaded) n) (hn : 1 ≤ n)
    (hl : ∀ x ∈ loaded, x ∈ refs) :
    Thread.Upholds FsInv (createEntries p dp ip name type) s Tolerated fun r s' =>
      Working sb s' (r.toList ++ refs) (r.toList ++ loaded) n := by
  have hip : ip ∈ ip :: dp :: loaded := mem_cons_self
  have hdp : dp ∈ ip :: dp :: loaded := mem_cons_of_mem _ mem_cons_self
  -- `dp` is put, `ip` is kept
  have hok : ∀ {s}, Working sb s (ip :: dp :: refs) (ip :: dp :: loaded) n →
      Thread.Upholds FsInv (iunlockput p dp) s Tolerated fun _ s' => Working sb s' (ip :: refs)
      (ip :: loaded) n := by
    intro s h
    refine iunlockput_working (h.perm (List.Perm.swap _ _ _)) hn fun x hx => ?_
    rcases mem_cons.mp hx with rfl | hx
    · exact ⟨hip, mem_cons_self⟩
    · exact ⟨mem_cons_of_mem _ (mem_cons_of_mem _ hx), mem_cons_of_mem _ (hl x hx)⟩
  unfold createEntries
  refine (createLinks_working h hn hip hdp).bind ?_
  intro ok s1 h1
  split
  · split
    · refine (updateDin_working h1 hdp hn Dinode.sameFile_incNlink).bind ?_
      intro _ s2 h2
      exact (hok h2).bind fun _ s3 h3 => ⟨h3.inv, h3⟩
    · exact (hok h1).bind fun _ s2 h2 => ⟨h2.inv, h2⟩
  · refine (updateDin_working h1 hip hn fun d => d.sameFile_setNlink 0).bind ?_
    intro _ s2 h2
    refine (iunlockput_working h2 hn (L := dp :: loaded) fun x hx => ?_).bind ?_
    · refine ⟨mem_cons_of_mem _ hx, ?_⟩
      rcases mem_cons.mp hx with rfl | hx
      · exact mem_cons_self
      · exact mem_cons_of_mem _ (hl x hx)
    intro _ s3 h3
    exact (iunlockput_working h3 hn fun x hx => ⟨mem_cons_of_mem _ hx, hl x hx⟩).bind
      fun _ s4 h4 => ⟨h4.inv, h4⟩

lemma createOpen_working (h : Working sb s (ip :: dp :: refs) (dp :: loaded) n) (hn : 1 ≤ n)
    (hl : ∀ x ∈ loaded, x ∈ refs) : Thread.Upholds FsInv
    (createOpen p dp ip type) s Tolerated fun r s' =>
      Working sb s' (r.toList ++ refs) (r.toList ++ loaded) n := by
  unfold createOpen
  refine (iunlockput_working (h.perm (List.Perm.swap _ _ _)) hn (L := loaded) fun x hx =>
    ⟨mem_cons_of_mem _ hx, mem_cons_of_mem _ (hl x hx)⟩).bind ?_
  intro _ s1 h1
  refine (ilock_working h1 mem_cons_self).bind ?_
  intro _ s2 h2
  refine (typeOf_working h2).bind ?_
  rintro t s3 ⟨-, rfl, h3⟩
  split
  · exact ⟨h3.inv, h3⟩
  · exact (iunlockput_working h3 hn fun x hx => ⟨mem_cons_of_mem _ hx, hl x hx⟩).bind
      fun _ s4 h4 => ⟨h4.inv, h4⟩

lemma create_working {major minor : Nat} (h : Working sb s refs loaded n)
    (hn : 1 ≤ n) (hcwd : path.head? = some slash ∨ cwd ∈ refs) :
    Thread.Upholds FsInv (create p cwd path type major minor) s Tolerated fun r s' =>
      Working sb s' (r.toList ++ refs) (r.toList ++ loaded) n := by
  unfold create nameiparent
  have hl := h.held
  refine (namex_working h hn hcwd).bind ?_
  intro r s1 h1
  cases r with
  | none => exact ⟨h1.inv, h1⟩
  | some q =>
    obtain ⟨dp, name⟩ := q
    refine (ilock_working h1 mem_cons_self).bind ?_
    intro _ s2 h2
    refine (dirlookup_working h2 mem_cons_self).bind ?_
    rintro r s3 ⟨h3, -⟩
    cases r with
    | some q => exact createOpen_working h3 hn hl
    | none =>
      refine Thread.Upholds.bind
        (Q := fun r s4 => Working sb s4 (r.toList ++ dp :: refs) (dp :: loaded) n)
        (Thread.upholds_step h3.inv
          ((ialloc_sat h3.inv (by rw [h3.txn]; exact hn) (.inl (by decide))).imp ?_)
          fun _ _ h' => h'.inv) ?_
      · rintro r s4 (⟨rfl, rfl, -⟩ | ⟨ip, inum, rfl, hi, ha⟩)
        · exact h3
        · exact h3.allocated hi ha
      intro r s4 h4
      cases r with
      | none =>
        exact (iunlockput_working h4 hn fun x hx => ⟨mem_cons_of_mem _ hx, hl x hx⟩).bind
          fun _ s5 h5 => ⟨h5.inv, h5⟩
      | some ip =>
        refine (ilock_working h4 mem_cons_self).bind ?_
        intro _ s5 h5
        refine (updateDin_working h5 mem_cons_self hn fun d =>
          ((d.sameFile_setMajor _).trans (Dinode.sameFile_setMinor _ _)).trans
            (Dinode.sameFile_setNlink _ _)).bind ?_
        intro _ s6 h6
        exact createEntries_working h6 hn hl

lemma linkBad_working (h : Working sb s (ip :: refs) loaded (n + 1)) (hl : ∀ x ∈ loaded, x ∈ refs) :
    Thread.Upholds FsInv (linkBad p ip) s Tolerated fun _ s' => Working sb s' refs loaded n := by
  unfold linkBad
  refine (ilock_working h mem_cons_self).bind ?_
  intro _ s1 h1
  refine (updateDin_working h1 mem_cons_self (by omega) Dinode.sameFile_decNlink).bind ?_
  intro _ s2 h2
  refine (iunlockput_working h2 (by omega) fun x hx => ⟨mem_cons_of_mem _ hx, hl x hx⟩).bind ?_
  intro _ s3 h3
  exact (endOp_working h3).bind fun _ s4 h4 => ⟨h4.inv, h4⟩

lemma sysLink_working {old new : List UInt8} (h : Working sb s refs loaded n)
    (hold : old.head? = some slash ∨ cwd ∈ refs) (hnew : new.head? = some slash ∨ cwd ∈ refs) :
    Thread.Upholds FsInv (sysLink p cwd old new) s Tolerated fun _ s' =>
    Working sb s' refs loaded n := by
  unfold sysLink nameiparent
  have hl := h.held
  have hn : 1 ≤ n + 1 := Nat.le_add_left _ _
  refine (beginOp_working h).bind ?_
  intro _ s1 h1
  refine (namei_working h1 hn hold).bind ?_
  intro r s2 h2
  cases r with
  | none => exact (endOp_working h2).bind fun _ s3 h3 => ⟨h3.inv, h3⟩
  | some ip =>
    have hdrop : ∀ x ∈ loaded, x ∈ ip :: loaded ∧ x ∈ refs := fun x hx =>
      ⟨mem_cons_of_mem _ hx, hl x hx⟩
    refine (ilock_working h2 mem_cons_self).bind ?_
    intro _ s3 h3
    refine (typeOf_working h3).bind ?_
    rintro t s4 ⟨-, rfl, h4⟩
    split
    · refine (iunlockput_working h4 hn hdrop).bind ?_
      intro _ s5 h5
      exact (endOp_working h5).bind fun _ s6 h6 => ⟨h6.inv, h6⟩
    · refine (updateDin_working h4 mem_cons_self hn Dinode.sameFile_incNlink).bind ?_
      intro _ s5 h5
      refine (iunlock_working h5 mem_cons_self).bind ?_
      intro _ s6 h6
      have h6' := h6.forget (L := loaded) fun x hx => mem_cons_of_mem _ hx
      refine (namex_working h6' hn (hnew.imp_right (mem_cons_of_mem _))).bind ?_
      intro r s7 h7
      cases r with
      | none => exact linkBad_working h7 hl
      | some q =>
        have hput : ∀ {s}, Working sb s (q.1 :: ip :: refs) (q.1 :: loaded) (n + 1) →
            Thread.Upholds FsInv (iunlockput p q.1) s Tolerated fun _ s' =>
            Working sb s' (ip :: refs) loaded (n + 1) :=
          fun h => iunlockput_working h hn fun x hx =>
            ⟨mem_cons_of_mem _ hx, mem_cons_of_mem _ (hl x hx)⟩
        refine (ilock_working h7 mem_cons_self).bind ?_
        intro _ s8 h8
        refine (inumOf_working h8).bind ?_
        rintro inum s9 ⟨rfl, rfl, h9⟩
        refine (dirlink_working h9 mem_cons_self
          (h9.inum_lt (mem_cons_of_mem _ mem_cons_self)) hn).bind ?_
        intro r s10 h10
        split
        · exact (hput h10).bind fun _ s11 h11 => linkBad_working h11 hl
        · refine (hput h10).bind ?_
          intro _ s11 h11
          refine (iput_working h11 hn hl).bind ?_
          intro _ s12 h12
          exact (endOp_working h12).bind fun _ s13 h13 => ⟨h13.inv, h13⟩

lemma sysUnlink_working (h : Working sb s refs loaded n)
    (hcwd : path.head? = some slash ∨ cwd ∈ refs) :
    Thread.Upholds FsInv (sysUnlink p cwd path) s Tolerated fun _ s' =>
    Working sb s' refs loaded n := by
  unfold sysUnlink nameiparent
  have hl := h.held
  have hn : 1 ≤ n + 1 := Nat.le_add_left _ _
  refine (beginOp_working h).bind ?_
  intro _ s1 h1
  refine (namex_working h1 hn hcwd).bind ?_
  intro r s2 h2
  cases r with
  | none => exact (endOp_working h2).bind fun _ s3 h3 => ⟨h3.inv, h3⟩
  | some q =>
    obtain ⟨dp, name⟩ := q
    have hput : ∀ {s}, Working sb s (dp :: refs) (dp :: loaded) (n + 1) →
        Thread.Upholds FsInv (iunlockput p dp) s Tolerated fun _ s' =>
        Working sb s' refs loaded (n + 1) :=
      fun h => iunlockput_working h hn fun x hx => ⟨mem_cons_of_mem _ hx, hl x hx⟩
    have hbad : ∀ {s}, Working sb s (dp :: refs) (dp :: loaded) (n + 1) → Thread.Upholds FsInv (do
        iunlockput p dp
        fsStep Fs.endOp
        pure (-1 : Int)) s Tolerated fun _ s' => Working sb s' refs loaded n := by
      intro s h
      refine (hput h).bind ?_
      intro _ s3 h3
      exact (endOp_working h3).bind fun _ s4 h4 => ⟨h4.inv, h4⟩
    refine (ilock_working h2 mem_cons_self).bind ?_
    intro _ s3 h3
    split
    · exact hbad h3
    refine (dirlookup_working h3 mem_cons_self).bind ?_
    rintro r s4 ⟨h4, hoff⟩
    cases r with
    | none => exact hbad h4
    | some q =>
      obtain ⟨ip, off⟩ := q
      obtain ⟨halign, hlt⟩ := hoff _ rfl
      have hdp : dp ∈ ip :: dp :: loaded := mem_cons_of_mem _ mem_cons_self
      refine (ilock_working h4 mem_cons_self).bind ?_
      intro _ s5 h5
      obtain ⟨m, hm⟩ := Option.ne_none_iff_exists'.mp (h5.inv.node_loaded (h5.isLoaded mem_cons_self)).2
      refine Thread.Upholds.bind
        (Thread.upholds_step h5.inv (unlinkCheck_node h5.inv (h5.isLoaded mem_cons_self) hm
        (.inl (by decide)) (by decide)) ?_) ?_
      · rintro _ _ ⟨rfl, -⟩
        exact h5.inv
      rintro ok s6 ⟨rfl, -, -⟩
      split
      · refine Thread.Upholds.bind (Thread.upholds_step h5.inv (unlinkEntry_sat h5.inv (h5.isLoaded hdp)
          (by rw [h5.txn]; exact hn) halign hlt (by decide)) fun _ _ h' => h'.1) ?_
        rintro _ s7 ⟨hi7, hkeep⟩
        have h7 := h5.of_same hi7 hkeep
        refine (iunlockput_working (h7.perm (List.Perm.swap _ _ _)) hn (L := ip :: loaded)
          fun x hx => ?_).bind ?_
        · rcases mem_cons.mp hx with rfl | hx
          · exact ⟨mem_cons_self, mem_cons_self⟩
          · exact ⟨mem_cons_of_mem _ (mem_cons_of_mem _ hx), mem_cons_of_mem _ (hl x hx)⟩
        intro _ s8 h8
        refine (updateDin_working h8 mem_cons_self hn Dinode.sameFile_decNlink).bind ?_
        intro _ s9 h9
        refine (iunlockput_working h9 hn fun x hx => ⟨mem_cons_of_mem _ hx, hl x hx⟩).bind ?_
        intro _ s10 h10
        exact (endOp_working h10).bind fun _ s11 h11 => ⟨h11.inv, h11⟩
      · refine (iunlockput_working h5 hn (L := dp :: loaded) fun x hx => ?_).bind ?_
        · refine ⟨mem_cons_of_mem _ hx, ?_⟩
          rcases mem_cons.mp hx with rfl | hx
          · exact mem_cons_self
          · exact mem_cons_of_mem _ (hl x hx)
        intro _ s7 h7
        exact hbad h7

end

end Xv6
