import Xv6.InodeRefs

/-! Sequences of complete file system operations, from a mounted image. The clients
hold references to inodes, as open files and current directories do. Every
operation runs in a transaction, except a read. -/

namespace Xv6

open Kern List

/-- The file system after booting from an image. -/
def mount (sb : Superblock) (disk : Disk) : Fs where
  sb := sb
  disk := disk
  outstanding := 0
  logged := []
  itable := fun _ => ⟨0, 0, none, false, Dinode.zero⟩

inductive FsOp where
  | create (p cwd : Nat) (path : List UInt8) (type major minor : Nat)
  | namei (p cwd : Nat) (path : List UInt8)
  | link (p cwd : Nat) (old new : List UInt8)
  | unlink (p cwd : Nat) (path : List UInt8)
  | dirlink (p dp : Nat) (name : List UInt8) (ip : Nat)
  | writei (p ip : Nat) (src : Src) (off n : UInt32)
  | readi (p ip : Nat) (dst : Dst) (off n : UInt32)
  | itrunc (p ip : Nat)
  | iput (p ip : Nat)
  | ialloc (type : Nat)

def withInode (p ip : Nat) (body : FsProg Unit) : FsProg Unit := do
  fsStep Fs.beginOp
  ilock p ip
  body
  iunlock p ip
  fsStep Fs.endOp

def FsOp.prog (held : List Nat) : FsOp → FsProg (List Nat)
  | create p cwd path type major minor => do
    fsStep Fs.beginOp
    match ← Xv6.create p cwd path type major minor with
    | none =>
      fsStep Fs.endOp
      pure held
    | some ip =>
      iunlock p ip
      fsStep Fs.endOp
      pure (ip :: held)
  | namei p cwd path => do
    fsStep Fs.beginOp
    let r ← Xv6.namei p cwd path
    fsStep Fs.endOp
    pure (r.toList ++ held)
  | link p cwd old new => do
    let _ ← sysLink p cwd old new
    pure held
  | unlink p cwd path => do
    let _ ← sysUnlink p cwd path
    pure held
  | dirlink p dp name ip => do
    withInode p dp do
      let inum ← fsStep (inumOf ip)
      let _ ← Xv6.dirlink p dp name inum
      pure ()
    pure held
  | writei p ip src off n => do
    withInode p ip do
      let _ ← fsStep (Xv6.writei ip src off n)
      pure ()
    pure held
  | readi p ip dst off n => do
    ilock p ip
    let _ ← fsStep (Xv6.readi ip dst off n)
    iunlock p ip
    pure held
  | itrunc p ip => do
    withInode p ip (fsStep (Xv6.itrunc ip))
    pure held
  | iput p ip => do
    fsStep Fs.beginOp
    Xv6.iput p ip
    fsStep Fs.endOp
    pure (held.erase ip)
  | ialloc type => do
    fsStep Fs.beginOp
    let r ← fsStep (Xv6.ialloc type)
    fsStep Fs.endOp
    pure (r.toList ++ held)

/-- Operations name inodes by references that are held. A directory is written through
`dirlink` and `unlink` only: `sys_open` opens a directory for reading. -/
def FsOp.Legal (s : Fs) (held : List Nat) : FsOp → Prop
  | create _ cwd path _ _ _ => path.head? = some slash ∨ cwd ∈ held
  | namei _ cwd path => path.head? = some slash ∨ cwd ∈ held
  | link _ cwd old new => (old.head? = some slash ∧ new.head? = some slash) ∨ cwd ∈ held
  | unlink _ cwd path => path.head? = some slash ∨ cwd ∈ held
  | dirlink _ dp _ ip => dp ∈ held ∧ ip ∈ held
  | writei _ ip _ _ _ => ip ∈ held ∧ (s.dinode (s.itable ip).inum).type ≠ tDir
  | readi _ ip _ _ _ => ip ∈ held
  | itrunc _ ip => ip ∈ held
  | iput _ ip => ip ∈ held
  | ialloc _ => True

/-- The states that sequences of complete operations lead to, with the references held. -/
inductive FsReach (s₀ : Fs) : List Nat → Fs → Prop
  | start : FsReach s₀ [] s₀
  | op {held held' : List Nat} {s s' : Fs} {op : FsOp} (h : FsReach s₀ held s) (hl : op.Legal s held)
      (hr : (op.prog held).run s = some (.ok (held', s'))) : FsReach s₀ held' s'

structure BlocksOwned (s : Fs) : Prop where
  distinct : ∀ o o' b, Owns s.sb s.disk s.dinode o b → Owns s.sb s.disk s.dinode o' b → o = o'
  region : ∀ o b, Owns s.sb s.disk s.dinode o b → nmeta s.sb ≤ b ∧ b < s.sb.size
  bitmap : ∀ b, bblock s.sb b < nmeta s.sb →
    (s.bit b = true ↔ b < nmeta s.sb ∨ ∃ o, Owns s.sb s.disk s.dinode o b)

/-- No file has a hole below its size. -/
def NoHoles (s : Fs) : Prop :=
  ∀ i < s.sb.ninodes, (s.dinode i).type ≠ 0 → Solid s.disk (s.dinode i)

/-- An image that can be mounted. -/
structure WellFormed (sb : Superblock) (disk : Disk) : Prop where
  layout : Layout sb
  blocks : BlocksOwned (mount sb disk)
  holes : NoHoles (mount sb disk)
  dirs : ∀ i < sb.ninodes, DirOk sb disk ((mount sb disk).dinode i)

section

variable {sb : Superblock} {disk : Disk} {s s' : Fs} {held : List Nat} {p ip : Nat}

lemma BlocksOwned.own (hl : Layout s.sb) (h : BlocksOwned s) : Own s.sb s.disk s.dinode [] := by
  have hbit : ∀ b, bblock s.sb b < nmeta s.sb → (bitOf s.sb s.disk b = false ↔
      ¬ (b < nmeta s.sb ∨ ∃ o, Owns s.sb s.disk s.dinode o b)) := by
    intro b hb
    rw [← h.bitmap b hb, Bool.not_eq_true]
    rfl
  refine ⟨⟨fun b hb => ?_, fun o b ho => ?_, h.distinct, fun b hb => ?_, fun b hb => ?_, nodup_nil⟩,
    fun b hb hp => ?_⟩
  · by_cases ho : ∃ o, Owns s.sb s.disk s.dinode o b
    · exact .inr (.inr ho)
    · refine Or.inl ((hbit b (hl.bblock_lt b hb.2)).mpr fun h' => ?_)
      have hge := hb.1
      exact h'.elim (fun hlt => by omega) ho
  · have hr := h.region o b ho
    exact ⟨hr, fun hf => (hbit b (hl.bblock_lt b hr.2)).mp hf (.inr ⟨o, ho⟩)⟩
  · cases hb
  · cases hb
  · by_cases hm : b < nmeta s.sb
    · rw [decide_eq_true hm]
      exact (h.bitmap b hb).mpr (.inl hm)
    · rw [decide_eq_false hm]
      refine (hbit b hb).mpr fun h' => h'.elim hm ?_
      rintro ⟨o, ho⟩
      exact hp (h.region o b ho)

lemma DiskInv.blocksOwned (h : DiskInv s) : BlocksOwned s := by
  refine ⟨h.own.ledger.single, fun o b ho => h.own.owned_pool ho, fun b hb => ?_⟩
  constructor
  · intro hbit
    by_cases hp : InPool s.sb b
    · rcases h.own.ledger.total b hp with hf | hf | hf
      · have ht : bitOf s.sb s.disk b = true := hbit
        rw [ht] at hf
        cases hf
      · cases hf
      · exact .inr hf
    · have hr := h.own.rest b hb hp
      rw [show bitOf s.sb s.disk b = true from hbit] at hr
      exact .inl (by simpa using hr.symm)
  · rintro (hm | ⟨o, ho⟩)
    · have hr := h.own.rest b hb fun hp => absurd hp.1 (by omega)
      rw [decide_eq_true hm] at hr
      exact hr
    · have hnf := (h.own.ledger.owned o b ho).2
      exact (Bool.not_eq_false _).mp hnf

lemma WellFormed.working (h : WellFormed sb disk) : Working sb (mount sb disk) [] [] 0 where
  inv := ⟨⟨h.layout, h.blocks.own h.layout, h.holes, h.dirs⟩,
    ⟨fun _ _ hr => absurd hr (Nat.lt_irrefl 0), fun _ _ _ _ hr => absurd hr (Nat.lt_irrefl 0),
      fun _ _ hr => absurd hr (Nat.lt_irrefl 0)⟩⟩
  sb := rfl
  txn := rfl
  lt := fun _ h => by cases h
  count := fun _ => Nat.zero_le _
  held := fun _ h => by cases h
  valid := fun _ h => by cases h

lemma withInode_working {body : FsProg Unit} (h : Working sb s held [] 0) (hip : ip ∈ held)
    (hb : ∀ s1, (s1.itable ip).din = s.dinode (s.itable ip).inum → Working sb s1 held [ip] 1 →
      Thread.Upholds FsInv body s1 Tolerated fun _ s' => Working sb s' held [ip] 1) :
    Thread.Upholds FsInv (withInode p ip body) s Tolerated fun _ s' => Working sb s' held [] 0 := by
  unfold withInode
  refine Thread.Upholds.bind (Q := fun _ s1 => s1 = { s with outstanding := s.outstanding + 1 } ∧
    Working sb s1 held [] 1) (Thread.upholds_step h.inv (sat_modifyState.mpr ⟨rfl, h.begun⟩)
      fun _ _ h' => h'.2.inv) ?_
  rintro _ s1 ⟨rfl, h₁⟩
  refine (ilock_locked h₁ hip).bind ?_
  rintro _ s2 ⟨rfl, h₂⟩
  refine (hb _ ?_ h₂).bind ?_
  · simp only [Fs.locked, Fs.setInode, Function.update_self]
    rfl
  intro _ s3 h3
  refine (iunlock_working h3 hip).bind ?_
  intro _ s4 h4
  exact (endOp_working h4).imp fun _ s5 h5 => h5.forget fun x hx => by cases hx

lemma writei_working {src : Src} {off n : UInt32} (h : Working sb s held [ip] 1)
    (ht : (s.itable ip).din.type ≠ tDir) :
    Thread.Upholds FsInv (fsStep (writei ip src off n)) s Tolerated fun _ s' =>
    Working sb s' held [ip] 1 := by
  have hload := h.isLoaded mem_cons_self
  refine Thread.upholds_step h.inv ((writei_sat h.inv hload (by rw [h.txn]) off n).imp ?_)
    fun _ _ h' => h'.inv
  rintro r s' (⟨-, rfl, -⟩ | ⟨w, -, hw⟩)
  · exact h
  · refine h.of_same (h.inv.wroteFile hload hw fun hd => ?_) hw.saved.sameRefs
    rw [hw.type] at hd
    exact absurd hd ht

lemma readi_returns (h : Working sb s held [] 0) (hip : ip ∈ held)
    (ht : (s.dinode (s.itable ip).inum).type ≠ 0) (dst : Dst) (off n : UInt32) :
    ∃ r, readi ip dst off n (s.locked p ip) = .ok (r, s.locked p ip) := by
  have hi := h.inv.locked (p := p) (h.lt ip hip) ht
  have hload : Loaded ip (s.locked p ip) := by
    refine ⟨h.lt ip hip, ?_, ?_⟩
    · simpa [Fs.locked, Fs.setInode] using h.ref_pos hip
    · simp [Fs.locked, Fs.setInode]
  obtain ⟨r, s', hr, rfl, -⟩ := (readi_sat (hi.solid_of_loaded hload) dst off n).returns
  exact ⟨r, hr⟩

lemma FsOp.working {op : FsOp} (h : Working sb s held [] 0) (hl : op.Legal s held) :
    Thread.Upholds FsInv (op.prog held) s Tolerated fun held' s' => Working sb s' held' [] 0 := by
  have hn : (1 : Nat) ≤ 0 + 1 := Nat.le_refl _
  cases op with
  | create p cwd path type major minor =>
    refine (beginOp_working h).bind ?_
    intro _ s1 h₁
    refine (create_working h₁ hn hl).bind ?_
    intro r s2 h₂
    cases r with
    | none => exact (endOp_working h₂).bind fun _ s3 h3 => ⟨h3.inv, h3⟩
    | some ip =>
      refine (iunlock_working h₂ mem_cons_self).bind ?_
      intro _ s3 h3
      exact (endOp_working h3).bind fun _ s4 h4 =>
        ⟨h4.inv, h4.forget fun x hx => by cases hx⟩
  | namei p cwd path =>
    refine (beginOp_working h).bind ?_
    intro _ s1 h₁
    refine (namei_working h₁ hn hl).bind ?_
    intro r s2 h₂
    exact (endOp_working h₂).bind fun _ s3 h3 => ⟨h3.inv, h3⟩
  | link p cwd old new =>
    have hcwd : (old.head? = some slash ∨ cwd ∈ held) ∧ (new.head? = some slash ∨ cwd ∈ held) := by
      rcases hl with ⟨h1, h2⟩ | hc
      · exact ⟨.inl h1, .inl h2⟩
      · exact ⟨.inr hc, .inr hc⟩
    exact (sysLink_working h hcwd.1 hcwd.2).bind fun _ s1 h₁ => ⟨h₁.inv, h₁⟩
  | unlink p cwd path => exact (sysUnlink_working h hl).bind fun _ s1 h₁ => ⟨h₁.inv, h₁⟩
  | dirlink p dp name ip =>
    refine (withInode_working h hl.1 fun s1 _ h₁ => ?_).bind fun _ s2 h₂ => ⟨h₂.inv, h₂⟩
    refine (inumOf_working h₁).bind ?_
    rintro inum s2 ⟨rfl, rfl, h₂⟩
    exact (dirlink_working h₂ mem_cons_self (h₂.inum_lt hl.2) hn).bind fun _ s3 h3 => ⟨h3.inv, h3⟩
  | writei p ip src off n =>
    refine (withInode_working h hl.1 fun s1 hd h₁ => ?_).bind fun _ s2 h₂ => ⟨h₂.inv, h₂⟩
    exact (writei_working h₁ (by rw [hd]; exact hl.2)).bind fun _ s2 h₂ => ⟨h₂.inv, h₂⟩
  | readi p ip dst off n =>
    refine (ilock_working h hl).bind ?_
    intro _ s1 h₁
    have hs := h₁.inv.solid_of_loaded (h₁.isLoaded mem_cons_self)
    refine Thread.Upholds.bind (Thread.upholds_step h₁.inv (readi_sat hs dst off n) ?_) ?_
    · rintro r s2 ⟨rfl, -⟩
      exact h₁.inv
    rintro r s2 ⟨rfl, -⟩
    exact (iunlock_working h₁ hl).bind fun _ s3 h3 =>
      ⟨h3.inv, h3.forget fun x hx => by cases hx⟩
  | itrunc p ip =>
    refine (withInode_working h hl fun s1 _ h₁ => ?_).bind fun _ s2 h₂ => ⟨h₂.inv, h₂⟩
    refine Thread.upholds_step h₁.inv
      ((h₁.inv.trunc (h₁.isLoaded mem_cons_self) (by rw [h₁.txn])).imp ?_) fun _ _ h' => h'.inv
    rintro _ s2 ⟨hi2, hs, -⟩
    exact h₁.of_same hi2 hs.sameRefs
  | iput p ip =>
    refine (beginOp_working h).bind ?_
    intro _ s1 h₁
    refine (iput_working (h₁.perm (perm_cons_erase hl)) hn fun x hx => by cases hx).bind ?_
    intro _ s2 h₂
    exact (endOp_working h₂).bind fun _ s3 h3 => ⟨h3.inv, h3⟩
  | ialloc type =>
    refine (beginOp_working h).bind ?_
    intro _ s1 h₁
    refine Thread.Upholds.bind
      (Thread.upholds_step h₁.inv (ialloc_sat h₁.inv (by rw [h₁.txn]) (.inl (by decide))) ?_) ?_
    · rintro r s2 (⟨-, rfl, -⟩ | ⟨ip, inum, -, hi, -⟩)
      · exact h₁.inv
      · exact hi
    rintro r s2 (⟨rfl, rfl, -⟩ | ⟨ip, inum, rfl, hi, ha⟩)
    · exact (endOp_working h₁).bind fun _ s3 h3 => ⟨h3.inv, h3⟩
    · exact (endOp_working (h₁.allocated hi ha)).bind fun _ s3 h3 => ⟨h3.inv, h3⟩

lemma FsReach.working (hw : WellFormed sb disk) (h : FsReach (mount sb disk) held s) :
    Working sb s held [] 0 := by
  induction h with
  | start => exact hw.working
  | op h hl hr ih => exact (FsOp.working ih hl).sat.of_run hr

end

end Xv6
