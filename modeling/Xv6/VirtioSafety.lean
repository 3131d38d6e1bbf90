import Xv6.Lib.Ring
import Xv6.VirtioDesc

/-! The descriptors are shared out between the free set and the requests in flight, and every
request goes once through the avail ring, the device and the used ring. -/

namespace Xv6

open Function (update_self update_of_ne update)

open VirtioSys

/-- The chain of a request as the device reads it, and what the driver noted about it. -/
structure Linked (s : VirtioSys) (k : VirtioCall) (t : Triple) : Prop where
  op : s.desc t.i0 = ⟨.op t.i0, 16, descNext, t.i1⟩
  data : s.desc t.i1 = ⟨.data k.buf, 1024, (if k.write then 0 else descWrite) + descNext, t.i2⟩
  status : s.desc t.i2 = ⟨.status t.i0, 1, descWrite, 0⟩
  ops : s.ops t.i0 = (k.write, k.sector)
  info : s.infoBuf t.i0 = some k.buf
  who : s.who t.i0 = k.num

def VirtioSys.unread (s : VirtioSys) : List Nat := s.published.drop s.fetched.length

def VirtioSys.unseen (s : VirtioSys) : List Nat := s.completed.drop s.handled.length

def VirtioSys.live (s : VirtioSys) : List Nat := s.unread ++ s.busy ++ s.ending.toList ++ s.unseen

lemma VirtioSys.mem_live {s : VirtioSys} {h : Nat} :
    h ∈ s.live ↔ h ∈ s.unread ∨ h ∈ s.busy ∨ s.ending = some h ∨ h ∈ s.unseen := by
  simp [live]

/-- Who holds which lock. -/
structure HoldInv (s : VirtioSys) : Prop where
  lock : ∀ p, (s.pc p).holds = true ↔ s.lock = some (.proc p)
  own : ∀ p k, (s.pc p).call = some k → s.bufLock k.buf = some p

structure DescInv (s : VirtioSys) : Prop where
  lt : ∀ p k t, (s.pc p).flight = some (k, t) → ∀ i ∈ t.list, i < numDesc
  nodup : ∀ p k t, (s.pc p).flight = some (k, t) → t.list.Nodup
  taken : ∀ p k t, (s.pc p).flight = some (k, t) → ∀ i ∈ t.list, s.free i = false
  one : ∀ p q k k' t t', (s.pc p).flight = some (k, t) → (s.pc q).flight = some (k', t') →
    ∀ i ∈ t.list, i ∈ t'.list → p = q
  cover : ∀ i, s.free i = false → ∃ p k t, (s.pc p).flight = some (k, t) ∧ i ∈ t.list
  linked : ∀ p k t, (s.pc p).flight = some (k, t) → Linked s k t

structure RingInv (s : VirtioSys) : Prop where
  avail : RingRep numDesc (2 ^ 16) s.availRing s.readIdx s.availIdx s.published s.fetched
  used : RingRep numDesc (2 ^ 16) s.usedRing s.lookedIdx s.usedIdx s.completed s.handled
  slot : ∀ p h, (s.pc p).slotted = some h → s.availRing (s.availIdx % numDesc) = h
  ending : ∀ h, s.ending = some h → s.usedRing (s.usedIdx % numDesc) = h

structure LiveInv (s : VirtioSys) : Prop where
  nodup : s.live.Nodup
  mem : ∀ h, h ∈ s.live ↔ ∃ p k t, (s.pc p).posted = some (k, t) ∧ t.i0 = h ∧ s.bufDisk k.buf = true
  staged : ∀ p k t, (s.pc p).flight = some (k, t) → (s.pc p).posted = none → s.bufDisk k.buf = true
  status : ∀ h ∈ s.ending.toList ++ s.unseen, s.infoStatus h = 0

def VirtioCall.finished (k : VirtioCall) : VirtioEvent := .done k.num k.write k.sector k.buf

structure RequestInv (s : VirtioSys) (hist : List VirtioEvent) : Prop where
  called : ∀ p k, (s.pc p).call = some k → .called k ∈ hist
  num : ∀ k, .called k ∈ hist → k.num < s.calls
  uniq : ∀ k k', .called k ∈ hist → .called k' ∈ hist → k.num = k'.num → k = k'
  posted : ∀ p k t, (s.pc p).posted = some (k, t) → t.i0 ∈ s.unread ++ s.busy ∨ k.finished ∈ hist

/-- What holds in every reachable state. -/
structure VirtioInv (s : VirtioSys) (hist : List VirtioEvent) : Prop where
  hold : HoldInv s
  desc : DescInv s
  ring : RingInv s
  live : LiveInv s
  call : RequestInv s hist

section

variable {s s' : VirtioSys} {hist out : List VirtioEvent} {p q h : Nat} {k k' : VirtioCall}
  {t t' : Triple}

lemma HoldInv.move (hi : HoldInv s) (hl : s.lock = none ∨ s.lock = some (.proc p))
    (hl' : s'.lock = if (s'.pc p).holds then some (.proc p) else none)
    (hq : ∀ q, q ≠ p → (s'.pc q).holds = (s.pc q).holds ∧ (s'.pc q).call = (s.pc q).call)
    (hc : ∀ k, (s'.pc p).call = some k → s.bufLock k.buf = some p)
    (hb : s'.bufLock = s.bufLock) : HoldInv s' where
  lock := by
    intro q
    by_cases hqp : q = p
    · subst hqp
      cases hh : (s'.pc q).holds <;> simp [hl', hh]
    · have hno : s.lock ≠ some (.proc q) := by
        rcases hl with hl | hl <;> simp [hl, Ne.symm hqp]
      rw [(hq q hqp).1, hi.lock q, hl']
      cases (s'.pc p).holds <;> simp [hno, Ne.symm hqp]
  own := by
    intro q k hk
    rw [hb]
    by_cases hqp : q = p
    · subst hqp
      exact hc k hk
    · exact hi.own q k ((hq q hqp).2 ▸ hk)

lemma HoldInv.congr (hi : HoldInv s) (hh : ∀ p, (s'.pc p).holds = (s.pc p).holds)
    (hc : ∀ p, (s'.pc p).call = (s.pc p).call) (hl : s'.lock = s.lock)
    (hb : s'.bufLock = s.bufLock) : HoldInv s' where
  lock := fun p => by rw [hh, hl, hi.lock]
  own := fun p k hk => by rw [hb, hi.own p k (hc p ▸ hk)]

lemma HoldInv.same_buf (hi : HoldInv s) (hp : (s.pc p).call = some k) (hq : (s.pc q).call = some k')
    (hb : k.buf = k'.buf) : p = q := by
  have hp' := hi.own p k hp
  rw [hb, hi.own q k' hq] at hp'
  exact (Option.some.inj hp').symm

lemma HoldInv.only (hi : HoldInv s) (hp : (s.pc p).holds = true)
    (hq : (s.pc q).holds = true) : p = q := by
  have hp' := (hi.lock p).mp hp
  rw [(hi.lock q).mp hq] at hp'
  cases hp'
  rfl

lemma Linked.congr (hk : Linked s k t) (hd : ∀ i ∈ t.list, s'.desc i = s.desc i)
    (ho : s'.ops t.i0 = s.ops t.i0)
    (hb : s'.infoBuf t.i0 = s.infoBuf t.i0) (hw : s'.who t.i0 = s.who t.i0) : Linked s' k t where
  op := (hd _ (by simp [Triple.list])).trans hk.op
  data := (hd _ (by simp [Triple.list])).trans hk.data
  status := (hd _ (by simp [Triple.list])).trans hk.status
  ops := ho.trans hk.ops
  info := hb.trans hk.info
  who := hw.trans hk.who

lemma DescInv.congr (hi : DescInv s) (hv : ∀ p, (s'.pc p).flight = (s.pc p).flight)
    (hf : s'.free = s.free) (hd : ∀ i, s.free i = false → s'.desc i = s.desc i)
    (ho : s'.ops = s.ops) (hb : s'.infoBuf = s.infoBuf)
    (hw : s'.who = s.who) : DescInv s' := by
  refine ⟨?_, ?_, ?_, ?_, ?_, ?_⟩
  · intro p k t hp
    exact hi.lt p k t (hv p ▸ hp)
  · intro p k t hp
    exact hi.nodup p k t (hv p ▸ hp)
  · intro p k t hp
    rw [hf]
    exact hi.taken p k t (hv p ▸ hp)
  · intro p q k k' t t' hp hq
    exact hi.one p q k k' t t' (hv p ▸ hp) (hv q ▸ hq)
  · intro i hf'
    obtain ⟨p, k, t, hp, hm⟩ := hi.cover i (hf ▸ hf')
    exact ⟨p, k, t, (hv p).trans hp, hm⟩
  · intro p k t hp
    have hp' := hv p ▸ hp
    exact (hi.linked p k t hp').congr (fun i hm => hd i (hi.taken p k t hp' i hm)) (by rw [ho])
      (by rw [hb]) (by rw [hw])

lemma RingInv.congr (hi : RingInv s) (hv : ∀ p, (s'.pc p).slotted = (s.pc p).slotted)
    (ha : s'.availRing = s.availRing ∧ s'.readIdx = s.readIdx ∧ s'.availIdx = s.availIdx ∧
      s'.published = s.published ∧ s'.fetched = s.fetched)
    (hu : s'.usedRing = s.usedRing ∧ s'.lookedIdx = s.lookedIdx ∧ s'.usedIdx = s.usedIdx ∧
      s'.completed = s.completed ∧ s'.handled = s.handled) (he : s'.ending = s.ending) :
      RingInv s' := by
  obtain ⟨ha1, ha2, ha3, ha4, ha5⟩ := ha
  obtain ⟨hu1, hu2, hu3, hu4, hu5⟩ := hu
  refine ⟨?_, ?_, fun p h hp => ?_, fun h hh => ?_⟩
  · rw [ha1, ha2, ha3, ha4, ha5]
    exact hi.avail
  · rw [hu1, hu2, hu3, hu4, hu5]
    exact hi.used
  · rw [ha1, ha3]
    exact hi.slot p h (hv p ▸ hp)
  · rw [hu1, hu3]
    exact hi.ending h (he ▸ hh)

lemma LiveInv.moved (hi : LiveInv s) (hl : s'.live.Perm s.live)
    (hv : ∀ p, (s'.pc p).posted = (s.pc p).posted)
    (hb : ∀ p k t, (s.pc p).posted = some (k, t) → s'.bufDisk k.buf = s.bufDisk k.buf)
    (hf : ∀ p k t, (s'.pc p).flight = some (k, t) → (s.pc p).posted = none → s'.bufDisk k.buf = true)
    (hs : ∀ h ∈ s'.ending.toList ++ s'.unseen, s'.infoStatus h = 0) : LiveInv s' := by
  refine ⟨hl.nodup_iff.mpr hi.nodup, fun h => ?_, fun p k t hp hn => hf p k t hp (hv p ▸ hn), hs⟩
  rw [hl.mem_iff, hi.mem]
  constructor
  · rintro ⟨p, k, t, hp, ht, hd⟩
    exact ⟨p, k, t, (hv p).trans hp, ht, (hb p k t hp).trans hd⟩
  · rintro ⟨p, k, t, hp, ht, hd⟩
    rw [hv] at hp
    exact ⟨p, k, t, hp, ht, (hb p k t hp).symm.trans hd⟩

lemma LiveInv.congr (hi : LiveInv s) (hl : s'.live.Perm s.live)
    (hf : ∀ p, (s'.pc p).flight = (s.pc p).flight)
    (hv : ∀ p, (s'.pc p).posted = (s.pc p).posted) (hb : s'.bufDisk = s.bufDisk)
    (hs : ∀ h ∈ s'.ending.toList ++ s'.unseen, s'.infoStatus h = 0) : LiveInv s' := by
  refine hi.moved hl hv (fun p k t _ => by rw [hb]) (fun p k t hp hn => ?_) hs
  rw [hb]
  exact hi.staged p k t (hf p ▸ hp) hn

lemma RequestInv.congr (hi : RequestInv s hist) (hc : ∀ p, (s'.pc p).call = (s.pc p).call)
    (hv : ∀ p, (s'.pc p).posted = (s.pc p).posted) (hn : s'.calls = s.calls)
    (hw : ∀ h ∈ s.unread ++ s.busy, h ∈ s'.unread ++ s'.busy) (ho : ∀ k, .called k ∉ out) :
    RequestInv s' (hist ++ out) where
  called := fun p k hk => List.mem_append_left _ (hi.called p k (hc p ▸ hk))
  num := by
    intro k hk
    rw [hn]
    exact hi.num k ((List.mem_append.mp hk).resolve_right (ho k))
  uniq := by
    intro k k' hk hk'
    exact hi.uniq k k' ((List.mem_append.mp hk).resolve_right (ho k))
      ((List.mem_append.mp hk').resolve_right (ho k'))
  posted := by
    intro p k t hp
    exact (hi.posted p k t (hv p ▸ hp)).imp (hw _) (List.mem_append_left _)

end

section

variable {s s' s1 : VirtioSys} {hist out : List VirtioEvent} {p q h b : Nat} {k k' : VirtioCall}
  {t t' : Triple}

lemma VirtioInv.quiet (hi : VirtioInv s hist) (d : Nat → Desc) (x : Nat → VirtioPc)
    (l : Option VirtioHolder)
    (m : Nat → Option Nat) (hh : HoldInv { s with desc := d, pc := x, lock := l, bufLock := m })
    (hf : ∀ p, (x p).flight = (s.pc p).flight) (hp : ∀ p, (x p).posted = (s.pc p).posted)
    (hs : ∀ p, (x p).slotted = (s.pc p).slotted) (hc : ∀ p, (x p).call = (s.pc p).call)
    (hd : ∀ i, s.free i = false → d i = s.desc i) :
    VirtioInv { s with desc := d, pc := x, lock := l, bufLock := m } (hist ++ []) where
  hold := hh
  desc := hi.desc.congr hf rfl hd rfl rfl rfl
  ring := hi.ring.congr hs ⟨rfl, rfl, rfl, rfl, rfl⟩ ⟨rfl, rfl, rfl, rfl, rfl⟩ rfl
  live := hi.live.congr (.refl _) hf hp rfl hi.live.status
  call := hi.call.congr hc hp rfl (fun _ hm => hm) (by simp)

variable {x y : VirtioPc}

lemma update_same {β : Type} (f : VirtioPc → β) {m : Nat → VirtioPc} (hx : m p = x)
    (hy : f y = f x) (q : Nat) : f (update m p y q) = f (m q) := by
  by_cases hq : q = p
  · subst hq
    rw [update_self, hy, hx]
  · rw [update_of_ne hq]

variable (hi : VirtioInv s hist)
include hi

lemma VirtioInv.go (hx : s.pc p = x)
    (hl : s.lock = none ∨ s.lock = some (.proc p)) (hf : y.flight = x.flight) (hp : y.posted = x.posted)
    (hs : y.slotted = x.slotted) (hc : y.call = x.call) :
    VirtioInv ((s.setPc p y).setLock (if y.holds then some (.proc p) else none)) (hist ++ []) := by
  subst hx
  have hy : ((s.setPc p y).pc p) = y := update_self ..
  refine hi.quiet s.desc _ _ s.bufLock
    (hi.hold.move (p := p) hl ?_ (fun q hq => ?_) (fun k hk => ?_) rfl) (update_same _ rfl hf)
    (update_same _ rfl hp) (update_same _ rfl hs) (update_same _ rfl hc) (fun i _ => rfl)
  · change _ = if ((s.setPc p y).pc p).holds then _ else _
    rw [hy]
  · simp [setPc, hq]
  · change ((s.setPc p y).pc p).call = some k at hk
    rw [hy, hc] at hk
    exact hi.hold.own p k hk

lemma VirtioInv.setBufLock (hb : ∀ q k, (s.pc q).call = some k → k.buf ≠ b) (o : Option Nat) :
    VirtioInv { s with bufLock := update s.bufLock b o } (hist ++ []) := by
  refine hi.quiet s.desc s.pc s.lock _ ⟨hi.hold.lock, fun q k hk => ?_⟩ (fun _ => rfl)
    (fun _ => rfl) (fun _ => rfl) (fun _ => rfl) (fun _ _ => rfl)
  exact (update_of_ne (hb q k hk) ..).trans (hi.hold.own q k hk)

lemma VirtioInv.sameView {x : Nat → VirtioPc} (hv : SameView s { s with pc := x }) :
    VirtioInv { s with pc := x } (hist ++ []) :=
  hi.quiet s.desc x s.lock s.bufLock
    (hi.hold.congr hv.holds hv.call rfl rfl) hv.flight hv.posted hv.slotted hv.call (fun _ _ => rfl)

lemma VirtioInv.intrLock {l : Option VirtioHolder} (hl : ∀ p, s.lock ≠ some (.proc p))
    (hl' : ∀ p, l ≠ some (.proc p)) : VirtioInv (s.setLock l) (hist ++ []) := by
  refine hi.quiet s.desc s.pc l s.bufLock ⟨fun p => ?_, hi.hold.own⟩ (fun _ => rfl) (fun _ => rfl)
    (fun _ => rfl) (fun _ => rfl) (fun _ _ => rfl)
  exact (hi.hold.lock p).trans ⟨fun h => absurd h (hl p), fun h => absurd h (hl' p)⟩

lemma VirtioInv.newCall (hp : s.pc p = .out) (hk : k.num = s.calls)
    (hb : s.bufLock k.buf = some p) :
    VirtioInv { s.setPc p (.enter k) with calls := s.calls + 1 } (hist ++ [.called k]) := by
  refine ⟨⟨fun q => ?_, fun q k' hk' => ?_⟩,
    hi.desc.congr (update_same _ hp rfl) rfl (fun _ _ => rfl) rfl rfl rfl,
    hi.ring.congr (update_same _ hp rfl) ⟨rfl, rfl, rfl, rfl, rfl⟩ ⟨rfl, rfl, rfl, rfl, rfl⟩ rfl,
    hi.live.congr (.refl _) (update_same _ hp rfl) (update_same _ hp rfl) rfl hi.live.status,
    ⟨fun q k' hk' => ?_, fun k' hk' => ?_,
    fun k1 k2 h₁ h2 hn => ?_, fun q k' t hq => ?_⟩⟩
  · have hq : (update s.pc p (.enter k) q).holds = (s.pc q).holds :=
      update_same (y := .enter k) _ hp rfl q
    exact (Bool.eq_iff_iff.mp hq).trans (hi.hold.lock q)
  · by_cases hq : q = p
    · subst hq
      have : k = k' := by simpa [setPc, VirtioPc.call] using hk'
      exact this ▸ hb
    · exact hi.hold.own q k' (by simpa [setPc, hq] using hk')
  · by_cases hq : q = p
    · subst hq
      have : k = k' := by simpa [setPc, VirtioPc.call] using hk'
      simp [this]
    · exact List.mem_append_left _ (hi.call.called q k' (by simpa [setPc, hq] using hk'))
  · rcases List.mem_append.mp hk' with hk' | hk'
    · exact Nat.lt_succ_of_lt (hi.call.num k' hk')
    · cases List.mem_singleton.mp hk'
      exact hk ▸ Nat.lt_succ_self _
  · have hlt : ∀ k', .called k' ∈ hist → k'.num ≠ k.num := fun k' hk' he => by
      have := hi.call.num k' hk'
      omega
    simp only [List.mem_append, List.mem_singleton, VirtioEvent.called.injEq] at h₁ h2
    rcases h₁ with h₁ | rfl <;> rcases h2 with h2 | rfl
    · exact hi.call.uniq k1 k2 h₁ h2 hn
    · exact absurd hn (hlt k1 h₁)
    · exact absurd hn.symm (hlt k2 h2)
    · rfl
  · have hq' : (update s.pc p (.enter k) q).posted = (s.pc q).posted :=
      update_same (y := .enter k) _ hp rfl q
    exact (hi.call.posted q k' t (hq'.symm.trans hq)).imp_right (List.mem_append_left _)

lemma VirtioInv.allocFailed (hp : s.pc p = .alloc k) (ha : AllocFailed s s1) :
    VirtioInv ((s1.setPc p (.dozeFree k)).setLock none) (hist ++ []) := by
  obtain ⟨d, x, rfl⟩ : ∃ d x, s1 = { s with desc := d, pc := x } := ⟨_, _, ha.rest⟩
  have hv := ha.view
  have hl := (hi.hold.lock p).mp (by rw [hp]; rfl)
  have h₁ := hi.quiet d x s.lock s.bufLock
    (hi.hold.congr hv.holds hv.call rfl rfl) hv.flight hv.posted hv.slotted hv.call ha.desc
  rw [List.append_nil] at h₁
  refine h₁.go (p := p) rfl (.inr hl) ?_ ?_ ?_ ?_
  · exact ((hv.flight p).trans (by rw [hp]; rfl)).symm
  · exact ((hv.posted p).trans (by rw [hp]; rfl)).symm
  · exact ((hv.slotted p).trans (by rw [hp]; rfl)).symm
  · exact ((hv.call p).trans (by rw [hp]; rfl)).symm

omit hi

lemma mem_i0 (t : Triple) : t.i0 ∈ t.list := List.mem_cons_self ..

lemma DescInv.alloced (hi : DescInv s) (hp : s.pc p = .alloc k) (ha : Alloced s s1 t) :
    DescInv ((s1.format k t).setPc p (.ring k t)) := by
  have hfl : ∀ {q k' t'}, (((s1.format k t).setPc p (.ring k t)).pc q).flight = some (k', t') →
      q = p ∧ k' = k ∧ t' = t ∨ q ≠ p ∧ (s.pc q).flight = some (k', t') := by
    intro q k' t' hq
    by_cases hqp : q = p
    · subst hqp
      have he : k = k' ∧ t = t' := by simpa [setPc, format, VirtioPc.flight] using hq
      exact .inl ⟨rfl, he.1.symm, he.2.symm⟩
    · exact .inr ⟨hqp, by simpa [setPc, format, hqp, ha.eq] using hq⟩
  have hnew : ∀ {q k' t'}, (s.pc q).flight = some (k', t') → ∀ i ∈ t'.list, i ∉ t.list := by
    intro q k' t' hq i hi' hm
    have := hi.taken q k' t' hq i hi'
    rw [ha.free i hm] at this
    cases this
  have hfree : ∀ i, ((s1.format k t).setPc p (.ring k t)).free i = if i ∈ t.list then
    false else s.free i := by
    intro i
    simp [setPc, format, ha.eq]
  refine ⟨fun q k' t' hq => ?_, fun q k' t' hq => ?_, fun q k' t' hq i hm => ?_,
    fun q r k1 k2 t1 t2 hq hr i h₁ h2 => ?_, fun i hf => ?_, fun q k' t' hq => ?_⟩
  · rcases hfl hq with ⟨-, -, rfl⟩ | ⟨-, hq⟩
    · exact ha.lt
    · exact hi.lt q k' t' hq
  · rcases hfl hq with ⟨-, -, rfl⟩ | ⟨-, hq⟩
    · exact ha.nodup
    · exact hi.nodup q k' t' hq
  · rw [hfree]
    rcases hfl hq with ⟨-, -, rfl⟩ | ⟨-, hq⟩
    · rw [if_pos hm]
    · rw [if_neg (hnew hq i hm), hi.taken q k' t' hq i hm]
  · rcases hfl hq with ⟨hqp, -, ht1⟩ | ⟨-, hq'⟩ <;> rcases hfl hr with ⟨hrp, -, ht2⟩ | ⟨-, hr'⟩
    · exact hqp.trans hrp.symm
    · exact absurd (ht1 ▸ h₁) (hnew hr' i h2)
    · exact absurd (ht2 ▸ h2) (hnew hq' i h₁)
    · exact hi.one q r k1 k2 t1 t2 hq' hr' i h₁ h2
  · rw [hfree] at hf
    by_cases hm : i ∈ t.list
    · exact ⟨p, k, t, by simp [setPc, VirtioPc.flight], hm⟩
    · rw [if_neg hm] at hf
      obtain ⟨q, k', t', hq, hm'⟩ := hi.cover i hf
      have hqp : q ≠ p := by
        rintro rfl
        simp [hp, VirtioPc.flight] at hq
      exact ⟨q, k', t', by simpa [setPc, format, hqp, ha.eq] using hq, hm'⟩
  · rcases hfl hq with ⟨-, rfl, rfl⟩ | ⟨-, hq⟩
    · obtain ⟨h01, h02, h12⟩ : t'.i0 ≠ t'.i1 ∧ t'.i0 ≠ t'.i2 ∧ t'.i1 ≠ t'.i2 := by
        simpa [Triple.list, and_assoc] using ha.nodup
      constructor <;> simp [setPc, format, h01, h02, h12]
    · have hne := hnew hq _ (mem_i0 t')
      have h0 : t'.i0 ≠ t.i0 := fun he => hne (he ▸ mem_i0 t)
      refine (hi.linked q k' t' hq).congr (fun i hm => ?_) ?_ ?_ ?_
      · obtain ⟨hi0, hi1, hi2⟩ : i ≠ t.i0 ∧ i ≠ t.i1 ∧ i ≠ t.i2 := by
          simpa [Triple.list] using hnew hq i hm
        simp [setPc, format, ha.eq, hi0, hi1, hi2]
      · simp [setPc, format, ha.eq, h0]
      · simp [setPc, format, ha.eq, h0]
      · simp [setPc, format, ha.eq, h0]

lemma LiveInv.head (hi : LiveInv s) (hm : h ∈ s.live) :
    ∃ q k t, (s.pc q).posted = some (k, t) ∧ (s.pc q).flight = some (k, t) ∧ t.i0 = h ∧
    s.bufDisk k.buf = true := by
  obtain ⟨q, k, t, hq, ht, hb⟩ := (hi.mem h).mp hm
  exact ⟨q, k, t, hq, posted_flight hq, ht, hb⟩

lemma LiveInv.alloced (hi : VirtioInv s hist) (hp : s.pc p = .alloc k)
    (hf : ∀ i ∈ t.list, s.free i = true)
    (f : Nat → Bool) : LiveInv ((format { s with free := f } k t).setPc p (.ring k t)) := by
  have hbuf : ∀ {q k'}, q ≠ p → (s.pc q).call = some k' → k'.buf ≠ k.buf := fun hq hc he =>
    hq (hi.hold.same_buf hc (by rw [hp]; rfl) he)
  have hne : ∀ {q k' t'}, (s.pc q).posted = some (k', t') → q ≠ p := by
    rintro q k' t' hq rfl
    simp [hp, VirtioPc.posted] at hq
  refine hi.live.moved (.refl _) (update_same _ hp rfl) (fun q k' t' hq => ?_)
    (fun q k' t' hq hn => ?_) (fun h hm => ?_)
  · exact update_of_ne (hbuf (hne hq) (flight_call (posted_flight hq))) ..
  · by_cases hqp : q = p
    · subst hqp
      have he : k = k' ∧ t = t' := by simpa [setPc, VirtioPc.flight] using hq
      rw [← he.1]
      exact update_self ..
    · have hq' : (s.pc q).flight = some (k', t') := by simpa [setPc, format, hqp] using hq
      exact (update_of_ne (hbuf hqp (flight_call hq')) ..).trans (hi.live.staged q k' t' hq' hn)
  · -- the status byte that is reset belongs to a chain that was free
    change h ∈ s.ending.toList ++ s.unseen at hm
    obtain ⟨q, k', t', -, hq, rfl, -⟩ := hi.live.head (h := h) (mem_live.mpr (by simp_all))
    have hne0 : t'.i0 ≠ t.i0 := by
      intro he
      have := hi.desc.taken q k' t' hq _ (mem_i0 t')
      rw [he, hf _ (mem_i0 t)] at this
      cases this
    exact (update_of_ne hne0 ..).trans (hi.live.status _ hm)

lemma VirtioInv.alloced (hi : VirtioInv s hist) (hp : s.pc p = .alloc k) (ha : Alloced s s1 t) :
    VirtioInv ((s1.format k t).setPc p (.ring k t)) (hist ++ []) := by
  have hdesc := hi.desc.alloced hp ha
  obtain ⟨f, rfl⟩ : ∃ f, s1 = { s with free := f } := ⟨_, ha.eq⟩
  have hl := (hi.hold.lock p).mp (by rw [hp]; rfl)
  refine ⟨hi.hold.move (p := p) (.inr hl) ?_ (fun q hq => ?_) (fun k' hk => ?_) rfl, hdesc,
    hi.ring.congr (update_same _ hp rfl) ⟨rfl, rfl, rfl, rfl, rfl⟩ ⟨rfl, rfl, rfl, rfl, rfl⟩ rfl,
    LiveInv.alloced hi hp ha.free f,
    hi.call.congr (update_same _ hp rfl) (update_same _ hp rfl) rfl (fun _ hm => hm) (by simp)⟩
  · simp [setPc, VirtioPc.holds, hl, format]
  · simp [setPc, format, hq]
  · have : k = k' := by simpa [setPc, VirtioPc.call] using hk
    exact this ▸ hi.hold.own p k (by rw [hp]; rfl)

lemma VirtioInv.live_lt (hi : VirtioInv s hist) (hm : h ∈ s.live) : h < numDesc := by
  obtain ⟨q, k, t, -, hq, rfl, -⟩ := hi.live.head hm
  exact hi.desc.lt q k t hq _ (mem_i0 t)

lemma length_lt_of_nodup {l : List Nat} (hn : (h :: l).Nodup) (hlt : ∀ i ∈ h :: l, i < numDesc) :
    l.length < numDesc := by
  have hsub : (h :: l).Subperm (List.range numDesc) :=
    hn.subperm fun i hi => List.mem_range.mpr (hlt i hi)
  have := hsub.length_le
  rw [List.length_range, List.length_cons] at this
  exact this

lemma VirtioInv.new_head (hi : VirtioInv s hist) (hp : (s.pc p).flight = some (k, t))
    (hn : (s.pc p).posted = none) : t.i0 ∉ s.live := by
  intro hm
  obtain ⟨q, k', t', hq, hq', he, -⟩ := hi.live.head hm
  have hpq := hi.desc.one p q k k' t t' hp hq' t.i0 (mem_i0 t) (he ▸ mem_i0 t')
  rw [hpq, hq] at hn
  cases hn

lemma VirtioInv.avail_room (hi : VirtioInv s hist) (hp : (s.pc p).flight = some (k, t))
    (hn : (s.pc p).posted = none) : s.published.length < s.fetched.length + numDesc := by
  have hnew := hi.new_head hp hn
  have hnodup := hi.live.nodup
  have hlt : s.unread.length < numDesc := by
    refine length_lt_of_nodup (h := t.i0) ?_ (fun i him => ?_)
    · rw [VirtioSys.live, List.append_assoc, List.append_assoc] at hnodup
      exact List.nodup_cons.mpr ⟨fun hu => hnew (mem_live.mpr (.inl hu)),
        (List.nodup_append.mp hnodup).1⟩
    · rcases List.mem_cons.mp him with rfl | him
      · exact hi.desc.lt p k t hp _ (mem_i0 t)
      · exact hi.live_lt (mem_live.mpr (.inl him))
  simp only [unread, List.length_drop] at hlt
  omega

lemma VirtioInv.used_room (hi : VirtioInv s hist) (hm : h ∈ s.busy ++ s.ending.toList) :
    s.completed.length < s.handled.length + numDesc := by
  have hnodup := hi.live.nodup
  have hlive : h ∈ s.live := mem_live.mpr (.inr (by simp_all [← or_assoc]))
  have hlt : s.unseen.length < numDesc := by
    refine length_lt_of_nodup (h := h) ?_ (fun i him => ?_)
    · rw [VirtioSys.live, List.append_assoc s.unread, List.nodup_append] at hnodup
      exact List.nodup_cons.mpr ⟨fun hu => hnodup.2.2 h (by simp_all) h hu rfl, hnodup.2.1⟩
    · rcases List.mem_cons.mp him with rfl | him
      · exact hi.live_lt hlive
      · exact hi.live_lt (mem_live.mpr (.inr (.inr (.inr him))))
  simp only [unseen, List.length_drop] at hlt
  omega

lemma dvd_ring : numDesc ∣ 2 ^ 16 := by decide

lemma VirtioInv.ringStep (hi : VirtioInv s hist) (hp : s.pc p = .ring k t) :
    VirtioInv { s.setPc p (.publish k t) with
      availRing := update s.availRing (s.availIdx % numDesc) t.i0 } (hist ++ []) where
  hold := hi.hold.congr (update_same _ hp rfl) (update_same _ hp rfl) rfl rfl
  desc := hi.desc.congr (update_same _ hp rfl) rfl (fun _ _ => rfl) rfl rfl rfl
  ring := by
    have hroom := hi.avail_room (p := p) (k := k) (t := t) (by rw [hp]; rfl) (by rw [hp]; rfl)
    refine ⟨hi.ring.avail.write dvd_ring hroom t.i0, hi.ring.used, fun q h hq => ?_, hi.ring.ending⟩
    by_cases hqp : q = p
    · subst hqp
      have : t.i0 = h := by simpa [setPc, VirtioPc.slotted] using hq
      exact this ▸ update_self ..
    · have hq' : (s.pc q).slotted = some h := by simpa [setPc, hqp] using hq
      exact absurd (hi.hold.only (by cases hs : s.pc q <;> simp_all [VirtioPc.slotted, VirtioPc.holds])
        (by rw [hp]; rfl)) hqp
  live := hi.live.congr (.refl _) (update_same _ hp rfl) (update_same _ hp rfl) rfl hi.live.status
  call := hi.call.congr (update_same _ hp rfl) (update_same _ hp rfl) rfl (fun _ hm => hm) (by simp)

lemma VirtioInv.publishStep (hi : VirtioInv s hist) (hp : s.pc p = .publish k t) :
    VirtioInv { s.setPc p (.check k t) with
      availIdx := (s.availIdx + 1) % 2 ^ 16
      published := s.published ++ [t.i0] } (hist ++ []) := by
  have hf : (s.pc p).flight = some (k, t) := by rw [hp]; rfl
  have hn : (s.pc p).posted = none := by rw [hp]; rfl
  have hroom := hi.avail_room hf hn
  have hnew := hi.new_head hf hn
  have hdrop := hi.ring.avail.drop_push t.i0
  have hpost : ∀ {q k' t'}, (update s.pc p (.check k t) q).posted = some (k', t') ↔
      q = p ∧ k = k' ∧ t = t' ∨ (s.pc q).posted = some (k', t') := by
    intro q k' t'
    by_cases hqp : q = p
    · subst hqp
      rw [update_self, hn]
      simp [VirtioPc.posted]
    · simp [hqp]
  refine ⟨hi.hold.congr (update_same _ hp rfl) (update_same _ hp rfl) rfl rfl,
    hi.desc.congr (update_same _ hp rfl) rfl (fun _ _ => rfl) rfl rfl rfl,
    ⟨hi.ring.avail.advance dvd_ring hroom (hi.ring.slot p t.i0 (by rw [hp]; rfl)), hi.ring.used,
      fun q h hq => ?_, hi.ring.ending⟩, ?_, ?_⟩
  · by_cases hqp : q = p
    · subst hqp
      simp [setPc, VirtioPc.slotted] at hq
    · have hq' : (s.pc q).slotted = some h := by simpa [setPc, hqp] using hq
      exact absurd (hi.hold.only (by cases hs : s.pc q <;> simp_all [VirtioPc.slotted, VirtioPc.holds])
        (by rw [hp]; rfl)) hqp
  · have hperm :
      ((s.published ++ [t.i0]).drop s.fetched.length ++ s.busy ++ s.ending.toList ++ s.unseen).Perm
        (t.i0 :: s.live) := by
      rw [hdrop]
      simp [VirtioSys.live, VirtioSys.unread]
    refine ⟨hperm.nodup_iff.mpr (List.nodup_cons.mpr ⟨hnew, hi.live.nodup⟩), fun h => ?_,
      fun q k' t' hq hn' => ?_, hi.live.status⟩
    · refine hperm.mem_iff.trans (List.mem_cons.trans ?_)
      constructor
      · rintro (rfl | hm)
        · exact ⟨p, k, t, hpost.mpr (.inl ⟨rfl, rfl, rfl⟩), rfl, hi.live.staged p k t hf hn⟩
        · obtain ⟨q, k', t', hq, ht, hb⟩ := (hi.live.mem h).mp hm
          exact ⟨q, k', t', hpost.mpr (.inr hq), ht, hb⟩
      · rintro ⟨q, k', t', hq, ht, hb⟩
        rcases hpost.mp hq with ⟨-, -, rfl⟩ | hq
        · exact .inl ht.symm
        · exact .inr ((hi.live.mem h).mpr ⟨q, k', t', hq, ht, hb⟩)
    · have hqp : q ≠ p := by
        rintro rfl
        simp [setPc, VirtioPc.posted] at hn'
      exact hi.live.staged q k' t' (by simpa [setPc, hqp] using hq) (by simpa [setPc, hqp] using hn')
  · have hc : ∀ q, (update s.pc p (.check k t) q).call = (s.pc q).call := update_same _ hp rfl
    refine ⟨fun q k' hq => ?_, ?_, ?_, fun q k' t' hq => ?_⟩
    · rw [List.append_nil]
      exact hi.call.called q k' ((hc q).symm.trans hq)
    · rw [List.append_nil]
      exact hi.call.num
    · rw [List.append_nil]
      exact hi.call.uniq
    · rw [List.append_nil]
      change t'.i0 ∈ (s.published ++ [t.i0]).drop s.fetched.length ++ s.busy ∨ _
      rw [hdrop]
      rcases hpost.mp hq with ⟨-, -, rfl⟩ | hq
      · simp
      · refine (hi.call.posted q k' t' hq).imp_left fun hm => ?_
        simp_all [VirtioSys.unread]
        exact hm.imp_right .inr

lemma VirtioInv.deviceFetch (hi : VirtioInv s hist) (hs : Xv6.deviceFetch s = some s') :
    VirtioInv s' (hist ++ []) := by
  unfold Xv6.deviceFetch at hs
  split_ifs at hs with hne
  cases hs
  have hne' : s.fetched ≠ s.published := fun he => hne ((hi.ring.avail.empty_iff (by decide)).mpr he)
  obtain ⟨hget, hpop⟩ := hi.ring.avail.pop dvd_ring hne'
  have hdrop := RingRep.drop_pop hget
  refine ⟨hi.hold.congr (fun _ => rfl) (fun _ => rfl) rfl rfl,
    hi.desc.congr (fun _ => rfl) rfl (fun _ _ => rfl) rfl rfl rfl,
    ⟨hpop, hi.ring.used, hi.ring.slot, hi.ring.ending⟩,
    hi.live.congr ?_ (fun _ => rfl) (fun _ => rfl) rfl hi.live.status,
    hi.call.congr (fun _ => rfl) (fun _ => rfl) rfl (fun h hm => ?_) (by simp)⟩
  · rw [VirtioSys.live, VirtioSys.live, VirtioSys.unread, VirtioSys.unread, hdrop]
    exact (List.perm_middle.append_right _).append_right _
  · rw [VirtioSys.unread, hdrop] at hm
    simp only [List.cons_append, List.mem_cons, List.mem_append, VirtioSys.unread] at hm ⊢
    rcases hm with hm | hm | hm
    · exact .inr (.inl hm)
    · exact .inl hm
    · exact .inr (.inr hm)

lemma VirtioInv.deviceCount (hi : VirtioInv s hist) (hs : Xv6.deviceCount s = some s') :
    VirtioInv s' (hist ++ []) := by
  unfold Xv6.deviceCount at hs
  split at hs
  next h he =>
    cases hs
    have hroom := hi.used_room (h := h) (by simp [he])
    have hdrop := hi.ring.used.drop_push h
    refine ⟨hi.hold.congr (fun _ => rfl) (fun _ => rfl) rfl rfl,
      hi.desc.congr (fun _ => rfl) rfl (fun _ _ => rfl) rfl rfl rfl,
      ⟨hi.ring.avail, hi.ring.used.advance dvd_ring hroom (hi.ring.ending h he), hi.ring.slot, by simp⟩,
      hi.live.congr ?_ (fun _ => rfl) (fun _ => rfl) rfl (fun i hm => ?_),
      hi.call.congr (fun _ => rfl) (fun _ => rfl) rfl (fun _ hm => hm) (by simp)⟩
    · rw [VirtioSys.live, VirtioSys.live, he]
      simp only [VirtioSys.unread, VirtioSys.unseen, hdrop, Option.toList_none, Option.toList_some,
        List.append_nil, List.append_assoc]
      exact (List.perm_append_comm.append_left _).append_left _
    · refine hi.live.status i ?_
      rw [he]
      simp only [VirtioSys.unseen, hdrop, Option.toList_none, List.nil_append, List.mem_append,
        List.mem_singleton, Option.toList_some] at hm ⊢
      exact hm.symm
  next => cases hs

/-- Why an event may happen. -/
def Justified (s s' : VirtioSys) (hist : List VirtioEvent) : VirtioEvent → Prop
  | .called k => ∀ k', .called k' ∈ hist → k'.num ≠ k.num
  | .done num write sector buf => ∃ k, .called k ∈ hist ∧ .done num write sector buf = k.finished
  | .cleared num buf => ∃ k, .called k ∈ hist ∧ k.num = num ∧ k.buf = buf ∧ k.finished ∈ hist ∧
      s'.bufDisk = update s.bufDisk buf false
  | .returned num => ∃ p k t, s.pc p = .check k t ∧ .called k ∈ hist ∧ k.num = num ∧ k.finished ∈ hist ∧
      ∀ i ∈ t.list, s'.free i = true
  | .panic _ => False

def Follows (s : VirtioSys) (hist : List VirtioEvent) (s' : VirtioSys)
    (out : List VirtioEvent) : Prop :=
  VirtioInv s' (hist ++ out) ∧ ∀ e ∈ out, Justified s s' hist e

lemma Follows.silent (hi : VirtioInv s' (hist ++ [])) : Follows s hist s' [] := ⟨hi, by simp⟩

lemma Follows.event {e : VirtioEvent} (hi : VirtioInv s' (hist ++ [e]))
    (hj : Justified s s' hist e) : Follows s hist s' [e] := by
  refine ⟨hi, fun e' he => ?_⟩
  rw [List.mem_singleton.mp he]
  exact hj

include hi

lemma VirtioInv.called_of_posted (hp : (s.pc p).posted = some (k, t)) : .called k ∈ hist :=
  hi.call.called p k (flight_call (posted_flight hp))

lemma VirtioInv.chain (hm : h ∈ s.live) :
    ∃ q k t, (s.pc q).posted = some (k, t) ∧ t.i0 = h ∧ Linked s k t := by
  obtain ⟨q, k, t, hq, hf, ht, -⟩ := hi.live.head hm
  exact ⟨q, k, t, hq, ht, hi.desc.linked q k t hf⟩

lemma VirtioInv.deviceEnd_eq (hm : h ∈ s.busy) (he : s.ending = none) :
    ∃ q k t, (s.pc q).posted = some (k, t) ∧ t.i0 = h ∧ deviceEnd s h = some ({ s with
      infoStatus := update s.infoStatus h 0
      usedRing := update s.usedRing (s.usedIdx % numDesc) h
      busy := s.busy.erase h
      ending := some h }, [k.finished]) := by
  obtain ⟨q, k, t, hq, rfl, hk⟩ := hi.chain (mem_live.mpr (.inr (.inl hm)))
  refine ⟨q, k, t, hq, rfl, ?_⟩
  simp [deviceEnd, hm, he, hk.op, hk.data, hk.status, hk.ops, hk.who, VirtioCall.finished]

lemma VirtioInv.deviceEnd (hs : Xv6.deviceEnd s h = some (s', out)) :
    Follows s hist s' out := by
  have hm : h ∈ s.busy ∧ s.ending = none := by
    unfold Xv6.deviceEnd at hs
    split at hs
    · assumption
    · cases hs
  obtain ⟨q, k, t, hq, ht, he⟩ := hi.deviceEnd_eq hm.1 hm.2
  cases he.symm.trans hs
  have hperm : (s.busy.erase h ++ [h]).Perm s.busy :=
    (List.perm_append_singleton _ _).trans (List.perm_cons_erase hm.1).symm
  have hroom := hi.used_room (h := h) (by simp [hm.1])
  refine .event ⟨hi.hold.congr (fun _ => rfl) (fun _ => rfl) rfl rfl,
    hi.desc.congr (fun _ => rfl) rfl (fun _ _ => rfl) rfl rfl rfl,
    ⟨hi.ring.avail, hi.ring.used.write dvd_ring hroom h, hi.ring.slot, ?_⟩,
    hi.live.congr ?_ (fun _ => rfl) (fun _ => rfl) rfl (fun i hi' => ?_),
    ?_⟩ ⟨k, hi.called_of_posted hq, rfl⟩
  · intro h' hh
    cases hh
    exact update_self ..
  · simpa [VirtioSys.live, VirtioSys.unread, VirtioSys.unseen, hm.2]
      using (hperm.append_right _).append_left _
  · by_cases hih : i = h
    · subst hih
      exact update_self ..
    · refine (update_of_ne hih ..).trans (hi.live.status i ?_)
      simpa [VirtioSys.unseen, hm.2, hih] using hi'
  · refine ⟨fun p k' hp => List.mem_append_left _ (hi.call.called p k' hp), fun k' hk' => ?_,
      fun k1 k2 h₁ h2 => ?_, fun p k' t' hp => ?_⟩
    · exact hi.call.num k' (by simpa [VirtioCall.finished] using hk')
    · exact hi.call.uniq k1 k2 (by simpa [VirtioCall.finished] using h₁)
        (by simpa [VirtioCall.finished] using h2)
    · by_cases hth : t'.i0 = h
      · -- the chain that was done is the chain of `p`
        have hpq :=
          hi.desc.one p q k' k t' t (posted_flight hp) (posted_flight hq) h (hth ▸ mem_i0 t')
            (ht ▸ mem_i0 t)
        subst hpq
        change (s.pc p).posted = some (k', t') at hp
        cases hq.symm.trans hp
        simp
      · refine (hi.call.posted p k' t' hp).imp (fun hm' => ?_) (List.mem_append_left _)
        simp only [List.mem_append, VirtioSys.unread] at hm' ⊢
        exact hm'.imp_right (List.mem_erase_of_ne hth).mpr

lemma VirtioInv.done_of_unseen (hq : (s.pc q).posted = some (k, t)) (hm : t.i0 ∈ s.unseen) :
    k.finished ∈ hist := by
  refine (hi.call.posted q k t hq).resolve_left fun hw => ?_
  have hn := hi.live.nodup
  rw [VirtioSys.live, List.nodup_append] at hn
  exact hn.2.2 _ (List.mem_append_left _ hw) _ hm rfl

lemma VirtioInv.goIntr_eq (hne : s.lookedIdx ≠ s.usedIdx) :
    ∃ q k t, (s.pc q).posted = some (k, t) ∧
    s.unseen = t.i0 :: s.completed.drop (s.handled ++ [t.i0]).length ∧ k.finished ∈ hist ∧
      RingRep numDesc (2 ^ 16) s.usedRing ((s.lookedIdx + 1) % 2 ^ 16) s.usedIdx s.completed
      (s.handled ++ [t.i0]) ∧
      goIntr s = (({ s with
        bufDisk := update s.bufDisk k.buf false
        lookedIdx := (s.lookedIdx + 1) % 2 ^ 16
        handled := s.handled ++ [t.i0] } : VirtioSys).wakeBuf k.buf, [.cleared k.num k.buf]) := by
  have hne' : s.handled ≠ s.completed := fun he => hne ((hi.ring.used.empty_iff (by decide)).mpr he)
  obtain ⟨hget, hpop⟩ := hi.ring.used.pop dvd_ring hne'
  have hdrop := RingRep.drop_pop hget
  have hm : s.usedRing (s.lookedIdx % numDesc) ∈ s.unseen := by simp [VirtioSys.unseen, hdrop]
  obtain ⟨q, k, t, hq, ht, hk⟩ := hi.chain (mem_live.mpr (.inr (.inr (.inr hm))))
  rw [← ht] at hm hdrop hpop
  refine ⟨q, k, t, hq, hdrop, hi.done_of_unseen hq hm, hpop, ?_⟩
  have hst := hi.live.status t.i0 (by simp [hm])
  simp [goIntr, hne, ← ht, hst, hk.info, hk.who]

lemma VirtioInv.handle (hs : goIntr s = (s', out)) (hl : s.lock = some .intr) :
    Follows s hist s' out := by
  by_cases hne : s.lookedIdx = s.usedIdx
  · simp only [goIntr, hne, ne_eq, not_true_eq_false, if_false] at hs
    cases hs
    exact .silent (hi.intrLock (by simp [hl]) (by simp))
  · obtain ⟨q, k, t, hq, hdrop, hdone, hpop, he⟩ := hi.goIntr_eq hne
    cases he.symm.trans hs
    set s1 : VirtioSys := { s with
      bufDisk := update s.bufDisk k.buf false
      lookedIdx := (s.lookedIdx + 1) % 2 ^ 16
      handled := s.handled ++ [t.i0] } with hs1
    have hv1 : SameView s s1 := sameView_of_pc rfl
    have hv : SameView s (s1.wakeBuf k.buf) := hv1.trans wakeBuf_view
    have hlive : s.live.Perm (t.i0 :: (s1.wakeBuf k.buf).live) := by
      rw [VirtioSys.live, hdrop]
      exact List.perm_middle
    have hbuf : ∀ {p k' t'}, (s.pc p).flight = some (k', t') → p ≠ q → k'.buf ≠ k.buf :=
      fun hp hpq he =>
      hpq (hi.hold.same_buf (flight_call hp) (flight_call (posted_flight hq)) he)
    have hnodup := List.nodup_cons.mp (hlive.nodup_iff.mp hi.live.nodup)
    refine .event ⟨hi.hold.congr hv.holds hv.call rfl rfl,
      hi.desc.congr hv.flight rfl (fun _ _ => rfl) rfl rfl rfl,
      ⟨hi.ring.avail, hpop, fun p h hp => hi.ring.slot p h (hv.slotted p ▸ hp), hi.ring.ending⟩,
      ⟨hnodup.2, fun h => ?_, fun p k' t' hp hn => ?_, fun h hm => ?_⟩,
      hi.call.congr hv.call hv.posted rfl (fun _ hm => hm) (by simp)⟩
      ⟨k, hi.called_of_posted hq, rfl, rfl, hdone, rfl⟩
    · constructor
      · intro hm
        obtain ⟨p, k', t', hp, rfl, hb⟩ :=
          (hi.live.mem h).mp (hlive.mem_iff.mpr (List.mem_cons_of_mem _ hm))
        have hpq : p ≠ q := by
          rintro rfl
          cases hq.symm.trans hp
          exact hnodup.1 hm
        exact ⟨p, k', t', (hv.posted p).trans hp, rfl,
          (update_of_ne (hbuf (posted_flight hp) hpq) ..).trans hb⟩
      · rintro ⟨p, k', t', hp, rfl, hb⟩
        rw [hv.posted] at hp
        change update s.bufDisk k.buf false k'.buf = true at hb
        have hpq : p ≠ q := by
          rintro rfl
          cases hq.symm.trans hp
          simp at hb
        rw [update_of_ne (hbuf (posted_flight hp) hpq)] at hb
        refine (List.mem_cons.mp
          (hlive.mem_iff.mp ((hi.live.mem _).mpr ⟨p, k', t', hp, rfl, hb⟩))).resolve_left fun he =>
          ?_
        exact hpq (hi.desc.one p q k' k t' t (posted_flight hp) (posted_flight hq) _ (mem_i0 t')
          (he ▸ mem_i0 t))
    · rw [hv.flight] at hp
      rw [hv.posted] at hn
      have hpq : p ≠ q := by
        rintro rfl
        rw [hq] at hn
        cases hn
      exact (update_of_ne (hbuf hp hpq) ..).trans (hi.live.staged p k' t' hp hn)
    · refine hi.live.status h ?_
      rw [hdrop]
      rcases List.mem_append.mp hm with hm | hm
      · exact List.mem_append_left _ hm
      · exact List.mem_append_right _ (List.mem_cons_of_mem _ hm)

lemma VirtioInv.done_of_clear (hp : (s.pc p).posted = some (k, t))
    (hb : s.bufDisk k.buf = false) : k.finished ∈ hist := by
  have hno : t.i0 ∉ s.live := by
    intro hm
    obtain ⟨q, k', t', hq, hq', ht, hb'⟩ := hi.live.head hm
    have hpq := hi.desc.one p q k k' t t' (posted_flight hp) hq' t.i0 (mem_i0 t) (ht ▸ mem_i0 t')
    subst hpq
    cases hp.symm.trans hq
    rw [hb] at hb'
    cases hb'
  refine (hi.call.posted p k t hp).resolve_left fun hw => hno (mem_live.mpr ?_)
  rcases List.mem_append.mp hw with hw | hw
  · exact .inl hw
  · exact .inr (.inl hw)

lemma VirtioInv.finishStep_eq (hp : s.pc p = .check k t) :
    ∃ s1, ChainFreed { s with infoBuf := update s.infoBuf t.i0 none } s1 t ∧
      finishStep s p k t = ((s1.setPc p .out).setLock none, [.returned k.num]) := by
  have hf : (s.pc p).flight = some (k, t) := by rw [hp]; rfl
  have hk := hi.desc.linked p k t hf
  set s0 : VirtioSys := { s with infoBuf := update s.infoBuf t.i0 none } with hs0
  have hspec : ∃ s1, s0.freeChain t.i0 (numDesc + 1) = .ok s1 ∧ ChainFreed s0 s1 t := by
    refine freeChain_spec (hi.desc.lt p k t hf) (hi.desc.nodup p k t hf)
      (hi.desc.taken p k t hf) ?_ ?_ ?_ ?_ ?_
    · simp [hs0, hk.op, descNext]
    · simp [hs0, hk.op]
    · cases hw : k.write <;> simp [hs0, hk.data, hw, descWrite, descNext]
    · simp [hs0, hk.data]
    · simp [hs0, hk.status, descWrite]
  obtain ⟨s1, he, hc⟩ := hspec
  refine ⟨s1, hc, ?_⟩
  rw [finishStep, he]

omit hi

lemma DescInv.finish (hi : DescInv s) (hf : (s.pc p).flight = some (k, t)) {f : Nat → Bool}
    {d : Nat → Desc} {x : Nat → VirtioPc} (hfree : ∀ i, f i = if i ∈ t.list then true else s.free i)
    (hd : ∀ i, i ∉ t.list → d i = s.desc i) (hx : (x p).flight = none)
    (hq : ∀ q, q ≠ p → (x q).flight = (s.pc q).flight) : DescInv { s with
      infoBuf := update s.infoBuf t.i0 none, free := f, desc := d, pc := x, lock := none } := by
  have hfl : ∀ {q k' t'}, (x q).flight = some (k', t') →
      (s.pc q).flight = some (k', t') ∧ ∀ i ∈ t'.list, i ∉ t.list := by
    intro q k' t' hq'
    have hqp : q ≠ p := by
      rintro rfl
      rw [hx] at hq'
      cases hq'
    rw [hq q hqp] at hq'
    exact ⟨hq', fun i h' ht => hqp (hi.one q p k' k t' t hq' hf i h' ht)⟩
  refine ⟨fun q k' t' hq => hi.lt q k' t' (hfl hq).1, fun q k' t' hq => hi.nodup q k' t' (hfl hq).1,
    fun q k' t' hq i hm => ?_, fun q r k1 k2 t1 t2 hq hr =>
    hi.one q r k1 k2 t1 t2 (hfl hq).1 (hfl hr).1,
    fun i hfi => ?_, fun q k' t' hq => ?_⟩
  · obtain ⟨hq', hne⟩ := hfl hq
    exact (hfree i).trans ((if_neg (hne i hm)).trans (hi.taken q k' t' hq' i hm))
  · change f i = false at hfi
    rw [hfree] at hfi
    have hm : i ∉ t.list := by
      intro hm
      rw [if_pos hm] at hfi
      cases hfi
    rw [if_neg hm] at hfi
    obtain ⟨q, k', t', hq', hm'⟩ := hi.cover i hfi
    have hqp : q ≠ p := by
      rintro rfl
      cases hf.symm.trans hq'
      exact hm hm'
    exact ⟨q, k', t', (hq q hqp).trans hq', hm'⟩
  · obtain ⟨hq', hne⟩ := hfl hq
    refine (hi.linked q k' t' hq').congr (fun i hm => hd i (hne i hm)) rfl
      (update_of_ne (fun he => ?_) ..) rfl
    exact hne _ (mem_i0 t') (he ▸ mem_i0 t)

lemma VirtioInv.finish (hi : VirtioInv s hist) (hp : s.pc p = .check k t) (hb : s.bufDisk k.buf = false)
    (hc : ChainFreed { s with infoBuf := update s.infoBuf t.i0 none } s1 t) :
    VirtioInv ((s1.setPc p .out).setLock none) (hist ++ [.returned k.num]) := by
  obtain ⟨d, x, f, rfl⟩ : ∃ d x f, s1 = { s with
      infoBuf := update s.infoBuf t.i0 none, desc := d, pc := x, free := f } := ⟨_, _, _, hc.rest⟩
  have hv := hc.view
  have hf : (s.pc p).flight = some (k, t) := by rw [hp]; rfl
  have hpp : (s.pc p).posted = some (k, t) := by rw [hp]; rfl
  have hl := (hi.hold.lock p).mp (by rw [hp]; rfl)
  have hself : update x p .out p = .out := update_self ..
  have hout : ∀ q, q ≠ p → update x p .out q = x q := fun q hq => update_of_ne hq ..
  change VirtioInv { s with
    infoBuf := update s.infoBuf t.i0 none
    desc := d
    free := f
    lock := none
    pc := update x p .out } _
  generalize update x p .out = y at hself hout
  have hpost : ∀ {q k' t'}, (y q).posted = some (k', t') → (s.pc q).posted = some (k', t') := by
    intro q k' t' hq
    by_cases hqp : q = p
    · rw [hqp, hself] at hq
      cases hq
    · rw [hout q hqp] at hq
      exact (hv.posted q).symm.trans hq
  have hne : ∀ {q β} {f : VirtioPc → Option β} {z : β}, f .out = none → f (y q) = some z → q ≠ p := by
    rintro q β f z hn hq rfl
    rw [hself, hn] at hq
    cases hq
  refine ⟨hi.hold.move (p := p) (.inr hl) ?_ (fun q hq => ?_) (fun k' hk => ?_) rfl,
    hi.desc.finish hf hc.free hc.desc ?_ (fun q hq => ?_),
    ⟨hi.ring.avail, hi.ring.used, fun q h hq => ?_, hi.ring.ending⟩,
    ⟨hi.live.nodup, fun h => ?_, fun q k' t' hq hn => ?_, hi.live.status⟩,
    ⟨fun q k' hq => ?_, fun k' hk' => ?_, fun k1 k2 h₁ h2 => ?_, fun q k' t' hq => ?_⟩⟩
  · simp [hself, VirtioPc.holds]
  · simp only [hout q hq]
    exact ⟨hv.holds q, hv.call q⟩
  · exact absurd rfl (hne rfl hk)
  · rw [hself]
    rfl
  · rw [hout q hq]
    exact hv.flight q
  · rw [show (y q).slotted = _ from congrArg _ (hout q (hne rfl hq))] at hq
    exact hi.ring.slot q h ((hv.slotted q).symm.trans hq)
  · refine (hi.live.mem h).trans ⟨?_, ?_⟩
    · rintro ⟨q, k', t', hq, ht, hb'⟩
      have hqp : q ≠ p := by
        rintro rfl
        cases hpp.symm.trans hq
        rw [hb] at hb'
        cases hb'
      refine ⟨q, k', t', ?_, ht, hb'⟩
      simp only [hout q hqp]
      exact (hv.posted q).trans hq
    · rintro ⟨q, k', t', hq, ht, hb'⟩
      exact ⟨q, k', t', hpost hq, ht, hb'⟩
  · have hqp := hne rfl hq
    simp only [hout q hqp] at hq hn
    exact hi.live.staged q k' t' ((hv.flight q).symm.trans hq) ((hv.posted q).symm.trans hn)
  · have hqp := hne rfl hq
    simp only [hout q hqp] at hq
    exact List.mem_append_left _ (hi.call.called q k' ((hv.call q).symm.trans hq))
  · exact hi.call.num k' (by simpa using hk')
  · exact hi.call.uniq k1 k2 (by simpa using h₁) (by simpa using h2)
  · exact (hi.call.posted q k' t' (hpost hq)).imp_right (List.mem_append_left _)

lemma VirtioInv.goStep (hi : VirtioInv s hist) (hs : goVirtio s p = some (s', out)) :
    Follows s hist s' out := by
  unfold goVirtio at hs
  split at hs
  next => cases hs
  next => cases hs
  next => cases hs
  next k hp =>
    split_ifs at hs with hl
    cases hs
    exact .silent (hi.go hp (.inl hl) rfl rfl rfl rfl)
  next k hp =>
    unfold allocStep at hs
    rcases alloc3Desc_spec s with ⟨s1, he, ha⟩ | ⟨t, s1, he, ha⟩
    · rw [he] at hs
      cases hs
      exact .silent (hi.allocFailed hp ha)
    · rw [he] at hs
      cases hs
      exact .silent (hi.alloced hp ha)
  next k t hp =>
    cases hs
    exact .silent (hi.ringStep hp)
  next k t hp =>
    cases hs
    exact .silent (hi.publishStep hp)
  next k t hp =>
    split_ifs at hs with hb
    · cases hs
      exact .silent (hi.go hp (.inr ((hi.hold.lock p).mp (by rw [hp]; rfl))) rfl rfl rfl rfl)
    · rw [Bool.not_eq_true] at hb
      obtain ⟨s1, hc, he⟩ := hi.finishStep_eq hp
      rw [he] at hs
      cases hs
      have hpp : (s.pc p).posted = some (k, t) := by rw [hp]; rfl
      refine .event (hi.finish hp hb hc) ⟨p, k, t, hp, hi.called_of_posted hpp, rfl,
        hi.done_of_clear hpp hb, ?_⟩
      intro i hm
      exact (hc.free i).trans (if_pos hm)
  next k t hp =>
    split_ifs at hs with hl
    cases hs
    exact .silent (hi.go hp (.inl hl) rfl rfl rfl rfl)

lemma VirtioInv.step (hi : VirtioInv s hist) {a : VirtioAct} (hs : s.step a = some (s', out)) :
    Follows s hist s' out := by
  cases a with
  | lockBuf p b =>
    simp only [VirtioSys.step] at hs
    split_ifs at hs with hb
    cases hs
    refine .silent (hi.setBufLock (fun q k hk he => ?_) _)
    have := hi.hold.own q k hk
    rw [he, hb] at this
    cases this
  | unlockBuf p b =>
    simp only [VirtioSys.step] at hs
    split at hs
    next hp =>
      split_ifs at hs with hb
      cases hs
      refine .silent (hi.setBufLock (fun q k hk he => ?_) _)
      have := hi.hold.own q k hk
      rw [he, hb] at this
      cases this
      rw [hp] at hk
      cases hk
    next => cases hs
  | rw p b blockno write =>
    simp only [VirtioSys.step] at hs
    split at hs
    next hp =>
      split_ifs at hs with hb
      cases hs
      exact .event (hi.newCall hp rfl hb) fun k' hk' => Nat.ne_of_lt (hi.call.num k' hk')
    next => cases hs
  | go p => exact hi.goStep hs
  | kill p =>
    simp only [VirtioSys.step] at hs
    split at hs
    next k hp =>
      cases hs
      exact .silent (hi.sameView ⟨update_same _ hp rfl, update_same _ hp rfl, update_same _ hp rfl,
        update_same _ hp rfl, update_same _ hp rfl⟩)
    next k t hp =>
      cases hs
      exact .silent (hi.sameView ⟨update_same _ hp rfl, update_same _ hp rfl, update_same _ hp rfl,
        update_same _ hp rfl, update_same _ hp rfl⟩)
    next => cases hs
  | intr =>
    simp only [VirtioSys.step] at hs
    split_ifs at hs with hl
    cases hs
    exact .silent (hi.intrLock (by simp [hl]) (by simp))
  | goIntr =>
    simp only [VirtioSys.step] at hs
    split_ifs at hs with hl
    exact hi.handle (Option.some.inj hs) hl
  | fetch =>
    obtain ⟨s1, hf, he⟩ := Option.map_eq_some_iff.mp hs
    cases he
    exact .silent (hi.deviceFetch hf)
  | finish h => exact hi.deviceEnd hs
  | count =>
    obtain ⟨s1, hf, he⟩ := Option.map_eq_some_iff.mp hs
    cases he
    exact .silent (hi.deviceCount hf)

lemma VirtioInv.fresh (hs : s.Fresh) : VirtioInv s [] := by
  have hlive : s.live = [] := by
    simp [VirtioSys.live, VirtioSys.unread, VirtioSys.unseen, hs.published, hs.fetched, hs.busy,
      hs.ending, hs.completed, hs.handled]
  refine ⟨⟨fun p => ?_, fun p k hk => ?_⟩,
    ⟨fun p k t hp => ?_, fun p k t hp => ?_, fun p k t hp => ?_, fun p q k k' t t' hp => ?_,
      fun i hf => ?_, fun p k t hp => ?_⟩, ⟨?_, ?_, fun p h hp => ?_, fun h hh => ?_⟩,
    ⟨?_, fun h => ?_, fun p k t hp => ?_, fun h hm => ?_⟩,
    ⟨fun p k hk => ?_, nofun, nofun, fun p k t hp => ?_⟩⟩
  · simp [hs.pc, hs.lock, VirtioPc.holds]
  · simp [hs.pc, VirtioPc.call] at hk
  · simp [hs.pc, VirtioPc.flight] at hp
  · simp [hs.pc, VirtioPc.flight] at hp
  · simp [hs.pc, VirtioPc.flight] at hp
  · simp [hs.pc, VirtioPc.flight] at hp
  · simp [hs.free] at hf
  · simp [hs.pc, VirtioPc.flight] at hp
  · rw [hs.readIdx, hs.availIdx, hs.published, hs.fetched]
    exact RingRep.nil ..
  · rw [hs.lookedIdx, hs.usedIdx, hs.completed, hs.handled]
    exact RingRep.nil ..
  · simp [hs.pc, VirtioPc.slotted] at hp
  · simp [hs.ending] at hh
  · simp [hlive]
  · simp [hlive, hs.pc, VirtioPc.posted]
  · simp [hs.pc, VirtioPc.flight] at hp
  · simp [hs.ending, VirtioSys.unseen, hs.completed] at hm
  · simp [hs.pc, VirtioPc.call] at hk
  · simp [hs.pc, VirtioPc.posted] at hp

lemma virtio_inv {ok : VirtioSys → VirtioAct → Prop} (h : virtioMachine.Reach ok s hist) :
    VirtioInv s hist :=
  h.invariant (I := VirtioInv) (fun _ h0 => .fresh h0) (fun _ hi _ hs => (hi.step hs).1)

/-- `virtio_disk_rw` and `virtio_disk_intr` keep to the protocol of the descriptors and the rings. -/
theorem virtio_protocol {ok : VirtioSys → VirtioAct → Prop} (h : virtioMachine.Reach ok s hist) :
    (∀ i, s.free i = true ↔ ∀ p k t, (s.pc p).flight = some (k, t) → i ∉ t.list) ∧
    (∀ p k t, (s.pc p).flight = some (k, t) → (∀ i ∈ t.list, i < numDesc) ∧ t.list.Nodup ∧
      Linked s k t) ∧
    (∀ p q k k' t t', (s.pc p).flight = some (k, t) → (s.pc q).flight = some (k', t') → p ≠ q →
      t.list.Disjoint t'.list) ∧
      RingRep numDesc (2 ^ 16) s.availRing s.readIdx s.availIdx s.published s.fetched ∧
    RingRep numDesc (2 ^ 16) s.usedRing s.lookedIdx s.usedIdx s.completed s.handled ∧
    (∀ a s' out, s.step a = some (s', out) → ∀ e ∈ out, Justified s s' hist e) ∧
    (∀ s', s.alloc3Desc = .ok (none, s') → s'.free = s.free) ∧
    (∀ i ∈ s.busy, s.ending = none → ∃ s', ∃ k : VirtioCall,
      s.step (.finish i) = some (s', [k.finished])) := by
  have hi := virtio_inv h
  refine ⟨fun i => ⟨fun hf p k t hp hm => ?_, fun hno => ?_⟩, fun p k t hp =>
    ⟨hi.desc.lt p k t hp, hi.desc.nodup p k t hp, hi.desc.linked p k t hp⟩,
      fun p q k k' t t' hp hq hpq i hm hm' => hpq (hi.desc.one p q k k' t t' hp hq i hm hm'),
    hi.ring.avail, hi.ring.used, fun a s' out hs => (hi.step hs).2, fun s' hs => ?_, fun i hm he => ?_⟩
  · rw [hi.desc.taken p k t hp i hm] at hf
    cases hf
  · by_contra hf
    obtain ⟨p, k, t, hp, hm⟩ := hi.desc.cover i (by simpa using hf)
    exact hno p k t hp hm
  · rcases alloc3Desc_spec s with ⟨s1, he, ha⟩ | ⟨t, s1, he, -⟩
    · cases he.symm.trans hs
      rw [ha.rest]
    · cases he.symm.trans hs
  · obtain ⟨-, k, -, -, -, he⟩ := hi.deviceEnd_eq hm he
    exact ⟨_, k, he⟩

def VirtioSys.quietDisk : VirtioSys where
  desc := fun _ => ⟨.null, 0, 0, 0⟩
  free := fun _ => true
  availIdx := 0
  availRing := fun _ => 0
  usedIdx := 0
  usedRing := fun _ => 0
  lookedIdx := 0
  infoBuf := fun _ => none
  infoStatus := fun _ => 0
  ops := fun _ => (false, 0)
  bufDisk := fun _ => false
  bufLock := fun _ => none
  lock := none
  pc := fun _ => .out
  readIdx := 0
  busy := []
  ending := none
  calls := 0
  who := fun _ => 0
  published := []
  fetched := []
  completed := []
  handled := []

theorem virtio_protocol_write : ∃ s s' hist, virtioMachine.Reach (fun _ _ => True) s hist ∧
    s.step (.go 1) = some (s', [.returned 0]) ∧ Justified s s' hist (.returned 0) := by
  have h0 : virtioMachine.Reach (fun _ _ => True) .quietDisk [] :=
    .init ⟨fun _ => rfl, rfl, rfl, rfl, rfl, fun _ => rfl, rfl, rfl, rfl, rfl, rfl, rfl, rfl, rfl⟩
  have h1 := h0.run ([.lockBuf 1 3, .rw 1 3 5 true] ++ List.replicate 5 (.go 1) ++
    [.fetch, .finish 0, .count, .intr, .goIntr, .goIntr, .go 1]) (fun _ _ => trivial) rfl
  exact ⟨_, _, _, h1, rfl, (virtio_protocol h1).2.2.2.2.2.1 (.go 1) _ _ rfl _
    (List.mem_singleton.mpr rfl)⟩

end

end Xv6
