import Xv6.FsEffect
import Xv6.Lib.Table

/-! The directory tree. `names B lo N` lists the inodes that the entries of linked
directories name, from entry `lo` on: all but "." for `lo = 1`, all but "." and ".." for
`lo = 2`. -/

namespace Xv6

open List

lemma strncpy_succ (p : List UInt8) (n : Nat) : strncpy p (n + 1) =
    if p.headD 0 = 0 then List.replicate (n + 1) 0 else p.headD 0 :: strncpy p.tail n := by
  cases p with
  | nil => rfl
  | cons a p =>
    by_cases ha : a = 0
    · simp [strncpy, ha]
    · simp [strncpy, ha]

lemma strncmp_eq_zero {n : Nat} {p q : List UInt8} : strncmp n p q = 0 ↔ strncpy p n = strncpy q n := by
  induction n generalizing p q with
  | zero => simp [strncmp, strncpy]
  | succ n ih =>
    rw [strncmp, strncpy_succ, strncpy_succ]
    by_cases hp : p.headD 0 = 0
    · rw [if_neg fun h => h.1 hp, if_pos hp, hp]
      by_cases hq : q.headD 0 = 0
      · rw [hq, if_pos rfl]
        exact iff_of_true (by decide) rfl
      · rw [if_neg hq]
        refine iff_of_false (fun h => hq ?_) fun h => hq ?_
        · have h0 : (q.headD 0).toNat = 0 := by simpa using h
          exact UInt8.toNat_inj.mp h0
        · rw [replicate_succ] at h
          exact (List.cons.inj h).1.symm
    · rw [if_neg hp]
      by_cases hpq : p.headD 0 = q.headD 0
      · rw [if_pos ⟨hp, hpq⟩, if_neg (hpq ▸ hp), ih, hpq, List.cons.injEq]
        exact (and_iff_right rfl).symm
      · rw [if_neg fun h => hpq h.2]
        refine iff_of_false (fun h => hpq ?_) fun h => ?_
        · exact UInt8.toNat_inj.mp (by omega)
        · by_cases hq : q.headD 0 = 0
          · rw [if_pos hq, replicate_succ] at h
            exact hp (List.cons.inj h).1
          · rw [if_neg hq] at h
            exact hpq (List.cons.inj h).1

lemma strncpy_strncpy (p : List UInt8) (n : Nat) : strncpy (strncpy p n) n = strncpy p n := by
  induction n generalizing p with
  | zero => simp [strncpy]
  | succ n ih =>
    rw [strncpy_succ p]
    by_cases hp : p.headD 0 = 0
    · rw [if_pos hp, strncpy_succ, replicate_succ]
      simp
    · rw [if_neg hp, strncpy_succ]
      simp only [headD_cons, tail_cons, ih, if_neg hp]

namespace FileNode

/-- A directory with links. -/
def Live (m : FileNode) : Prop := m.type = tDir ∧ m.nlink ≠ 0

instance (m : FileNode) : Decidable m.Live := inferInstanceAs (Decidable (_ ∧ _))

/-- The name of entry `k` as it is stored. -/
def key (m : FileNode) (k : Nat) : List UInt8 := strncpy (m.entry k).name dirsiz

def refsAt (m : FileNode) (lo k : Nat) : List Nat :=
  if lo ≤ k ∧ (m.entry k).inum ≠ 0 then [(m.entry k).inum] else []

def named (m : FileNode) (lo : Nat) : List Nat := gather (m.size / 16) (m.refsAt lo)

/-- Entry `k` is in the file and not empty. -/
def Used (m : FileNode) (k : Nat) : Prop := 16 * k + 16 ≤ m.size ∧ (m.entry k).inum ≠ 0

structure IsDir (m : FileNode) (d : Nat) : Prop where
  sized : m.size % 16 = 0
  two : 32 ≤ m.size
  self : (m.entry 0).inum = d ∧ m.key 0 = strncpy dot dirsiz
  parent : (m.entry 1).inum ≠ 0 ∧ m.key 1 = strncpy dotdot dirsiz
  distinct : ∀ j k, m.Used j → m.Used k → m.key j = m.key k → j = k

end FileNode

def namedBy (lo : Nat) : Option FileNode → List Nat
  | some m => if m.Live then m.named lo else []
  | none => []

def names (B lo : Nat) (N : Nat → Option FileNode) : List Nat := gather B fun d => namedBy lo (N d)

/-- Following ".." leads to the root. -/
inductive Rooted (N : Nat → Option FileNode) : Nat → Prop
  | root : Rooted N rootino
  | up {d : Nat} {m : FileNode} (hm : N d = some m) (hl : m.Live)
      (h : Rooted N (m.entry 1).inum) : Rooted N d

structure DirTree (B : Nat) (N : Nat → Option FileNode) : Prop where
  lt : ∀ i, N i ≠ none → i < B
  zero : N 0 = none
  count : ∀ i m, N i = some m → m.nlink = (names B 1 N).count i
  free : ∀ i, N i = none → (names B 1 N).count i = 0
  root : ∃ m, N rootino = some m ∧ m.Live ∧ (m.entry 1).inum = rootino
  top : (names B 2 N).count rootino = 0
  dirs : ∀ d m, N d = some m → m.Live → m.IsDir d
  child : ∀ d m, N d = some m → m.Live → d ≠ rootino → (names B 2 N).count d = 1
  back : ∀ d m k me, N d = some m → m.Live → 2 ≤ k → m.Used k → N (m.entry k).inum = some me →
    me.type = tDir → (me.entry 1).inum = d
  rooted : ∀ d m, N d = some m → m.Live → Rooted N d

section

variable {B lo d i k a : Nat} {N N' : Nat → Option FileNode} {m md : FileNode} {name : List UInt8}

lemma FileNode.mem_named : a ∈ m.named lo ↔ ∃ k, lo ≤ k ∧ m.Used k ∧ (m.entry k).inum = a := by
  unfold named refsAt Used
  rw [mem_gather]
  constructor
  · rintro ⟨k, hk, hm⟩
    split at hm
    next hc => exact ⟨k, hc.1, ⟨by omega, hc.2⟩, (mem_singleton.mp hm).symm⟩
    next => cases hm
  · rintro ⟨k, hlo, ⟨hk, hu⟩, rfl⟩
    refine ⟨k, by omega, ?_⟩
    rw [if_pos ⟨hlo, hu⟩]
    exact mem_singleton.mpr rfl

lemma mem_names : a ∈ names B lo N ↔ ∃ d < B, ∃ m, N d = some m ∧ m.Live ∧ ∃ k, lo ≤ k ∧ m.Used k ∧
    (m.entry k).inum = a := by
  unfold names
  rw [mem_gather]
  constructor
  · rintro ⟨d, hd, hm⟩
    cases hN : N d with
    | none =>
      rw [hN] at hm
      cases hm
    | some m =>
      simp only [hN, namedBy] at hm
      split at hm
      next hl => exact ⟨d, hd, m, hN, hl, FileNode.mem_named.mp hm⟩
      next => cases hm
  · rintro ⟨d, hd, m, hN, hl, hk⟩
    refine ⟨d, hd, ?_⟩
    simp only [hN, namedBy, if_pos hl]
    exact FileNode.mem_named.mpr hk

lemma count_names_update (lo : Nat) (hd : d < B) (v : Option FileNode) (a : Nat) :
    (namedBy lo (N d)).count a + (names B lo (Function.update N d v)).count a =
      (namedBy lo v).count a + (names B lo N).count a := by
  have hx := count_gather_exchange (n := B) (G := fun j => namedBy lo (N j))
    (H := fun j => namedBy lo (Function.update N d v j)) hd
    (fun j _ hj => by rw [Function.update_of_ne hj]) a
  rwa [Function.update_self] at hx

lemma FileNode.entry_setNlink (m : FileNode) (v k : Nat) : (m.setNlink v).entry k = m.entry k := rfl

lemma FileNode.count_linked (hf : m.FreeAt k) (hs : m.size % 16 = 0) (hlo : lo ≤ k)
    (hi : i < 2 ^ 16) (hi0 : i ≠ 0) (a : Nat) :
    ((m.linked k i name).named lo).count a = [i].count a + (m.named lo).count a := by
  have hself : (m.linked k i name).refsAt lo k = [i] := by
    unfold refsAt
    rw [linked_entry hi, if_pos rfl]
    exact if_pos ⟨hlo, hi0⟩
  have hother : ∀ j ≠ k, (m.linked k i name).refsAt lo j = m.refsAt lo j := by
    intro j hj
    unfold refsAt
    rw [linked_entry hi, if_neg hj]
  unfold named
  rw [linked_size]
  by_cases hk : 16 * k + 16 ≤ m.size
  · rw [max_eq_left hk]
    have hx := count_gather_exchange (n := m.size / 16) (G := m.refsAt lo)
      (H := (m.linked k i name).refsAt lo)
      (by omega : k < m.size / 16) (fun j _ hj => hother j hj) a
    have hold : m.refsAt lo k = [] := if_neg fun hc => hc.2 (hf.empty hk)
    rw [hself, hold] at hx
    simpa using hx
  · have hk' := hf.last (by omega)
    rw [max_eq_right (by omega), show (16 * k + 16) / 16 = k + 1 by omega,
      show m.size / 16 = k by omega, gather_succ,
      count_append, hself, gather_congr fun j hj => hother j (by omega), Nat.add_comm]

lemma FileNode.entry_unlinked (dir : Prop) [Decidable dir] (k j : Nat) :
    (m.unlinked k dir).entry j = if j = k then getDirent (List.replicate 16 0) else m.entry j := by
  have hw : (m.write (16 * k) (List.replicate 16 0)).entry j =
      if j = k then getDirent (List.replicate 16 0) else m.entry j := entry_write length_replicate k j
  unfold unlinked
  split
  · rw [decNlink, entry_setNlink]
    exact hw
  · exact hw

lemma FileNode.unlinked_size (dir : Prop) [Decidable dir] (hk : 16 * k + 16 ≤ m.size) :
    (m.unlinked k dir).size = m.size := by
  unfold unlinked
  split
  · simpa [decNlink, setNlink, write] using hk
  · simpa [write] using hk

lemma FileNode.count_unlinked (dir : Prop) [Decidable dir] (hu : m.Used k) (hlo : lo ≤ k) (a : Nat) :
    [(m.entry k).inum].count a + ((m.unlinked k dir).named lo).count a = (m.named lo).count a := by
  unfold named
  rw [unlinked_size dir hu.1]
  have hx := count_gather_exchange (n := m.size / 16) (G := m.refsAt lo)
    (H := (m.unlinked k dir).refsAt lo) (by have h := hu.1; omega : k < m.size / 16)
    (fun j _ hj => by unfold refsAt; rw [entry_unlinked, if_neg hj]) a
  have hold : m.refsAt lo k = [(m.entry k).inum] := if_pos ⟨hlo, hu.2⟩
  have hnew : (m.unlinked k dir).refsAt lo k = [] := by
    unfold refsAt
    rw [entry_unlinked, if_pos rfl]
    exact if_neg fun hc => hc.2 rfl
  rw [hold, hnew] at hx
  simpa using hx

end

end Xv6
