import Xv6.OpenRun
import Xv6.Lib.Table

/-! The file table, the pipes and the descriptors. `pend` are references to files that the
running call holds, `fresh` the files that it has allocated and not set up yet, `held` its
own references to inodes. -/

namespace Xv6

open Function (update_self update_of_ne)

open Kern List

/-- The inode reference that a `struct file` has. -/
def File.slots (ff : File) : List Nat :=
  if 0 < ff.ref ∧ (ff.type = .inode ∨ ff.type = .device) then [ff.ip] else []

def File.IsEnd (ff : File) (k : Nat) (w : Bool) : Prop :=
  0 < ff.ref ∧ ff.type = .pipe ∧ ff.pipe = k ∧ ff.writable = w ∧ ff.readable = !w

def Pipe.isOpen (pi : Pipe) (w : Bool) : Bool := if w then pi.writeopen else pi.readopen

namespace Sys

/-- All descriptors of all processes. -/
def handles (s : Sys) : List Nat :=
  gather nproc fun p => gather nofile fun fd => ((s.proc p).ofile fd).toList

def slots (s : Sys) : List Nat :=
  gather nfile (fun f => (s.file f).slots) ++ gather nproc fun p => (s.proc p).cwd.toList

/-- The references with the numbers of the inodes. -/
def refs (s : Sys) : List (Nat × Nat) := s.slots.map fun ip => (ip, (s.fs.itable ip).inum)

end Sys

structure Tables (s : Sys) (pend fresh : List Nat) : Prop where
  count : ∀ f < nfile, (s.file f).ref = (pend ++ s.handles).count f
  lt : ∀ f ∈ pend ++ s.handles, f < nfile
  free : ∀ f < nfile, (s.file f).ref = 0 → (s.file f).type = .none
  typed : ∀ f < nfile, 0 < (s.file f).ref → ((s.file f).type = .none ↔ f ∈ fresh)
  idle : ∀ p < nproc, (s.proc p).state = .unused ∨ (s.proc p).state = .zombie →
    (s.proc p).cwd = none ∧ ∀ fd < nofile, (s.proc p).ofile fd = none

structure PipeEnds (s : Sys) : Prop where
  known : ∀ f < nfile, 0 < (s.file f).ref → (s.file f).type = .pipe → ∃ k < s.npipe, ∃ w,
    (s.file f).IsEnd k w
  single : ∀ f < nfile, ∀ g < nfile, ∀ k w, (s.file f).IsEnd k w → (s.file g).IsEnd k w → f = g
  ends : ∀ k < s.npipe, ∀ w, (s.pipes k).isOpen w = true ↔ ∃ f < nfile, (s.file f).IsEnd k w
  freed : ∀ k < s.npipe, s.freed k = if (s.pipes k).readopen = false ∧
    (s.pipes k).writeopen = false then 1 else 0
  unborn : ∀ k, s.npipe ≤ k → s.freed k = 0

section

variable {s s' : Sys} {pend pend' fresh fresh' : List Nat} {f p fd : Nat} {v : File}

lemma Sys.setFile_self : (s.setFile f v).file f = v := update_self _ _ _

lemma Sys.setFile_of_ne {g : Nat} (h : g ≠ f) : (s.setFile f v).file g = s.file g := update_of_ne h _ _

lemma Sys.setProc_self {v : Proc} : (s.setProc p v).proc p = v := update_self _ _ _

lemma Sys.setProc_of_ne {v : Proc} {q : Nat} (h : q ≠ p) : (s.setProc p v).proc q = s.proc q :=
  update_of_ne h _ _

lemma Sys.count_setOfile (hp : p < nproc) (hfd : fd < nofile) (v : Option Nat) (a : Nat) :
    (((s.proc p).ofile fd).toList).count a + (s.setOfile p fd v).handles.count a =
      v.toList.count a + s.handles.count a := by
  have hself :
    (s.setOfile p fd v).proc p = { s.proc p with ofile := Function.update (s.proc p).ofile fd v } :=
    setProc_self
  have hin := count_gather_exchange (n := nofile) (G := fun x => ((s.proc p).ofile x).toList)
    (H := fun x => (((s.setOfile p fd v).proc p).ofile x).toList) hfd
    (fun j _ hj => by rw [hself]; simp only [update_of_ne hj]) a
  have hout :=
    count_gather_exchange (n := nproc)
      (G := fun q => gather nofile fun x => ((s.proc q).ofile x).toList)
    (H := fun q => gather nofile fun x => (((s.setOfile p fd v).proc q).ofile x).toList) hp
    (fun j _ hj => by rw [show (s.setOfile p fd v).proc j = s.proc j from setProc_of_ne hj]) a
  have hv : (((s.setOfile p fd v).proc p).ofile fd).toList = v.toList := by
    rw [hself]
    simp only [update_self]
  rw [hv] at hin
  simp only [handles]
  omega

lemma Sys.count_slots_setFile (hf : f < nfile) (v : File) (a : Nat) :
    (s.file f).slots.count a + (s.setFile f v).slots.count a = v.slots.count a + s.slots.count a := by
  have hx := count_gather_exchange (n := nfile) (G := fun g => (s.file g).slots)
    (H := fun g => ((s.setFile f v).file g).slots) hf (fun j _ hj => by rw [setFile_of_ne hj]) a
  simp only [setFile_self] at hx
  simp only [slots, count_append]
  have hproc : (s.setFile f v).proc = s.proc := rfl
  rw [hproc]
  omega

lemma Sys.count_slots_setProc (hp : p < nproc) (v : Proc) (a : Nat) :
    (s.proc p).cwd.toList.count a + (s.setProc p v).slots.count a = v.cwd.toList.count a +
    s.slots.count a := by
  have hx := count_gather_exchange (n := nproc) (G := fun q => (s.proc q).cwd.toList)
    (H := fun q => ((s.setProc p v).proc q).cwd.toList) hp (fun j _ hj => by rw [setProc_of_ne hj]) a
  simp only [setProc_self] at hx
  simp only [slots, count_append]
  have hfile : (s.setProc p v).file = s.file := rfl
  rw [hfile]
  omega

lemma Sys.slots_setProc (hp : p < nproc) {v : Proc} (hv : v.cwd = (s.proc p).cwd) :
    (s.setProc p v).slots.Perm s.slots := by
  rw [perm_iff_count]
  intro a
  have h := count_slots_setProc hp v a (s := s)
  rw [hv] at h
  omega

lemma Sys.slots_setFile (hf : f < nfile) {v : File} (hv : v.slots = (s.file f).slots) :
    (s.setFile f v).slots.Perm s.slots := by
  rw [perm_iff_count]
  intro a
  have h := count_slots_setFile hf v a (s := s)
  rw [hv] at h
  omega

lemma Tables.setFile (h : Tables s pend fresh) (hc : v.ref = (pend' ++ s.handles).count f)
    (hpend : ∀ g ≠ f, pend'.count g = pend.count g) (hlt : ∀ g ∈ pend', g < nfile)
    (hfree : v.ref = 0 → v.type = .none)
    (htyped : 0 < v.ref → (v.type = .none ↔ f ∈ fresh')) (hfresh : ∀ g ≠ f, g ∈ fresh' ↔ g ∈ fresh) :
    Tables (s.setFile f v) pend' fresh' where
  count := by
    intro g hg
    change _ = (pend' ++ s.handles).count g
    by_cases hgf : g = f
    · rw [hgf, Sys.setFile_self]
      exact hc
    · rw [Sys.setFile_of_ne hgf, h.count g hg, count_append, count_append, hpend g hgf]
  lt := fun g hg => (mem_append.mp hg).elim (hlt g) fun hh => h.lt g (mem_append_right _ hh)
  free := by
    intro g hg h0
    by_cases hgf : g = f
    · rw [hgf, Sys.setFile_self] at h0 ⊢
      exact hfree h0
    · rw [Sys.setFile_of_ne hgf] at h0 ⊢
      exact h.free g hg h0
  typed := by
    intro g hg hpos
    by_cases hgf : g = f
    · rw [hgf, Sys.setFile_self] at hpos ⊢
      exact htyped hpos
    · rw [Sys.setFile_of_ne hgf] at hpos ⊢
      rw [h.typed g hg hpos, hfresh g hgf]
  idle := h.idle

lemma Tables.alloc (h : Tables s pend fresh) (hf : f < nfile) (h0 : (s.file f).ref = 0) :
    Tables (s.setFile f { s.file f with ref := 1 }) (f :: pend) (f :: fresh) := by
  have hc := h.count f hf
  rw [h0] at hc
  refine h.setFile ?_ (fun g hg => ?_) (fun g hg => ?_) (fun h1 => by cases h1) (fun _ => ?_)
    fun g hg => ?_
  · rw [cons_append, count_cons_self, ← hc]
  · exact count_cons_of_ne (Ne.symm hg)
  · rcases mem_cons.mp hg with rfl | hg
    · exact hf
    · exact h.lt g (mem_append_left _ hg)
  · exact iff_of_true (h.free f hf h0) mem_cons_self
  · rw [mem_cons, or_iff_right hg]

lemma Tables.incRef (h : Tables s pend fresh) (hf : f < nfile) (hpos : 0 < (s.file f).ref) :
    Tables (s.setFile f { s.file f with ref := (s.file f).ref + 1 }) (f :: pend) fresh := by
  refine h.setFile ?_ (fun g hg => ?_) (fun g hg => ?_) (fun h1 => by cases h1) (fun _ => ?_)
    fun g _ => Iff.rfl
  · rw [cons_append, count_cons_self, ← h.count f hf]
  · exact count_cons_of_ne (Ne.symm hg)
  · rcases mem_cons.mp hg with rfl | hg
    · exact hf
    · exact h.lt g (mem_append_left _ hg)
  · exact h.typed f hf hpos

variable (h : Tables s (f :: pend) fresh)
include h

lemma Tables.pend_lt : f < nfile := h.lt f mem_cons_self

lemma Tables.pend_ref : (s.file f).ref = (pend ++ s.handles).count f + 1 := by
  rw [h.count f h.pend_lt, cons_append, count_cons_self]

lemma Tables.decRef (hpos : 1 < (s.file f).ref) :
    Tables (s.setFile f { s.file f with ref := (s.file f).ref - 1 }) pend fresh := by
  refine h.setFile ?_ (fun g hg => (count_cons_of_ne (Ne.symm hg)).symm)
    (fun g hg => h.lt g (mem_cons_of_mem _ (mem_append_left _ hg)))
    (fun h1 => ?_) (fun _ => h.typed f h.pend_lt (by omega)) fun g _ => Iff.rfl
  · rw [h.pend_ref, Nat.add_sub_cancel]
  · change (s.file f).ref - 1 = 0 at h1
    omega

lemma Tables.drop (h1 : (s.file f).ref = 1) :
    Tables (s.setFile f { s.file f with ref := 0, type := .none }) pend (fresh.filter (· ≠ f)) := by
  have hr := h.pend_ref
  refine h.setFile ?_ (fun g hg => (count_cons_of_ne (Ne.symm hg)).symm)
    (fun g hg => h.lt g (mem_cons_of_mem _ (mem_append_left _ hg)))
    (fun _ => rfl) (fun h0 => absurd h0 (Nat.lt_irrefl 0)) fun g hg => ?_
  · change 0 = _
    omega
  · simp [mem_filter, hg]

omit h

lemma Tables.setup (h : Tables s pend (f :: fresh)) (hf : f < nfile) (hr : v.ref = (s.file f).ref)
    (hpos : 0 < (s.file f).ref) (ht : v.type ≠ .none) (hnot : f ∉ fresh) :
    Tables (s.setFile f v) pend fresh := by
  refine h.setFile (by rw [hr, h.count f hf]) (fun g _ => rfl)
    (fun g hg => h.lt g (mem_append_left _ hg))
    (fun h0 => by omega) (fun _ => iff_of_false ht hnot) fun g hg => ?_
  rw [mem_cons, or_iff_right hg]

lemma Tables.setOfile (h : Tables s pend fresh) (hp : p < nproc) (hfd : fd < nofile) {v : Option Nat}
    (hc : ∀ g, pend'.count g + v.toList.count g = pend.count g + ((s.proc p).ofile fd).toList.count g)
    (hidle : v = none ∨ ¬ ((s.proc p).state = .unused ∨ (s.proc p).state = .zombie)) :
    Tables (s.setOfile p fd v) pend' fresh := by
  have hcount : ∀ g, (pend' ++ (s.setOfile p fd v).handles).count g = (pend ++ s.handles).count g := by
    intro g
    have hx := Sys.count_setOfile (s := s) hp hfd v g
    have hg := hc g
    rw [count_append, count_append]
    omega
  refine ⟨fun g hg => (h.count g hg).trans (hcount g).symm, fun g hg => h.lt g ?_, h.free, h.typed, ?_⟩
  · rw [← count_pos_iff, ← hcount, count_pos_iff]
    exact hg
  · intro q hq hst
    by_cases hqp : q = p
    · subst hqp
      have hself : (s.setOfile q fd v).proc q = { s.proc q with
        ofile := Function.update (s.proc q).ofile fd v } :=
        Sys.setProc_self
      rw [hself] at hst ⊢
      obtain ⟨h1, h2⟩ := h.idle q hq hst
      refine ⟨h1, fun x hx => ?_⟩
      rcases hidle with rfl | hno
      · by_cases hxf : x = fd
        · rw [hxf]
          exact update_self _ _ _
        · exact (update_of_ne hxf _ _).trans (h2 x hx)
      · exact absurd hst hno
    · have hne : (s.setOfile p fd v).proc q = s.proc q := Sys.setProc_of_ne hqp
      rw [hne] at hst ⊢
      exact h.idle q hq hst

lemma Tables.give (h : Tables s (f :: pend) fresh) (hp : p < nproc) (hfd : fd < nofile)
    (h0 : (s.proc p).ofile fd = none)
    (hidle : ¬ ((s.proc p).state = .unused ∨ (s.proc p).state = .zombie)) :
    Tables (s.setOfile p fd (some f)) pend fresh := by
  refine h.setOfile hp hfd (fun g => ?_) (.inr hidle)
  rw [h0]
  simp [count_cons]

lemma Tables.take (h : Tables s pend fresh) (hp : p < nproc) (hfd : fd < nofile)
    (h0 : (s.proc p).ofile fd = some f) : Tables (s.setOfile p fd none) (f :: pend) fresh := by
  refine h.setOfile hp hfd (fun g => ?_) (.inl rfl)
  rw [h0]
  simp [count_cons]

lemma Tables.mem_handles (hp : p < nproc) (hfd : fd < nofile) (h0 : (s.proc p).ofile fd = some f) :
    f ∈ s.handles :=
  mem_gather.mpr ⟨p, hp, mem_gather.mpr ⟨fd, hfd, by simp [h0]⟩⟩

lemma Tables.handle_pos (h : Tables s pend fresh) (hf : f ∈ s.handles) :
    f < nfile ∧ 0 < (s.file f).ref := by
  have hm : f ∈ pend ++ s.handles := mem_append_right _ hf
  have hlt := h.lt f hm
  rw [h.count f hlt]
  exact ⟨hlt, count_pos_iff.mpr hm⟩

lemma Tables.setProc (h : Tables s pend fresh) {v : Proc}
    (hv : ∀ fd < nofile, v.ofile fd = (s.proc p).ofile fd)
    (hidle : v.state = .unused ∨ v.state = .zombie → v.cwd = none ∧ ∀ fd < nofile, v.ofile fd = none) :
    Tables (s.setProc p v) pend fresh := by
  have hh : (s.setProc p v).handles = s.handles := by
    refine gather_congr fun q _ => gather_congr fun fd hfd => ?_
    by_cases hqp : q = p
    · rw [hqp, Sys.setProc_self, hv fd hfd]
    · rw [Sys.setProc_of_ne hqp]
  refine ⟨fun g hg => by rw [hh]; exact h.count g hg, fun g hg =>
    h.lt g (by rw [hh] at hg; exact hg), h.free, h.typed, fun q hq hst => ?_⟩
  by_cases hqp : q = p
  · rw [hqp, Sys.setProc_self] at hst ⊢
    exact hidle hst
  · rw [Sys.setProc_of_ne hqp] at hst ⊢
    exact h.idle q hq hst

lemma PipeEnds.congr (h : PipeEnds s) (hf : ∀ f < nfile, ∀ k w, (s'.file f).IsEnd k w ↔
      (s.file f).IsEnd k w)
    (hk : ∀ f < nfile, 0 < (s'.file f).ref → (s'.file f).type = .pipe → 0 < (s.file f).ref ∧
      (s.file f).type = .pipe)
    (hn : s'.npipe = s.npipe) (hp : s'.pipes = s.pipes) (hfr : s'.freed = s.freed) : PipeEnds s' where
  known := by
    intro f hlt hr ht
    obtain ⟨h1, h2⟩ := hk f hlt hr ht
    obtain ⟨k, hkn, w, he⟩ := h.known f hlt h1 h2
    exact ⟨k, by rw [hn]; exact hkn, w, (hf f hlt k w).mpr he⟩
  single := fun f hlt g hlt' k w h1 h2 => h.single f hlt g hlt' k w ((hf f hlt k w).mp h1)
    ((hf g hlt' k w).mp h2)
  ends := by
    intro k hkn w
    rw [hp, h.ends k (by rw [← hn]; exact hkn) w]
    constructor
    · rintro ⟨f, hlt, he⟩
      exact ⟨f, hlt, (hf f hlt k w).mpr he⟩
    · rintro ⟨f, hlt, he⟩
      exact ⟨f, hlt, (hf f hlt k w).mp he⟩
  freed := fun k hkn => by
    rw [hfr, hp]
    exact h.freed k (by rw [← hn]; exact hkn)
  unborn := fun k hkn => by
    rw [hfr]
    exact h.unborn k (by rw [← hn]; exact hkn)

lemma PipeEnds.setFile (h : PipeEnds s) (hf : ∀ k w, v.IsEnd k w ↔ (s.file f).IsEnd k w)
    (hk : 0 < v.ref → v.type = .pipe → 0 < (s.file f).ref ∧ (s.file f).type = .pipe) :
    PipeEnds (s.setFile f v) := by
  refine h.congr (fun g _ k w => ?_) (fun g _ hr ht => ?_) rfl rfl rfl
  · by_cases hgf : g = f
    · rw [hgf, Sys.setFile_self]
      exact hf k w
    · rw [Sys.setFile_of_ne hgf]
  · by_cases hgf : g = f
    · rw [hgf, Sys.setFile_self] at hr ht
      rw [hgf]
      exact hk hr ht
    · rw [Sys.setFile_of_ne hgf] at hr ht
      exact ⟨hr, ht⟩

lemma PipeEnds.setRef (h : PipeEnds s) {r : Nat} (hr : 0 < r) (hpos : 0 < (s.file f).ref) :
    PipeEnds (s.setFile f { s.file f with ref := r }) :=
  h.setFile (fun k w => by simp [File.IsEnd, hr, hpos]) fun _ ht => ⟨hpos, ht⟩

lemma File.not_isEnd {ff : File} (h : ff.ref = 0 ∨ ff.type ≠ .pipe) (k : Nat) (w : Bool) :
    ¬ ff.IsEnd k w := by
  rintro ⟨h1, h2, -⟩
  rcases h with h | h
  · omega
  · exact h h2

lemma PipeEnds.setOther (h : PipeEnds s) (hv : v.ref = 0 ∨ v.type ≠ .pipe)
    (hf : (s.file f).ref = 0 ∨ (s.file f).type ≠ .pipe) : PipeEnds (s.setFile f v) :=
  h.setFile (fun k w => iff_of_false (File.not_isEnd hv k w) (File.not_isEnd hf k w)) fun hr ht =>
    absurd ht (hv.resolve_left (by omega))

lemma PipeEnds.setProc (h : PipeEnds s) (p : Nat) (v : Proc) : PipeEnds (s.setProc p v) :=
  h.congr (fun _ _ _ _ => Iff.rfl) (fun _ _ hr ht => ⟨hr, ht⟩) rfl rfl rfl

variable {k : Nat} {w : Bool}

lemma PipeEnds.end_lt (h : PipeEnds s) (hf : f < nfile) (he : (s.file f).IsEnd k w) :
    k < s.npipe := by
  obtain ⟨k', hk', w', he'⟩ := h.known f hf he.1 he.2.1
  have hkk : k = k' := he.2.2.1.symm.trans he'.2.2.1
  rw [hkk]
  exact hk'

lemma PipeEnds.withPipe {f0 f1 : Nat} (h : PipeEnds s) (hne : f0 ≠ f1) (hlt0 : f0 < nfile)
    (hlt1 : f1 < nfile)
    (hr0 : 0 < (s.file f0).ref) (hr1 : 0 < (s.file f1).ref) (ht0 : (s.file f0).type = .none)
    (ht1 : (s.file f1).type = .none) : PipeEnds (s.withPipe f0 f1) := by
  have hfile1 : (s.withPipe f0 f1).file f1 =
      { s.file f1 with type := .pipe, readable := false, writable := true, pipe := s.npipe } := by
    simp [Sys.withPipe, Sys.setFile, Sys.setPipe, update_of_ne (Ne.symm hne)]
  have hfile0 : (s.withPipe f0 f1).file f0 =
      { s.file f0 with type := .pipe, readable := true, writable := false, pipe := s.npipe } := by
    simp [Sys.withPipe, Sys.setFile, Sys.setPipe, update_of_ne hne]
  have hfile : ∀ g, g ≠ f0 → g ≠ f1 → (s.withPipe f0 f1).file g = s.file g := fun g h0 h1 => by
    simp [Sys.withPipe, Sys.setFile, Sys.setPipe, update_of_ne h0, update_of_ne h1]
  have hend0 : ∀ k w, ((s.withPipe f0 f1).file f0).IsEnd k w ↔ k = s.npipe ∧ w = false := by
    intro k w
    rw [hfile0]
    cases w <;> simp [File.IsEnd, hr0, eq_comm]
  have hend1 : ∀ k w, ((s.withPipe f0 f1).file f1).IsEnd k w ↔ k = s.npipe ∧ w = true := by
    intro k w
    rw [hfile1]
    cases w <;> simp [File.IsEnd, hr1, eq_comm]
  -- ends of older pipes are where they were
  have hold : ∀ g < nfile, ∀ k w, k ≠ s.npipe →
    (((s.withPipe f0 f1).file g).IsEnd k w ↔ (s.file g).IsEnd k w) := by
    intro g _ k w hk
    by_cases h0 : g = f0
    · rw [h0, hend0]
      exact iff_of_false (fun hc => hk hc.1) (File.not_isEnd (.inr (by rw [ht0]; decide)) k w)
    · by_cases h1 : g = f1
      · rw [h1, hend1]
        exact iff_of_false (fun hc => hk hc.1) (File.not_isEnd (.inr (by rw [ht1]; decide)) k w)
      · rw [hfile g h0 h1]
  have hnew : ∀ g < nfile, ∀ w, ((s.withPipe f0 f1).file g).IsEnd s.npipe w → g = if w then
    f1 else f0 := by
    intro g hg w he
    by_cases h0 : g = f0
    · rw [h0, hend0] at he
      rw [he.2, h0]
      rfl
    · by_cases h1 : g = f1
      · rw [h1, hend1] at he
        rw [he.2, h1]
        rfl
      · rw [hfile g h0 h1] at he
        exact absurd (h.end_lt hg he) (Nat.lt_irrefl _)
  have hpipe : ∀ k, k ≠ s.npipe → (s.withPipe f0 f1).pipes k = s.pipes k := fun k hk =>
    update_of_ne hk _ _
  have hself : (s.withPipe f0 f1).pipes s.npipe =
      { s.pipes s.npipe with readopen := true, writeopen := true, nwrite := 0, nread := 0 } :=
    update_self _ _ _
  have hcount : (s.withPipe f0 f1).npipe = s.npipe + 1 := rfl
  have hfreed : (s.withPipe f0 f1).freed = s.freed := rfl
  refine ⟨fun g hg hr ht => ?_, fun g hg g' hg' k w he he' => ?_, fun k hk w => ?_, fun k hk => ?_,
    fun k hk => ?_⟩
  · by_cases h0 : g = f0
    · exact ⟨s.npipe, by rw [hcount]; exact Nat.lt_succ_self _, false,
        by rw [h0, hend0]; exact ⟨rfl, rfl⟩⟩
    · by_cases h1 : g = f1
      · exact ⟨s.npipe, by rw [hcount]; exact Nat.lt_succ_self _, true,
          by rw [h1, hend1]; exact ⟨rfl, rfl⟩⟩
      · rw [hfile g h0 h1] at hr ht ⊢
        obtain ⟨k, hk, w, he⟩ := h.known g hg hr ht
        exact ⟨k, by rw [hcount]; omega, w, he⟩
  · by_cases hk : k = s.npipe
    · rw [hk] at he he'
      rw [hnew g hg w he, hnew g' hg' w he']
    · exact h.single g hg g' hg' k w ((hold g hg k w hk).mp he) ((hold g' hg' k w hk).mp he')
  · by_cases hkn : k = s.npipe
    · rw [hkn, hself]
      cases w with
      | false => exact iff_of_true rfl ⟨f0, hlt0, (hend0 _ _).mpr ⟨rfl, rfl⟩⟩
      | true => exact iff_of_true rfl ⟨f1, hlt1, (hend1 _ _).mpr ⟨rfl, rfl⟩⟩
    · rw [hpipe k hkn, h.ends k (by rw [hcount] at hk; omega) w]
      constructor
      · rintro ⟨g, hg, he⟩
        exact ⟨g, hg, (hold g hg k w hkn).mpr he⟩
      · rintro ⟨g, hg, he⟩
        exact ⟨g, hg, (hold g hg k w hkn).mp he⟩
  · rw [hfreed]
    by_cases hkn : k = s.npipe
    · rw [hkn, hself, h.unborn s.npipe (Nat.le_refl _)]
      rfl
    · rw [hpipe k hkn]
      exact h.freed k (by rw [hcount] at hk; omega)
  · rw [hfreed]
    exact h.unborn k (by rw [hcount] at hk; omega)

def Sys.closeEnd (s : Sys) (k : Nat) (w : Bool) : Sys :=
  let s' := s.setPipe k ((s.pipes k).close w)
  if (s'.pipes k).readopen = false ∧ (s'.pipes k).writeopen = false then
    { s' with freed := Function.update s'.freed k (s'.freed k + 1) }
  else s'

lemma pipeclose_sat {E : String → Prop} :
    Sat (Sys.pipeclose k w) s E fun _ s' => s' = s.closeEnd k w := by
  unfold Sys.pipeclose Sys.closeEnd kfreePipe
  rw [sat_bind, sat_modifyState, sat_bind, sat_getState]
  split
  next hc =>
    rw [sat_modifyState]
    exact (if_pos hc).symm
  next hc =>
    rw [sat_pure]
    exact (if_neg hc).symm

lemma Sys.closeEnd_pipes (k : Nat) (w : Bool) :
    (s.closeEnd k w).pipes = Function.update s.pipes k ((s.pipes k).close w) := by
  unfold closeEnd
  simp only []
  split
  · rfl
  · rfl

lemma Sys.closeEnd_rest (k : Nat) (w : Bool) :
    (s.closeEnd k w).fs = s.fs ∧ (s.closeEnd k w).file = s.file ∧
    (s.closeEnd k w).proc = s.proc ∧ (s.closeEnd k w).npipe = s.npipe ∧
    ∀ k' ≠ k, (s.closeEnd k w).freed k' = s.freed k' := by
  unfold closeEnd
  simp only []
  split
  · exact ⟨rfl, rfl, rfl, rfl, fun k' hk => update_of_ne hk _ _⟩
  · exact ⟨rfl, rfl, rfl, rfl, fun _ _ => rfl⟩

lemma Sys.closeEnd_freed (k : Nat) (w : Bool) : (s.closeEnd k w).freed k = s.freed k +
    if ((s.pipes k).close w).readopen = false ∧ ((s.pipes k).close w).writeopen = false then
      1 else 0 := by
  have hself : (s.setPipe k ((s.pipes k).close w)).pipes k = (s.pipes k).close w := update_self _ _ _
  unfold closeEnd
  simp only [hself]
  split
  · exact update_self _ _ _
  · rfl

lemma Pipe.isOpen_close (pi : Pipe) (w w' : Bool) :
    (pi.close w).isOpen w' = (pi.isOpen w' && w' != w) := by
  cases w <;> cases w' <;> simp [Pipe.close, Pipe.isOpen]

lemma PipeEnds.close (h : PipeEnds s) (hf : f < nfile) (he : (s.file f).IsEnd k w) :
    PipeEnds ((s.setFile f { s.file f with ref := 0, type := .none }).closeEnd k w) := by
  have hk := h.end_lt hf he
  obtain ⟨-, hfile, -, hn, hfr⟩ :=
    Sys.closeEnd_rest (s := s.setFile f { s.file f with ref := 0, type := .none }) k w
  have hpipes := Sys.closeEnd_pipes (s := s.setFile f { s.file f with ref := 0, type := .none }) k w
  have hpipe : ∀ k', ((s.setFile f { s.file f with ref := 0, type := .none }).closeEnd k w).pipes k' =
      if k' = k then (s.pipes k).close w else s.pipes k' := by
    intro k'
    rw [hpipes]
    by_cases hkk : k' = k
    · rw [hkk, update_self, if_pos rfl]
      rfl
    · rw [update_of_ne hkk, if_neg hkk]
      rfl
  have hend : ∀ g k' w',
    (((s.setFile f { s.file f with ref := 0, type := .none }).closeEnd k w).file g).IsEnd k' w' ↔
      (s.file g).IsEnd k' w' ∧ g ≠ f := by
    intro g k' w'
    rw [hfile]
    by_cases hgf : g = f
    · rw [hgf, Sys.setFile_self]
      exact iff_of_false (File.not_isEnd (.inl rfl) _ _) fun hc => hc.2 rfl
    · rw [Sys.setFile_of_ne hgf]
      exact ⟨fun hh => ⟨hh, hgf⟩, fun hh => hh.1⟩
  refine ⟨fun g hg hr ht => ?_, fun g hg g' hg' k' w' h1 h2 => ?_, fun k' hk' w' => ?_,
    fun k' hk' => ?_, fun k' hk' => ?_⟩
  · have hgf : g ≠ f := by
      rintro rfl
      rw [hfile, Sys.setFile_self] at hr
      exact absurd hr (Nat.lt_irrefl 0)
    rw [hfile, Sys.setFile_of_ne hgf] at hr ht
    obtain ⟨k', hk', w', he'⟩ := h.known g hg hr ht
    exact ⟨k', by rw [hn]; exact hk', w', (hend g k' w').mpr ⟨he', hgf⟩⟩
  · exact h.single g hg g' hg' k' w' ((hend _ _ _).mp h1).1 ((hend _ _ _).mp h2).1
  · rw [hn] at hk'
    have hold := h.ends k' hk' w'
    rw [hpipe]
    -- `f` was the only end `w` of pipe `k`
    by_cases hkk : k' = k
    · subst hkk
      rw [if_pos rfl, Pipe.isOpen_close, Bool.and_eq_true, hold, bne_iff_ne]
      constructor
      · rintro ⟨⟨g, hg, hge⟩, hw⟩
        refine ⟨g, hg, (hend _ _ _).mpr ⟨hge, fun hgf => hw ?_⟩⟩
        rw [hgf] at hge
        exact hge.2.2.2.1.symm.trans he.2.2.2.1
      · rintro ⟨g, hg, hge⟩
        obtain ⟨hge, hgf⟩ := (hend _ _ _).mp hge
        refine ⟨⟨g, hg, hge⟩, fun hw => hgf ?_⟩
        rw [hw] at hge
        exact h.single g hg f hf k' w hge he
    · rw [if_neg hkk, hold]
      constructor
      · rintro ⟨g, hg, hge⟩
        refine ⟨g, hg, (hend _ _ _).mpr ⟨hge, fun hgf => hkk ?_⟩⟩
        rw [hgf] at hge
        exact hge.2.2.1.symm.trans he.2.2.1
      · rintro ⟨g, hg, hge⟩
        exact ⟨g, hg, ((hend _ _ _).mp hge).1⟩
  · rw [hn] at hk'
    by_cases hkk : k' = k
    · subst hkk
      have hopen := (h.ends k' hk' w).mpr ⟨f, hf, he⟩
      have hzero : s.freed k' = 0 := by
        rw [h.freed k' hk', if_neg]
        rintro ⟨h1, h2⟩
        cases w <;> simp [Pipe.isOpen, h1, h2] at hopen
      rw [hpipe, if_pos rfl, Sys.closeEnd_freed, show (s.setFile f _).freed k' = 0 from
        hzero, Nat.zero_add]
      rfl
    · rw [hpipe, if_neg hkk, hfr k' hkk]
      exact h.freed k' hk'
  · rw [hn] at hk'
    rw [hfr k' (fun hkk => by rw [hkk] at hk'; exact absurd hk (Nat.not_lt.mpr hk'))]
    exact h.unborn k' hk'

end

end Xv6
