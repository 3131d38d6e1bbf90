import Xv6.SysRun

/-! Reference counts are exact between system calls, and a call on paths that fails leaves
the files as they were, unless `open` has created one. -/

namespace Xv6

structure RefsExact (s : Sys) : Prop where
  files : ∀ f < nfile, (s.file f).ref = s.handles.count f
  open_lt : ∀ f ∈ s.handles, f < nfile
  inodes : ∀ ip < ninode, (s.fs.itable ip).ref = s.slots.count ip
  slots_lt : ∀ ip ∈ s.slots, ip < ninode
  single : ∀ x < ninode, ∀ y < ninode, 0 < (s.fs.itable x).ref → 0 < (s.fs.itable y).ref →
    (s.fs.itable x).inum = (s.fs.itable y).inum → x = y
  pipes : PipeEnds s

section

variable {sb : Superblock} {disk : Disk} {lost : Nat → Prop} {s s' : Sys}
  {ok : Sys → Nat × Call → Prop} {hist : List Unit} {p : Nat}

lemma SysInv.refsExact (h : SysInv sb lost s) : RefsExact s where
  files := h.tables.count
  open_lt := h.tables.lt
  inodes := by
    intro ip hip
    rw [h.run.exact ip hip, List.nil_append, Sys.refs, List.map_map]
    exact congrArg (List.count ip) (List.map_id _)
  slots_lt := fun ip hip => h.run.lt (Sys.mem_refs.mpr ⟨hip, rfl⟩)
  single := h.run.inv.unique
  pipes := h.pipes

/-- Every reference is counted. A call that fails leaves descriptors, counts and pipes
alone, and no call finds a count of zero in `filedup` or `fileclose`. -/
theorem references_exact (hw : Image sb disk) (h : (sysMachine sb disk).Reach ok s hist) :
    RefsExact s ∧ ∀ c : Call, s.CanCall p →
      (∀ s', (c.prog p).run s = some (.ok (-1, s')) → SameHandles s s') ∧
      ∀ e, (c.prog p).run s = some (.error e) → e ≠ "filedup" ∧ e ≠ "fileclose" := by
  have hi := sysMachine_inv hw h
  refine ⟨hi.refsExact, fun c hc => ⟨fun s' hr => ?_, fun e hr => ?_⟩⟩
  · exact ((c.sat_counts hi hc).of_run hr).1.failed rfl
  · exact not_or.mp ((c.sat_counts hi hc).of_panic hr)

lemma rootImage_image : Image mkfsSb rootImage where
  toWellFormed := rootImage_wellFormed
  root := by
    rw [Fs.node_of_lt (by decide), rootImage_root, ne_eq, nodeOf_eq_none]
    decide
  linked := by
    intro i m _ hm
    by_cases hlt : i < mkfsSb.ninodes
    · rw [Fs.node_of_lt hlt] at hm
      obtain ⟨ht, rfl⟩ := nodeOf_some hm
      have hi : i = rootino := by
        by_contra hne
        exact ht (rootImage_free hlt hne)
      rw [hi, rootImage_root]
      decide
    · rw [Fs.node_of_ge hlt] at hm
      cases hm

def callsFromBoot (cs : List (Nat × Call)) : Option Sys :=
  match userinit.run (bootSys mkfsSb rootImage) with
  | some (.ok (_, s)) => ((sysMachine mkfsSb rootImage).run s cs).map Prod.fst
  | _ => none

variable {cs : List (Nat × Call)}

lemma reach_of_calls (h : callsFromBoot cs = some s) :
    ∃ hist, (sysMachine mkfsSb rootImage).Reach (fun _ _ => True) s hist := by
  unfold callsFromBoot at h
  split at h
  next s0 h0 =>
    obtain ⟨⟨s1, out⟩, hr, rfl⟩ := Option.map_eq_some_iff.mp h
    exact ⟨_, (Machine.Reach.init h0).run cs (fun _ _ => trivial) hr⟩
  next => cases h

lemma reach_of_test {test : Sys → Bool} (h : (callsFromBoot cs).any test = true) :
    ∃ s hist, (sysMachine mkfsSb rootImage).Reach (fun _ _ => True) s hist ∧ test s = true := by
  obtain ⟨s, hs, ht⟩ := (Option.any_eq_true _ _).mp h
  obtain ⟨hist, hr⟩ := reach_of_calls hs
  exact ⟨s, hist, hr, ht⟩

theorem references_exact_dup : Image mkfsSb rootImage ∧ ∃ s hist,
    (sysMachine mkfsSb rootImage).Reach (fun _ _ => True) s hist ∧ (s.file 0).ref = 2 ∧
    RefsExact s := by
  have htest : (callsFromBoot [(0, .open (some [slash]) oRdonly), (0, .dup 0)]).any
      (fun s => decide ((s.file 0).ref = 2)) = true := by
    decide +kernel
  obtain ⟨s, hist, hr, hs⟩ := reach_of_test htest
  exact ⟨rootImage_image, s, hist, hr, of_decide_eq_true hs,
    (references_exact (p := 0) rootImage_image hr).1⟩

end

end Xv6
