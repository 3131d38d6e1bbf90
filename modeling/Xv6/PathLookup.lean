import Xv6.DirMap

/-! `skipelem` cuts a path into its components, and `namex` looks them up one after the
other. It returns with one reference more, on the inode that it found, and with no inode
locked. -/

namespace Xv6

open Kern List

section

/-- The elements of a path. -/
def components (path : List UInt8) : List (List UInt8) := (path.splitOn slash).filter (· ≠ [])

def pathNames (path : List UInt8) : List (List UInt8) := (components path).map (List.take dirsiz)

/-- `skipelem`, called again and again until it returns 0, yields these names. -/
inductive Skips : List UInt8 → List (List UInt8) → Prop
  | done {path : List UInt8} (h : skipelem path = none) : Skips path []
  | next {path name rest : List UInt8} {names : List (List UInt8)}
      (h : skipelem path = some (name, rest)) (hr : Skips rest names) : Skips path (name :: names)

variable {path name rest e t : List UInt8} {n : Nat}

lemma components_nil : components [] = [] := rfl

lemma components_slash : components (slash :: path) = components path := by
  unfold components List.splitOn
  rw [splitOnP_cons_eq_if_modifyHead, if_pos (by simp), filter_cons_of_neg (by simp)]

lemma components_dropSlashes (path : List UInt8) :
    components (path.dropWhile (· = slash)) = components path := by
  induction path with
  | nil => rfl
  | cons c l ih =>
    by_cases hc : c = slash
    · rw [dropWhile_cons_of_pos (by simpa using hc), ih, hc, components_slash]
    · rw [dropWhile_cons_of_neg (by simpa using hc)]

lemma beq_slash (hs : slash ∉ e) : ∀ x ∈ e, (x == slash) = false := by
  intro x hx
  refine beq_false_of_ne ?_
  rintro rfl
  exact hs hx

lemma components_last (he : e ≠ []) (hs : slash ∉ e) : components e = [e] := by
  unfold components List.splitOn
  rw [splitOnP_eq_singleton (beq_slash hs),
    filter_cons_of_pos (by simpa using he), filter_nil]

lemma components_append (he : e ≠ []) (hs : slash ∉ e) :
    components (e ++ slash :: t) = e :: components t := by
  unfold components List.splitOn
  rw [splitOnP_append_cons_of_forall_mem (beq_slash hs) _ (by simp),
    filter_cons_of_pos (by simpa using he)]

lemma components_of_skipelem_none (h : skipelem path = none) : components path = [] := by
  unfold skipelem at h
  split at h
  next hd => rw [← components_dropSlashes path, hd, components_nil]
  next => cases h

lemma components_of_skipelem (h : skipelem path = some (name, rest)) :
    rest.length < path.length ∧ ∃ e, name = e.take dirsiz ∧ components path = e :: components rest := by
  unfold skipelem at h
  split at h
  next => cases h
  next c l hd =>
    cases h
    have hc : c ≠ slash := by
      have hhead := List.head?_dropWhile_not (fun x => decide (x = slash)) path
      rw [hd] at hhead
      simpa using hhead
    have hlen : (c :: l).length ≤ path.length := by
      rw [← hd]
      exact (dropWhile_sublist _).length_le
    have he : (c :: l).takeWhile (· ≠ slash) ≠ [] := by
      rw [takeWhile_cons_of_pos (by simpa using hc)]
      exact cons_ne_nil _ _
    have hs : slash ∉ (c :: l).takeWhile (· ≠ slash) := fun hm => by
      simpa using all_eq_true.mp all_takeWhile slash hm
    have happ := takeWhile_append_dropWhile (p := (· ≠ slash)) (l := c :: l)
    constructor
    · have hsub := (dropWhile_sublist (· = slash) (l := (c :: l).dropWhile (· ≠ slash))).length_le
      have hsum := congrArg List.length happ
      rw [length_append] at hsum
      have hpos := length_pos_iff.mpr he
      omega
    · refine ⟨_, rfl, ?_⟩
      rw [components_dropSlashes, ← components_dropSlashes path, hd]
      cases hdrop : (c :: l).dropWhile (· ≠ slash) with
      | nil =>
        rw [hdrop, append_nil] at happ
        rw [happ, components_nil]
        exact components_last (by simp) (by rw [← happ]; exact hs)
      | cons x t =>
        have hx : x = slash := by
          have hhead := List.head?_dropWhile_not (fun x => decide (x ≠ slash)) (c :: l)
          rw [hdrop] at hhead
          simpa using hhead
        rw [hdrop, hx] at happ
        rw [hx, components_slash, ← components_append he hs, happ]

lemma pathElems_eq (hn : path.length ≤ n) : pathElems n path = pathNames path := by
  induction n generalizing path with
  | zero =>
    have hnil : path = [] := length_eq_zero_iff.mp (by omega)
    rw [hnil]
    rfl
  | succ n ih =>
    unfold pathElems
    cases hskip : skipelem path with
    | none => rw [pathNames, components_of_skipelem_none hskip, map_nil]
    | some q =>
      obtain ⟨name, rest⟩ := q
      obtain ⟨hlt, e, he, hcomp⟩ := components_of_skipelem hskip
      rw [pathNames, hcomp, map_cons, ← he]
      exact congrArg _ (ih (by omega))

lemma skips_pathNames (path : List UInt8) : Skips path (pathNames path) := by
  induction hn : path.length using Nat.strong_induction_on generalizing path with
  | _ n ih =>
    cases hskip : skipelem path with
    | none =>
      rw [pathNames, components_of_skipelem_none hskip]
      exact .done hskip
    | some q =>
      obtain ⟨name, rest⟩ := q
      obtain ⟨hlt, e, he, hcomp⟩ := components_of_skipelem hskip
      rw [pathNames, hcomp, map_cons, ← he]
      exact .next hskip (ih _ (by omega) _ rfl)

end

/-- One step of a path, from the nodes alone. -/
def lookupIn (N : Nat → Option FileNode) (i : Nat) (name : List UInt8) : Option Nat :=
  match N i with
  | some m => if m.type = tDir then m.lookup name else none
  | none => none

def IsDirectory (N : Nat → Option FileNode) (i : Nat) : Prop := ∃ m, N i = some m ∧ m.type = tDir

/-- The inodes of `P` are there, their entries stay in `P`, directories consist of whole entries,
and an inode without links is referenced. -/
structure PathTree (s : Fs) (P : Nat → Prop) : Prop where
  root : P rootino
  closed : Closed s.node P
  there : ∀ i, P i → ∃ m, s.node i = some m ∧ (m.type = tDir → m.size % 16 = 0) ∧
    (m.nlink = 0 → ∃ ip < ninode, 0 < (s.itable ip).ref ∧ (s.itable ip).inum = i)

/-- The files are as before, no inode is locked, and the references that are new are those to `cur`. -/
structure Added (s s' : Fs) (cur : List Nat) : Prop where
  node : s'.node = s.node
  ref : ∀ ip < ninode, (s'.itable ip).ref = (s.itable ip).ref + cur.count ip
  lock : ∀ ip < ninode, (s'.itable ip).lock = none

/-- The only panic: every slot but one is in use. -/
def TableFull (s : Fs) (e : String) : Prop :=
  e = "iget: no inodes" ∧ ∃ x, ∀ ip < ninode, ip ≠ x → 0 < (s.itable ip).ref

structure Passed (p : Nat) (s s' : Fs) (cur : List Nat) (held : Option Nat) : Prop where
  inv : FsInv s'
  sb : s'.sb = s.sb
  disk : s'.disk = s.disk
  ref : ∀ ip < ninode, (s'.itable ip).ref = (s.itable ip).ref + cur.count ip
  num : ∀ ip < ninode, 0 < (s.itable ip).ref → (s'.itable ip).inum = (s.itable ip).inum
  lock : ∀ ip < ninode, (s'.itable ip).lock = if held = some ip then some p else none

section

variable {p ip i : Nat} {s s1 s2 : Fs} {cur : List Nat} {held : Option Nat} {P : Nat → Prop}
  {E : String → Prop}

lemma Passed.node (h : Passed p s s1 cur held) : s1.node = s.node := Fs.node_congr h.sb h.disk

lemma Passed.added (h : Passed p s s1 cur none) : Added s s1 cur :=
  ⟨h.node, h.ref, fun ip hip => (h.lock ip hip).trans (if_neg nofun)⟩

lemma Fs.setInode_self (v : Inode) : (s.setInode ip v).itable ip = v := Function.update_self _ _ _

lemma Fs.setInode_of_ne {x : Nat} (v : Inode) (hx : x ≠ ip) : (s.setInode ip v).itable x = s.itable x :=
  Function.update_of_ne hx _ _

lemma Fs.setInode_inum {v : Inode} (hv : v.inum = (s.itable ip).inum) (x : Nat) :
    ((s.setInode ip v).itable x).inum = (s.itable x).inum := by
  by_cases hx : x = ip
  · rw [hx, Fs.setInode_self, hv]
  · rw [Fs.setInode_of_ne v hx]

lemma Passed.set {v : Inode} {cur' : List Nat} {held' : Option Nat} (h : Passed p s s1 cur held)
    (hi : FsInv (s1.setInode ip v)) (href : v.ref = (s.itable ip).ref + cur'.count ip)
    (hcount : ∀ x, x ≠ ip → cur'.count x = cur.count x)
    (hnum : 0 < (s1.itable ip).ref → v.inum = (s1.itable ip).inum)
    (hlock : v.lock = if held' = some ip then some p else none)
    (hheld : ∀ x, x ≠ ip → (held' = some x ↔ held = some x)) : Passed p s
    (s1.setInode ip v) cur' held' := by
  have hself : (s1.setInode ip v).itable ip = v := Fs.setInode_self v
  have hother : ∀ x, x ≠ ip → (s1.setInode ip v).itable x = s1.itable x :=
    fun x hx => Fs.setInode_of_ne v hx
  refine ⟨hi, h.sb, h.disk, fun x hx => ?_, fun x hx hr => ?_, fun x hx => ?_⟩
  · by_cases hxi : x = ip
    · rw [hxi, hself, href]
    · rw [hother x hxi, h.ref x hx, hcount x hxi]
  · by_cases hxi : x = ip
    · subst hxi
      rw [hself, ← h.num x hx hr]
      refine hnum ?_
      rw [h.ref x hx]
      omega
    · rw [hother x hxi, h.num x hx hr]
  · by_cases hxi : x = ip
    · rw [hxi, hself, hlock]
    · rw [hother x hxi, h.lock x hx]
      exact if_congr (hheld x hxi).symm rfl rfl

lemma Passed.got (h : Passed p s s1 cur held) (hn : i < s.sb.ninodes) (hg : Got i s1 s2 ip) :
    Passed p s s2 (ip :: cur) held ∧ (s2.itable ip).inum = i ∧
      ∀ x, 0 < (s1.itable x).ref → (s2.itable x).inum = (s1.itable x).inum := by
  have hinv : FsInv s2 := h.inv.got (by rw [h.sb]; exact hn) hg
  have hself : (s2.itable ip).inum = i := by rw [hg.eq, Fs.setInode_self]
  have heq := hg.eq
  subst heq
  refine ⟨h.set hinv ?_ (fun x hx => count_cons_of_ne (Ne.symm hx)) (fun hr => (hg.hit hr).symm)
    (h.lock ip hg.lt) fun _ _ => Iff.rfl, hself, fun x hx => ?_⟩
  · rw [count_cons_self, h.ref ip hg.lt, Nat.add_assoc]
  · by_cases hxi : x = ip
    · rw [hxi] at hx ⊢
      exact hself.trans (hg.hit hx).symm
    · rw [Fs.setInode_of_ne _ hxi]

lemma Passed.locked (h : Passed p s s1 cur none) (hip : ip < ninode)
    (hinv : FsInv (s1.locked p ip)) : Passed p s (s1.locked p ip) cur (some ip) :=
  h.set hinv (h.ref ip hip) (fun _ _ => rfl) (fun _ => rfl) (if_pos rfl).symm fun _ hx =>
    ⟨fun he => absurd (Option.some.inj he).symm hx, nofun⟩

lemma Passed.unlocked (h : Passed p s s1 cur (some ip)) (hip : ip < ninode) :
    Passed p s (s1.setLock ip none) cur none :=
  h.set (h.inv.setLock hip none) (h.ref ip hip) (fun _ _ => rfl) (fun _ => rfl)
    (if_neg nofun).symm fun _ hx =>
    ⟨nofun, fun he => absurd (Option.some.inj he).symm hx⟩

lemma Passed.dropped (h : Passed p s s1 (ip :: cur) none) (hip : ip < ninode) :
    Passed p s (s1.dropRef ip) cur none := by
  refine h.set (h.inv.dropRef hip) ?_ (fun x hx => (count_cons_of_ne (Ne.symm hx)).symm)
    (fun _ => rfl) (h.lock ip hip) fun _ _ => Iff.rfl
  have href := h.ref ip hip
  rw [count_cons_self] at href
  exact Nat.sub_eq_of_eq_add href

lemma Passed.ref_pos (h : Passed p s s1 cur held) (hip : ip < ninode) (hc : ip ∈ cur) :
    0 < (s1.itable ip).ref := by
  have hpos := count_pos_iff.mpr hc
  rw [h.ref ip hip]
  omega

lemma Passed.not_lastUse (h : Passed p s s1 cur held) (ht : PathTree s P) (hip : ip < ninode)
    (hc : ip ∈ cur) (hP : P (s1.itable ip).inum) : ¬ LastUse s1 ip := by
  rintro ⟨href, hvalid, hlink⟩
  obtain ⟨m, hm, -, hset⟩ := ht.there _ hP
  have hload : Loaded ip s1 := ⟨hip, by omega, hvalid⟩
  have hm1 : s1.node (s1.itable ip).inum = some m := by rw [h.node]; exact hm
  have hnlink := (h.inv.node_type hload hm1).2.1
  obtain ⟨x, hx, hxr, hxn⟩ := hset (hnlink.symm.trans hlink)
  have hxr1 : 0 < (s1.itable x).ref := by
    rw [h.ref x hx]
    omega
  have hxi := h.inv.unique x hx ip hip hxr1 (by omega) ((h.num x hx hxr).trans hxn)
  subst hxi
  have hpos := count_pos_iff.mpr hc
  have href' := h.ref x hx
  omega

lemma iput_ends (h : Passed p s s1 (ip :: cur) none) (ht : PathTree s P) (hip : ip < ninode)
    (hP : P (s1.itable ip).inum) :
    Thread.Ends (iput p ip) s1 E fun _ s2 => Passed p s s2 cur none ∧
    ∀ x, (s2.itable x).inum = (s1.itable x).inum := by
  have hlast := h.not_lastUse ht hip mem_cons_self hP
  unfold iput
  refine Thread.Ends.bind (Thread.ends_step (iputStart_sat (.inr fun hl => absurd hl hlast))) ?_
  rintro r s2 (⟨-, hl, -⟩ | ⟨rfl, -, rfl⟩)
  · exact absurd hl hlast
  · exact ⟨h.dropped hip, Fs.setInode_inum rfl⟩

lemma iunlock_ends (h : Passed p s s1 cur (some ip)) (hip : ip < ninode) (hc : ip ∈ cur) :
    Thread.Ends (iunlock p ip) s1 E fun _ s2 => Passed p s s2 cur none ∧
    ∀ x, (s2.itable x).inum = (s1.itable x).inum := by
  have hlock := (h.lock ip hip).trans (if_pos rfl)
  refine Thread.ends_step ((iunlockStep_sat (.inr ⟨hlock, h.ref_pos hip hc⟩)).imp ?_)
  rintro _ s2 rfl
  exact ⟨h.unlocked hip, Fs.setInode_inum rfl⟩

lemma iunlockput_ends (h : Passed p s s1 (ip :: cur) (some ip)) (ht : PathTree s P) (hip : ip < ninode)
    (hP : P (s1.itable ip).inum) : Thread.Ends (iunlockput p ip) s1 E fun _ s2 =>
      Passed p s s2 cur none ∧ ∀ x, (s2.itable x).inum = (s1.itable x).inum := by
  unfold iunlockput
  refine (iunlock_ends h hip mem_cons_self).bind ?_
  rintro _ s2 ⟨h2, hnum2⟩
  refine (iput_ends h2 ht hip (by rw [hnum2]; exact hP)).imp ?_
  rintro _ s3 ⟨h3, hnum3⟩
  exact ⟨h3, fun x => (hnum3 x).trans (hnum2 x)⟩

lemma ilock_ends (h : Passed p s s1 cur none) (ht : PathTree s P) (hip : ip < ninode)
    (hc : ip ∈ cur) (hP : P (s1.itable ip).inum) :
    Thread.Ends (ilock p ip) s1 E fun _ s2 => Passed p s s2 cur (some ip) ∧
    (s2.itable ip).valid = true ∧ ∀ x, (s2.itable x).inum = (s1.itable x).inum := by
  obtain ⟨m, hm, -⟩ := ht.there _ hP
  have href := h.ref_pos hip hc
  have htype : (s1.dinode (s1.itable ip).inum).type ≠ 0 := by
    intro h0
    rw [← h.node, Fs.node_of_lt (h.inv.inum ip hip href), nodeOf_eq_none.mpr h0] at hm
    cases hm
  have hfree := (h.lock ip hip).trans (if_neg nofun)
  refine Thread.ends_await (by rw [hfree]; simp) ((ilockStep_sat h.inv hip href (.inr htype)).imp ?_)
  rintro _ s2 ⟨rfl, -⟩
  refine ⟨h.locked hip (h.inv.locked hip htype), ?_, Fs.setInode_inum rfl⟩
  rw [Fs.locked, Fs.setInode_self]

end

def resolveNames (N : Nat → Option FileNode) (i : Nat) (names : List (List UInt8)) : Option Nat :=
  names.foldlM (lookupIn N) i

open Classical in
noncomputable def resolveParent (N : Nat → Option FileNode) (i : Nat) (names : List (List UInt8)) :
    Option (Nat × List UInt8) :=
  names.getLast?.bind fun name => (resolveNames N i names.dropLast).bind fun j =>
    if IsDirectory N j then some (j, name) else none

section

variable {p ip i cwd : Nat} {s s1 s2 : Fs} {P : Nat → Prop} {names path : List (List UInt8)}
  {name : List UInt8} {N : Nat → Option FileNode}

lemma resolveNames_cons : resolveNames N i (name :: names) = (lookupIn N i name).bind fun j =>
    resolveNames N j names :=
  foldlM_cons

lemma resolveParent_cons (hne : names ≠ []) :
    resolveParent N i (name :: names) = (lookupIn N i name).bind fun j => resolveParent N j names := by
  obtain ⟨b, l, rfl⟩ := exists_cons_of_ne_nil hne
  unfold resolveParent
  rw [List.getLast?_cons_cons, dropLast_cons_cons, resolveNames_cons]
  cases lookupIn N i name with
  | none => simp
  | some j => rfl

lemma resolveParent_single : resolveParent N i [name] = some (i, name) ↔ IsDirectory N i := by
  have hnames : resolveNames N i [] = some i := rfl
  rw [resolveParent, List.getLast?_singleton, dropLast_singleton, hnames]
  simp

/-- `r` is the answer `t` of the lookup: the inode and the name, and one reference to the inode. -/
def Answers (s s' : Fs) (r t : Option (Nat × List UInt8)) : Prop :=
  match t with
  | none => r = none ∧ Added s s' []
  | some (i, name) => ∃ ip < ninode, r = some (ip, name) ∧ (s'.itable ip).inum = i ∧ Added s s' [ip]

noncomputable def namexTarget (N : Nat → Option FileNode) (parent : Bool) (i : Nat)
    (names : List (List UInt8)) : Option (Nat × List UInt8) :=
  if parent then resolveParent N i names else (resolveNames N i names).map fun j => (j, [])

variable {parent : Bool}

lemma namexTarget_cons (h : ¬ (parent = true ∧ names = [])) :
    namexTarget N parent i (name :: names) = (lookupIn N i name).bind fun j =>
    namexTarget N parent j names := by
  unfold namexTarget
  cases parent with
  | true => exact resolveParent_cons fun hn => h ⟨rfl, hn⟩
  | false =>
    rw [if_neg Bool.false_ne_true, resolveNames_cons, Option.map_bind]
    rfl

lemma namexTarget_file {m : FileNode} (hm : N i = some m) (hf : m.type ≠ tDir) :
    namexTarget N parent i (name :: names) = none := by
  by_cases h : parent = true ∧ names = []
  · obtain ⟨rfl, rfl⟩ := h
    have hdir : ¬ IsDirectory N i := by
      rintro ⟨m', hm', hd⟩
      rw [hm] at hm'
      cases hm'
      exact hf hd
    rw [namexTarget, if_pos rfl, resolveParent, List.getLast?_singleton, dropLast_singleton,
      Option.bind_some]
    exact if_neg hdir
  · rw [namexTarget_cons h, lookupIn, hm]
    simp [hf]

lemma namexLoop_ends (h : Passed p s s1 [ip] none) (ht : PathTree s P) (hip : ip < ninode)
    (hnum : (s1.itable ip).inum = i) (hP : P i) :
    Thread.Ends (namexLoop p parent ip names) s1 (TableFull s) fun r s' =>
      Answers s s' r (namexTarget s.node parent i names) := by
  induction names generalizing s1 ip i with
  | nil =>
    unfold namexLoop
    split
    next hp =>
      refine (iput_ends h ht hip (by rw [hnum]; exact hP)).bind ?_
      rintro _ s2 ⟨h2, -⟩
      rw [hp]
      exact Thread.ends_pure ⟨rfl, h2.added⟩
    next hp =>
      have htarget : namexTarget s.node parent i [] = some (i, []) := by
        rw [namexTarget, if_neg hp]
        rfl
      rw [htarget]
      exact Thread.ends_pure ⟨ip, hip, rfl, hnum, h.added⟩
  | cons name rest ih =>
    unfold namexLoop
    refine (ilock_ends h ht hip mem_cons_self (by rw [hnum]; exact hP)).bind ?_
    rintro _ s2 ⟨h2, hvalid, hnum2⟩
    obtain ⟨m, hm, hsize, -⟩ := ht.there i hP
    have hnum' : (s2.itable ip).inum = i := (hnum2 ip).trans hnum
    have hload : Loaded ip s2 := ⟨hip, h2.ref_pos hip mem_cons_self, hvalid⟩
    have hm2 : s2.node (s2.itable ip).inum = some m := by rw [h2.node, hnum']; exact hm
    have htype := (h2.inv.node_type hload hm2).1
    refine Thread.Ends.bind (Thread.ends_step (Q := fun t s' => t = m.type ∧ s' = s2) ?_) ?_
    · unfold typeOf
      rw [sat_bind, sat_getState, sat_pure]
      exact ⟨htype, rfl⟩
    rintro t s3 ⟨rfl, rfl⟩
    split
    next hfile =>
      refine (iunlockput_ends h2 ht hip (by rw [hnum']; exact hP)).bind ?_
      rintro _ s4 ⟨h4, -⟩
      rw [namexTarget_file hm hfile]
      exact Thread.ends_pure ⟨rfl, h4.added⟩
    next hdir =>
      have hdir : m.type = tDir := not_not.mp hdir
      split
      next hlast =>
        refine (iunlock_ends h2 hip mem_cons_self).bind ?_
        rintro _ s4 ⟨h4, hnum4⟩
        have htarget : namexTarget s.node parent i (name :: rest) = some (i, name) := by
          rw [namexTarget, if_pos hlast.1, hlast.2]
          exact resolveParent_single.mpr ⟨m, hm, hdir⟩
        rw [htarget]
        exact Thread.ends_pure ⟨ip, hip, rfl, (hnum4 ip).trans hnum', h4.added⟩
      next hmore =>
        have hlook : lookupIn s.node i name = m.lookup name := by
          rw [lookupIn, hm]
          exact if_pos hdir
        rw [namexTarget_cons hmore, hlook]
        have hroom : TableFull s "iget: no inodes" ∨ ∃ x < ninode, (s3.itable x).ref = 0 := by
          by_cases hfull : ∀ x < ninode, x ≠ ip → 0 < (s.itable x).ref
          · exact .inl ⟨rfl, ip, hfull⟩
          · push Not at hfull
            obtain ⟨x, hx, hne, hr⟩ := hfull
            refine .inr ⟨x, hx, ?_⟩
            rw [h2.ref x hx, count_cons_of_ne (Ne.symm hne), count_nil]
            omega
        refine Thread.Ends.bind (Thread.ends_step (dirlookup_any (h2.inv.solid_of_loaded hload)
          ((h2.inv.node_loaded hload).1.symm.trans hm2) hdir (hsize hdir) hroom)) ?_
        rintro r s4 hr
        cases r with
        | none =>
          obtain ⟨rfl, -, hno⟩ := hr
          refine (iunlockput_ends h2 ht hip (by rw [hnum']; exact hP)).bind ?_
          rintro _ s5 ⟨h5, -⟩
          rw [FileNode.lookup_eq_none hno]
          exact Thread.ends_pure ⟨rfl, h5.added⟩
        | some q =>
          obtain ⟨k, -, hname, hfirst, hgot⟩ := hr
          have hnext := ht.closed i m hP hm hdir k hname.lt hname.used
          have hlt : (m.entry k).inum < s.sb.ninodes := by
            rw [← h2.sb]
            exact h2.inv.entry_lt hm2 hdir hname.lt
          obtain ⟨h4, hnum4, hkeep⟩ := h2.got hlt hgot
          have hswap : Passed p s s4 [ip, q.1] (some ip) :=
            { h4 with ref := fun x hx => by rw [h4.ref x hx, (List.Perm.swap ip q.1 []).count_eq] }
          have hnum5 := (hkeep ip hload.ref).trans hnum'
          refine (iunlockput_ends hswap ht hip (by rw [hnum5]; exact hP)).bind ?_
          rintro _ s5 ⟨h5, hnum6⟩
          rw [FileNode.lookup_eq_some hname hfirst]
          exact ih h5 hgot.lt ((hnum6 q.1).trans hnum4) hnext

lemma namex_ends {path : List UInt8} (parent : Bool) (hi : FsInv s)
    (hlock : ∀ ip < ninode, (s.itable ip).lock = none) (ht : PathTree s P) (hcwd : cwd < ninode)
    (href : 0 < (s.itable cwd).ref) (hc : P (s.itable cwd).inum) :
    Thread.Ends (namex p cwd path parent) s (TableFull s) fun r s' =>
      Answers s s' r (namexTarget s.node parent (startOf (s.itable cwd).inum path)
        (pathNames path)) := by
  have h : Passed p s s [] none := ⟨hi, rfl, rfl, fun _ _ => rfl, fun _ _ _ => rfl, hlock⟩
  unfold namex
  rw [pathElems_eq le_rfl]
  refine Thread.Ends.bind (Q := fun ip s1 => Passed p s s1 [ip] none ∧ ip < ninode ∧
    (s1.itable ip).inum = startOf (s.itable cwd).inum path) (Thread.ends_step ?_) ?_
  · unfold startOf
    split
    next =>
      have hroom : TableFull s "iget: no inodes" ∨ ∃ x < ninode, (s.itable x).ref = 0 := by
        by_cases hfull : ∀ x < ninode, 0 < (s.itable x).ref
        · exact .inl ⟨rfl, 0, fun x hx _ => hfull x hx⟩
        · push Not at hfull
          obtain ⟨x, hx, hr⟩ := hfull
          exact .inr ⟨x, hx, by omega⟩
      refine (iget_sat hroom).imp ?_
      intro ip s1 hg
      obtain ⟨h1, hnum1, -⟩ := h.got hi.layout.root_lt hg
      exact ⟨h1, hg.lt, hnum1⟩
    next =>
      refine idup_sat.imp ?_
      rintro ip s1 ⟨rfl, rfl⟩
      have hg : Got (s.itable ip).inum s
          (s.setInode ip { s.itable ip with ref := (s.itable ip).ref + 1 }) ip :=
        ⟨hcwd, fun _ => rfl, fun h0 => absurd h0 (by omega), by simp [href]⟩
      obtain ⟨h1, hnum1, -⟩ := h.got (hi.inum ip hcwd href) hg
      exact ⟨h1, hcwd, hnum1⟩
  · rintro ip s1 ⟨h1, hip, hnum⟩
    refine namexLoop_ends h1 ht hip hnum ?_
    unfold startOf
    split
    · exact ht.root
    · exact hc

/-- `namei` is the fold of the lookups, and `nameiparent` that of all names but the last. -/
theorem path_resolution (hi : FsInv s) (hlock : ∀ ip < ninode, (s.itable ip).lock = none)
    (ht : PathTree s P) (hcwd : cwd < ninode) (href : 0 < (s.itable cwd).ref)
    (hc : P (s.itable cwd).inum) (p : Nat) (path : List UInt8) :
    Skips path ((components path).map (List.take dirsiz)) ∧
    Thread.Ends (namei p cwd path) s (TableFull s) (fun r s' =>
      match ((components path).map (List.take dirsiz)).foldlM (lookupIn s.node)
          (startOf (s.itable cwd).inum path) with
      | none => r = none ∧ Added s s' []
      | some i => ∃ ip < ninode, r = some ip ∧ (s'.itable ip).inum = i ∧ Added s s' [ip]) ∧
    Thread.Ends (nameiparent p cwd path) s (TableFull s) fun r s' =>
      (∃ init last i, (components path).map (List.take dirsiz) = init ++ [last] ∧
        init.foldlM (lookupIn s.node) (startOf (s.itable cwd).inum path) = some i ∧
        IsDirectory s.node i ∧
        ∃ ip < ninode, r = some (ip, last) ∧ (s'.itable ip).inum = i ∧ Added s s' [ip]) ∨
      (r = none ∧ Added s s' [] ∧ ∀ init last i,
        (components path).map (List.take dirsiz) = init ++ [last] → init.foldlM (lookupIn s.node)
        (startOf (s.itable cwd).inum path) = some i → ¬ IsDirectory s.node i) := by
  refine ⟨skips_pathNames path, ?_, ?_⟩
  · refine (namex_ends false hi hlock ht hcwd href hc).bind ?_
    rintro r s' hr
    refine Thread.ends_pure ?_
    rw [namexTarget, if_neg Bool.false_ne_true, resolveNames, pathNames] at hr
    split
    next hnone =>
      rw [hnone] at hr
      exact ⟨by rw [hr.1]; rfl, hr.2⟩
    next i hsome =>
      rw [hsome] at hr
      obtain ⟨ip, hip, rfl, hnum, hadd⟩ := hr
      exact ⟨ip, hip, rfl, hnum, hadd⟩
  · refine (namex_ends true hi hlock ht hcwd href hc).imp ?_
    rintro r s' hr
    rw [namexTarget, if_pos rfl] at hr
    cases htarget : resolveParent s.node (startOf (s.itable cwd).inum path) (pathNames path) with
    | none =>
      rw [htarget] at hr
      refine .inr ⟨hr.1, hr.2, fun init last i hnames hfold hdir => ?_⟩
      rw [resolveParent, pathNames, hnames, List.getLast?_append, dropLast_concat, resolveNames,
        hfold] at htarget
      simp [hdir] at htarget
    | some q =>
      rw [htarget] at hr
      obtain ⟨ip, hip, rfl, hnum, hadd⟩ := hr
      unfold resolveParent at htarget
      obtain ⟨last, hlast, htarget⟩ := Option.bind_eq_some_iff.mp htarget
      obtain ⟨i, hfold, htarget⟩ := Option.bind_eq_some_iff.mp htarget
      split at htarget
      next hdir =>
        cases htarget
        obtain ⟨init, hnames⟩ := List.getLast?_eq_some_iff.mp hlast
        rw [hnames, dropLast_concat] at hfold
        exact .inl ⟨init, last, i, hnames, hfold, hdir, ip, hip, rfl, hnum, hadd⟩
      next => cases htarget

end

theorem path_resolution_root :
    ∃ s, FsInv s ∧ PathTree s (· = rootino) ∧ Skips [slash, 46, slash, 120] [[46], [120]] ∧
    Thread.Ends (nameiparent 1 0 [slash, 46, slash, 120]) s (TableFull s) fun r s' =>
      (∃ init last i, [[46], [120]] = init ++ [last] ∧
        init.foldlM (lookupIn s.node) rootino = some i ∧ IsDirectory s.node i ∧
        ∃ ip < ninode, r = some (ip, last) ∧ (s'.itable ip).inum = i ∧ Added s s' [ip]) ∨
      (r = none ∧ Added s s' [] ∧ ∀ init last i, [[46], [120]] = init ++ [last] →
        init.foldlM (lookupIn s.node) rootino = some i → ¬ IsDirectory s.node i) := by
  obtain ⟨s, m, hi, hip, -, -, -, hnum, hm, hd, hlink, hent, hlock⟩ := rootOpen_dir
  rw [hnum] at hm
  have ht : PathTree s (· = rootino) := by
    refine ⟨rfl, fun i m' hP hm' _ k hk h0 => ?_, fun i hP => ?_⟩
    · rw [hP, hm] at hm'
      cases hm'
      exact hent k ⟨hk, h0⟩
    · rw [hP]
      exact ⟨m, hm, fun _ => hd.sized, fun h0 => absurd h0 hlink⟩
  have h := path_resolution hi hlock ht hip.lt hip.ref hnum 1 [slash, 46, slash, 120]
  have hcomp : (components [slash, 46, slash, 120]).map (List.take dirsiz) = [[46], [120]] := by decide
  have hstart : startOf (s.itable 0).inum [slash, 46, slash, 120] = rootino := rfl
  rw [hcomp, hstart] at h
  exact ⟨s, hi, ht, h.1, h.2.2⟩

end Xv6
