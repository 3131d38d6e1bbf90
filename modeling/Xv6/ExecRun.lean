import Xv6.ExecArgs

/-! `exec` from the locked inode to the new image. -/

namespace Xv6

open Kern List

/-- The 8-byte word at an address of user memory. -/
def Mem.userWord (m : Mem) (t : Radix Nat 2) (a : Nat) : Nat := Bytes.leNat (m.userBytes t a 8)

namespace ExecSys

/-- The process after `exec`: the segments of the file, the guard, and the stack with the
arguments. -/
structure Executed (K : KernelImage) (L : List Nat) (p : ExecProc) (file : List UInt8)
    (argv : List (List UInt8)) (r : Int × ExecProc) (m : Mem) (t : Radix Nat 2) : Prop where
  argc : r.1 = argv.length
  frame : r.2.trapframe = p.trapframe
  space : Space K L m r.2.pagetable p.trapframe (npages (imageSz (loadHdrs file)) + 2)
    (npages (imageSz (loadHdrs file))) t
  size : r.2.sz = (npages (imageSz (loadHdrs file)) + 2) * pgSize
  bytes : ∀ a, a / pgSize < npages (imageSz (loadHdrs file)) →
    m.user t a = imageOf file (loadHdrs file) a
  flags : ∀ v < npages (imageSz (loadHdrs file)),
    pteFlags (t.val sv39 v) = pteR ||| pteU ||| pagePerm (loadHdrs file) v ||| pteV
  fits : argSize argv ≤ pgSize
  words : m.userBytes t (r.2.sz - argSize argv)
    ((argv.length + 1) * 8) = (argPtrs r.2.sz argv ++ [0]).flatMap (Bytes.leBytes 8)
  strings : StringsAt t m (argPtrs r.2.sz argv) argv
  a1 : (m.page p.trapframe).field trapframeA1 8 = r.2.sz - argSize argv
  sp : (m.page p.trapframe).field trapframeSp 8 = r.2.sz - argSize argv
  epc : (m.page p.trapframe).field trapframeEpc 8 = (ElfHdr.decode (file.take elfhdrSize)).entry

section

variable {K : KernelImage} {L : List Nat} {s : ExecSys} {p : ExecProc}
  {g root tf n g' n' sz sp entry ip : Nat} {t told : Radix Nat 2}
  {m m' : Mem} {file path name : List UInt8} {argv : List (List UInt8)} {E : String → Prop}

lemma free_beside {sz root' tf' : Nat} (hold : Space K L m root tf (npages sz) g told)
    (h : Space K (told.pages sv39 ++ (users told 0 (npages sz) ++ L)) m' root' tf' n' g' t)
    (hk : Keeps (told.pages sv39) m m') :
    (procFreepagetable K root sz).Sat m' E fun _ m'' => Space K L m'' root' tf' n' g' t ∧
      Keeps (t.pages sv39 ++ (users t 0 n' ++ L)) m' m'' ∧
      ∀ x ∈ told.pages sv39 ++ users told 0 (npages sz), x ∈ m''.freelist := by
  refine (procFreepagetable_sat (hold.parent h hk)).imp ?_
  rintro _ m'' ⟨ha, hkeep⟩
  refine ⟨h.congr (hkeep.mono (subset_append_left _ _)) ha, hkeep, fun x hx => ?_⟩
  have hall := (hold.parent h hk).acct
  rw [← append_assoc] at hall
  exact hall.freed ha hx

lemma commit_sat (hold : Space K L m p.pagetable p.trapframe (npages p.sz) g told)
    (htf : p.trapframe ∈ L)
    (h : Space K (told.pages sv39 ++ (users told 0 (npages p.sz) ++ L)) m' root p.trapframe n' g' t)
    (hk : Keeps (told.pages sv39) m m') (hsp : sp < 2 ^ 64) (hentry : entry < 2 ^ 64) :
    (commit K p name entry root sz sp).Sat m' E fun p' m'' =>
      p' = { p with pagetable := root, sz := sz, name := name } ∧
      Space K L m'' root p.trapframe n' g' t ∧ SameBelow n' t m' t m'' ∧
      (m''.page p.trapframe).field trapframeA1 8 = sp ∧
      (m''.page p.trapframe).field trapframeSp 8 = sp ∧
      (m''.page p.trapframe).field trapframeEpc 8 = entry ∧
      (∀ x ∈ L, x ≠ p.trapframe → m''.page x = m'.page x) ∧
      ∀ x ∈ told.pages sv39 ++ users told 0 (npages p.sz), x ∈ m''.freelist := by
  have hmem : p.trapframe ∈ told.pages sv39 ++ (users told 0 (npages p.sz) ++ L) :=
    mem_append_right _ (mem_append_right _ htf)
  have hnusers : p.trapframe ∉ users t 0 n' := by
    intro hu
    have hnd := (nodup_append.mp h.acct.nodup).2.1
    exact (nodup_append.mp hnd).2.2 _ hu _ hmem rfl
  unfold commit
  rw [sat_bind, sat_modifyState]
  generalize hb : (((m'.page p.trapframe).setField trapframeA1 8 sp).setField trapframeEpc 8
    entry).setField trapframeSp 8 sp = b
  have h₁ := h.setPage (mem_append_right _ hmem) b
  have hk1 : Keeps (told.pages sv39) m (m'.setPage p.trapframe b) :=
    hk.trans (keeps_setPage (hold.not_mem_pages (mem_append_right _ htf)) b)
  refine (free_beside hold h₁ hk1).bind ?_
  rintro _ m2 ⟨h₂, hk2, hfree⟩
  have hpage : m2.page p.trapframe = b := by
    rw [hk2 _ (mem_append_right _ (mem_append_right _ htf)), Mem.page_setPage_self]
  have hsame : SameBelow n' t m' t m2 := by
    refine Keeps.sameBelow (Keeps.trans (keeps_setPage hnusers b) ?_) fun _ _ => rfl
    exact hk2.mono fun q hq => mem_append_right _ (mem_append_left _ hq)
  refine sat_pure.mpr ⟨rfl, h₂, hsame, ?_, ?_, ?_, fun x hx hne => ?_, hfree⟩
  · rw [hpage, ← hb, Bytes.field_setField_of_disjoint _ _ (by decide),
      Bytes.field_setField_of_disjoint _ _ (by decide), Bytes.field_setField_self _ _ (by decide)]
    exact Nat.mod_eq_of_lt hsp
  · rw [hpage, ← hb, Bytes.field_setField_self _ _ (by decide)]
    exact Nat.mod_eq_of_lt hsp
  · rw [hpage, ← hb, Bytes.field_setField_of_disjoint _ _ (by decide),
      Bytes.field_setField_self _ _ (by decide)]
    exact Nat.mod_eq_of_lt hentry
  · rw [hk2 x (mem_append_right _ (mem_append_right _ hx)), Mem.page_setPage_of_ne _ _ hne]

/-- All of what `exec` may do, by its result. -/
lemma exec_sat (path : List UInt8) (argv : List (List UInt8))
    (hold : Space K L s.mem p.pagetable p.trapframe (npages p.sz) g told) (htf : p.trapframe ∈ L)
    (hf : FileAt s.fs ip file) (hargc : argv.length < maxarg) (hlen : ∀ a ∈ argv, a.length < 2 ^ 61) :
    (exec K p path ip argv).Sat s E fun r s' =>
      (s'.fs = s.fs ∧ ∀ x ∈ L, x ≠ p.trapframe → s'.mem.page x = s.mem.page x) ∧
      (r.1 = -1 → r.2 = p ∧ Space K L s'.mem p.pagetable p.trapframe (npages p.sz) g told ∧
        Keeps (told.pages sv39 ++ (users told 0 (npages p.sz) ++ L)) s.mem s'.mem) ∧
      (r.1 ≠ -1 →
        r.2 = { p with pagetable := r.2.pagetable, sz := r.2.sz, name := progName path } ∧
        (∀ x ∈ told.pages sv39 ++ users told 0 (npages p.sz), x ∈ s'.mem.freelist) ∧
        ∃ t, Executed K L p file argv r s'.mem t) ∧
      ∀ x s₁, load K p.trapframe ip s = .ok (some x, s₁) →
        (r.1 = -1 ↔ pgSize < argSize argv) := by
  have hpool := mem_pool (hold.acct.mem_pool (mem_append_right _ (mem_append_right _ htf)))
  have hin : ∀ x ∈ L, x ∈ told.pages sv39 ++ (users told 0 (npages p.sz) ++ L) :=
    fun x hx => mem_append_right _ (mem_append_right _ hx)
  unfold exec
  refine (kern_sat_run (load_sat hf hold.acct hpool.2.2)).bind ?_
  rintro r s₁ ⟨hrun, hfs, hk1, hr⟩
  cases r with
  | none =>
    refine sat_pure.mpr ⟨⟨hfs, fun x hx _ => hk1 x (hin x hx)⟩,
      fun _ => ⟨rfl, hold.congr (hk1.mono (subset_append_left _ _)) hr, hk1⟩,
      fun h0 => absurd rfl h0, fun x s2 hx => ?_⟩
    rw [hrun] at hx
    cases hx
  | some x =>
    obtain ⟨entry, root, sz⟩ := x
    obtain ⟨rfl, t, hp⟩ := hr
    have hN := hp.space.n_le
    obtain rfl := hp.size
    rw [sat_bind, sat_onMem]
    refine (pushArgs_sat hp.space hargc hlen).imp ?_
    rintro r m2 ⟨h₂, hk2, hfit, hno⟩
    have hkeep := hk1.trans hk2
    by_cases hle : argSize argv ≤ pgSize
    · obtain ⟨rfl, hblk⟩ := hfit hle
      have hentry : (ElfHdr.decode (file.take elfhdrSize)).entry < 2 ^ 64 := leField_lt _ 24 8
      rw [sat_bind, sat_onMem]
      refine (commit_sat hold htf h₂ (hkeep.mono (subset_append_left _ _))
        (by unfold pgSize; omega) hentry).imp ?_
      rintro p' m3 ⟨rfl, h3, hsame, ha1, hsp, hepc, hrest, hfree⟩
      have huser : ∀ a, a / pgSize < npages (imageSz (loadHdrs file)) + 2 →
          m3.user t a = m2.user t a := fun a ha => user_of_same hsame ha
      refine sat_pure.mpr ⟨⟨hfs, fun x hx hne => (hrest x hx hne).trans (hkeep x (hin x hx))⟩,
        fun hneg => ?_, fun _ => ⟨rfl, hfree, t, rfl, rfl, h3, rfl, fun a ha => ?_, hp.flags, hle,
          ?_, ?_, ha1, hsp, hepc⟩, fun x s2 _ => ⟨fun hneg => ?_, fun hlt => by omega⟩⟩
      · simp only at hneg
        omega
      · have hua : UserAt t a := hp.space.userAt (by omega) (by omega)
        rw [huser a (by omega), hblk.changed.bytes a hua (.inl ?_), hp.bytes a ha]
        unfold pgSize at *
        omega
      · refine (userBytes_congr fun i hi => huser _ ?_).trans hblk.words
        have hr := (round16_le ((argv.length + 1) * 8)).1
        dsimp only
        unfold argSize pgSize at *
        omega
      · refine stringsAt_congr
          ((npages (imageSz (loadHdrs file)) + 2) * pgSize - strSize argv) hblk.strings ?_
          fun a _ hlt => huser a ?_
        · dsimp only
          unfold argSize pgSize at *
          omega
        · dsimp only at hlt
          unfold pgSize at *
          omega
      · simp only at hneg
        omega
    · rw [← npages_vpn (npages (imageSz (loadHdrs file)) + 2)] at h₂
      rw [hno (by omega), sat_bind, sat_onMem]
      refine (procFreepagetable_sat h₂).imp ?_
      rintro _ m3 ⟨ha3, hk3⟩
      refine sat_pure.mpr ⟨⟨hfs, fun x hx _ => (hkeep.trans hk3) x (hin x hx)⟩,
        fun _ => ⟨rfl, ?_, hkeep.trans hk3⟩, fun h0 => absurd rfl h0,
        fun _ _ _ => ⟨fun _ => by omega, fun _ => rfl⟩⟩
      exact hold.congr ((hkeep.trans hk3).mono (subset_append_left _ _)) ha3

lemma word_at {l : List Nat} {a : Nat}
    (h : m.userBytes t a (l.length * 8) = l.flatMap (Bytes.leBytes 8)) {i : Nat}
    (hi : i < l.length) : m.userBytes t (a + i * 8) 8 = Bytes.leBytes 8 (l.getD i 0) := by
  induction l generalizing a i with
  | nil => exact absurd hi (Nat.not_lt_zero i)
  | cons x l ih =>
    have hlen : (x :: l).length * 8 = 8 + l.length * 8 := by
      rw [length_cons]
      omega
    rw [hlen, userBytes_add, flatMap_cons] at h
    obtain ⟨h1, h2⟩ := append_inj h (by rw [userBytes_length, Bytes.leBytes_length])
    cases i with
    | zero => rwa [Nat.zero_mul, Nat.add_zero]
    | succ i =>
      have hnext : a + (i + 1) * 8 = a + 8 + i * 8 := by omega
      rw [hnext, getD_cons_succ]
      exact ih h2 (by rw [length_cons] at hi; omega)

lemma Executed.word {r : Int × ExecProc} (h : Executed K L p file argv r m t) {i : Nat}
    (hi : i ≤ argv.length) :
    m.userWord t (r.2.sz - argSize argv + i * 8) = (argPtrs r.2.sz argv ++ [0]).getD i 0 := by
  have hN := h.space.n_le
  have hsz := h.size
  have hlen : (argPtrs r.2.sz argv ++ [0]).length = argv.length + 1 := by simp
  have hw := h.words
  rw [← hlen] at hw
  have hlt : (argPtrs r.2.sz argv ++ [0]).getD i 0 < 2 ^ 64 := by
    rw [getD_eq_getElem _ _ (by omega)]
    rcases mem_append.mp (getElem_mem (by omega : i < (argPtrs r.2.sz argv ++ [0]).length)) with hm | hm
    · exact argPtrs_lt (by unfold pgSize at hsz; omega) _ hm
    · rw [mem_singleton.mp hm]
      decide
  rw [Mem.userWord, word_at hw (by omega), Bytes.leNat_leBytes]
  exact Nat.mod_eq_of_lt hlt

def elfFile : List UInt8 :=
  [0x7f, 0x45, 0x4c, 0x46] ++ List.replicate 28 0 ++ [64] ++ List.replicate 23 0 ++ [1] ++
    List.replicate 7 0 ++ ([1, 0, 0, 0, 5] ++ List.replicate 27 0 ++ [4] ++ List.replicate 7 0 ++
      [4] ++ List.replicate 15 0)

def elfCalls : List (Nat × Call) :=
  [(0, .open (some [47, 97]) 0x202), (0, .write 0 (kernelSrc elfFile) 120 120)]

def tinyProc : Kern Mem (Nat × Nat) := do
  match ← kalloc with
  | none => Kern.panic "kalloc"
  | some trapframe => do
    match ← procPagetable tinyKernel trapframe with
    | none => Kern.panic "proc_pagetable"
    | some pagetable => pure (trapframe, pagetable)

lemma tinyProc_sat : tinyProc.Sat (freshMem tinyKernel) (fun _ => True) fun r m' =>
    ∃ t, Space tinyKernel [r.1] m' r.2 r.1 (npages 0) 0 t := by
  unfold tinyProc
  refine (kalloc_sat (freshMem_acct tinyKernel)).bind ?_
  rintro r m1 ⟨ha, -, -⟩
  cases r with
  | none => exact sat_panic.mpr trivial
  | some tf =>
    have htf := mem_pool (ha.mem_pool (mem_cons_self ..))
    refine (procPagetable_sat (g := 0) ha htf.2.2).bind ?_
    rintro r m2 ⟨-, -, hr⟩
    cases r with
    | none => exact sat_panic.mpr trivial
    | some root => exact sat_pure.mpr hr

lemma elf_process : ∃ (s : ExecSys) (p : ExecProc) (told : Radix Nat 2) (node : FileNode)
    (x : Nat × Nat × Nat) (s₁ : ExecSys),
    Space tinyKernel [p.trapframe] s.mem p.pagetable p.trapframe (npages p.sz) 0 told ∧ FsInv s.fs ∧
    Xv6.Loaded 1 s.fs ∧
    s.fs.node (s.fs.itable 1).inum = some node ∧ node.bytes = elfFile ∧
    load tinyKernel p.trapframe 1 s = .ok (some x, s₁) := by
  have htest : (callsFromBoot elfCalls).any (fun t =>
      decide ((t.fs.itable 1).ref ≠ 0) && decide ((t.fs.itable 1).valid = true) &&
        decide ((t.fs.itable 1).din.size = 120) &&
      (match readi 1 kernelDst 0 120 t.fs with
        | .ok (r, _) => decide (r.2 = elfFile)
        | .error _ => false) &&
      match tinyProc (freshMem tinyKernel) with
      | .ok ((tf, _), m) =>
        match load tinyKernel tf 1 ⟨t.fs, m⟩ with
        | .ok (r, _) => r.isSome
        | .error _ => false
      | .error _ => false) = true := by
    decide +kernel
  obtain ⟨c, hc, htest⟩ := (Option.any_eq_true _ _).mp htest
  obtain ⟨hist, hreach⟩ := reach_of_calls hc
  simp only [Bool.and_eq_true, decide_eq_true_eq] at htest
  obtain ⟨⟨⟨⟨href, hvalid⟩, hsize⟩, hbytes⟩, hload⟩ := htest
  have hi := (sysMachine_inv rootImage_image hreach).run.inv
  have hip : Xv6.Loaded 1 c.fs := ⟨by decide, Nat.pos_of_ne_zero href, hvalid⟩
  obtain ⟨node, hn⟩ := Option.ne_none_iff_exists'.mp (hi.node_loaded hip).2
  obtain ⟨-, -, hsz⟩ := hi.node_type hip hn
  have hfile : node.bytes = elfFile := by
    rw [(hi.fileAt hip hn).read 0 120] at hbytes
    have hlen : node.bytes.length = 120 := by rw [FileNode.bytes_length, ← hsz, hsize]
    rw [hlen] at hbytes
    have hlen' : readLen 120 0 120 = 120 := by decide
    have hall : node.bytes.take 120 = elfFile := by simpa [hlen'] using hbytes
    rwa [take_of_length_le (by omega)] at hall
  cases hp : tinyProc (freshMem tinyKernel) with
  | error e =>
    rw [hp] at hload
    cases hload
  | ok r =>
    obtain ⟨⟨tf, root⟩, m⟩ := r
    obtain ⟨t, hs⟩ := tinyProc_sat.of_ok hp
    rw [hp] at hload
    simp only at hload
    cases hl : load tinyKernel tf 1 ⟨c.fs, m⟩ with
    | error e =>
      rw [hl] at hload
      cases hload
    | ok r =>
      obtain ⟨x, s₁⟩ := r
      rw [hl] at hload
      obtain ⟨y, rfl⟩ := Option.isSome_iff_exists.mp hload
      exact ⟨⟨c.fs, m⟩, ⟨root, 0, tf, []⟩, t, node, y, s₁, hs, hi, hip, hn, hfile, hl⟩

/-- A program that `exec` accepts is in memory as its file says: the `LOAD` segments in header
order over zeroed memory, the size before the stack is the largest end of a segment, and a
page has the flags of the first segment that reaches over it. -/
theorem exec_loads_image (path : List UInt8) (argv : List (List UInt8)) {node : FileNode}
    (hold : Space K L s.mem p.pagetable p.trapframe (npages p.sz) g told)
    (htf : p.trapframe ∈ L) (hi : FsInv s.fs) (hip : Xv6.Loaded ip s.fs)
    (hn : s.fs.node (s.fs.itable ip).inum = some node)
    (hargc : argv.length < maxarg) (hlen : ∀ a ∈ argv, a.length < 2 ^ 61) :
    ∃ r s', exec K p path ip argv s = .ok (r, s') ∧ (r.1 ≠ -1 → ∃ t,
      Space K L s'.mem r.2.pagetable p.trapframe (npages (imageSz (loadHdrs node.bytes)) + 2)
        (npages (imageSz (loadHdrs node.bytes))) t ∧
      r.2.sz = (npages (imageSz (loadHdrs node.bytes)) + 2) * pgSize ∧
      (∀ a, a / pgSize < npages (imageSz (loadHdrs node.bytes)) →
        s'.mem.user t a = imageOf node.bytes (loadHdrs node.bytes) a) ∧
      ∀ v < npages (imageSz (loadHdrs node.bytes)),
        pteFlags (t.val sv39 v) = pteR ||| pteU ||| pagePerm (loadHdrs node.bytes) v ||| pteV) := by
  obtain ⟨r, s', hrun, -, -, hok, -⟩ :=
    (exec_sat path argv (E := fun _ => False) hold htf (hi.fileAt hip hn) hargc hlen).returns
  refine ⟨r, s', hrun, fun hr => ?_⟩
  obtain ⟨-, -, t, he⟩ := hok hr
  exact ⟨t, he.space, he.size, he.bytes, he.flags⟩

theorem exec_loads_image_elf : ∃ (s : ExecSys) (p : ExecProc) (r : Int × ExecProc) (s' : ExecSys)
    (t : Radix Nat 2),
    exec tinyKernel p [97] 1 [] s = .ok (r, s') ∧ r.1 ≠ -1 ∧ s'.mem.user t 0 = 0x7f := by
  obtain ⟨s, p, told, node, x, s₁, hs, hi, hip, hn, hfile, hl⟩ := elf_process
  obtain ⟨r, s', hrun, hok⟩ :=
    exec_loads_image [97] [] hs (mem_singleton_self _) hi hip hn (by decide) nofun
  have hsat : (exec tinyKernel p [97] 1 []).Sat s (fun _ => False) _ :=
    exec_sat [97] [] hs (mem_singleton_self _) (hi.fileAt hip hn) (by decide) nofun
  have hr : r.1 ≠ -1 := fun h => absurd (((hsat.of_ok hrun).2.2.2 x s₁ hl).mp h) (by decide)
  obtain ⟨t, -, -, hbytes, -⟩ := hok hr
  rw [hfile] at hbytes
  refine ⟨s, p, r, s', t, hrun, hr, ?_⟩
  rw [hbytes 0 (by decide)]
  decide

/-- The argument block of a program that `exec` accepts: `argc` strings, the array of pointers to
them with a last 0 at `sp = a1`, all in the stack page and apart from each other. Once the
image is loaded, `exec` fails exactly when the aligned sizes do not fit in the page. -/
theorem exec_args_decode (path : List UInt8) (argv : List (List UInt8)) {node : FileNode}
    (hold : Space K L s.mem p.pagetable p.trapframe (npages p.sz) g told)
    (htf : p.trapframe ∈ L) (hi : FsInv s.fs) (hip : Xv6.Loaded ip s.fs)
    (hn : s.fs.node (s.fs.itable ip).inum = some node)
    (hargc : argv.length < maxarg) (hlen : ∀ a ∈ argv, a.length < 2 ^ 61) :
    ∃ r s', exec K p path ip argv s = .ok (r, s') ∧ (r.1 ≠ -1 → r.1 = argv.length ∧ ∃ t sp,
      UserTable s'.mem r.2.pagetable t ∧ (s'.mem.page r.2.trapframe).field trapframeA1 8 = sp ∧
      (s'.mem.page r.2.trapframe).field trapframeSp 8 = sp ∧ sp % 16 = 0 ∧ sp + argSize argv = r.2.sz ∧
      (∀ i < argv.length, s'.mem.userWord t (sp + i * 8) = (argPtrs r.2.sz argv).getD i 0) ∧
      s'.mem.userWord t (sp + argv.length * 8) = 0 ∧ StringsAt t s'.mem (argPtrs r.2.sz argv) argv ∧
      ((sp, (argv.length + 1) * 8) :: (argRanges r.2.sz argv).reverse).Pairwise (fun x y =>
        x.1 + x.2 ≤ y.1) ∧
      ∀ x ∈ (sp, (argv.length + 1) * 8) :: (argRanges r.2.sz argv).reverse,
        r.2.sz - pgSize ≤ x.1 ∧ x.1 + x.2 ≤ r.2.sz ∧ ∀ a, x.1 ≤ a → a < x.1 + x.2 → UserAt t a) ∧
    ∀ x s₁, load K p.trapframe ip s = .ok (some x, s₁) → (r.1 = -1 ↔ pgSize < argSize argv) := by
  obtain ⟨r, s', hrun, -, -, hok, hiff⟩ :=
    (exec_sat path argv (E := fun _ => False) hold htf (hi.fileAt hip hn) hargc hlen).returns
  refine ⟨r, s', hrun, fun hr => ?_, hiff⟩
  obtain ⟨-, -, t, he⟩ := hok hr
  have hsz := he.size
  have hfits := he.fits
  have hmod := strSize_mod argv
  have hround := round16_le ((argv.length + 1) * 8)
  have hstr : strSize argv + round16 ((argv.length + 1) * 8) = argSize argv := rfl
  have hpg : pgSize ≤ r.2.sz ∧ r.2.sz % 16 = 0 := by
    rw [hsz]
    unfold pgSize
    omega
  have hwithin := argRanges_within r.2.sz argv (by omega)
  refine ⟨he.argc, t, r.2.sz - argSize argv, he.space.userTable, ?_, ?_, by omega, by omega,
    fun i hi => ?_, ?_, he.strings, ?_, fun x hx => ?_⟩
  · rw [he.frame, he.a1]
  · rw [he.frame, he.sp]
  · rw [he.word (by omega), getD_append _ _ _ _ (by simpa using hi)]
  · rw [he.word le_rfl, getD_append_right _ _ _ _ (by simp)]
    simp
  · refine List.Pairwise.cons (fun y hy => ?_)
      (pairwise_reverse.mpr (argRanges_disjoint _ _ (by omega)))
    have hy' := hwithin y (mem_reverse.mp hy)
    simp only
    omega
  · have hx' : r.2.sz - pgSize ≤ x.1 ∧ x.1 + x.2 ≤ r.2.sz := by
      rcases mem_cons.mp hx with rfl | hx
      · simp only
        omega
      · have h' := hwithin x (mem_reverse.mp hx)
        omega
    refine ⟨hx'.1, hx'.2, fun a hlo hhi => he.space.userAt ?_ ?_⟩
    all_goals
      rw [hsz] at hx'
      unfold pgSize at *
      omega

theorem exec_args_decode_elf :
    ∃ (s : ExecSys) (p : ExecProc) (r : Int × ExecProc) (s' : ExecSys) (t : Radix Nat 2),
      exec tinyKernel p [97] 1 [[120], [121, 122]] s = .ok (r, s') ∧ r.1 = 2 ∧
      StringsAt t s'.mem (argPtrs r.2.sz [[120], [121, 122]]) [[120], [121, 122]] := by
  obtain ⟨s, p, told, node, x, s₁, hs, hi, hip, hn, -, hl⟩ := elf_process
  obtain ⟨r, s', hrun, hok, hiff⟩ := exec_args_decode [97] [[120], [121, 122]] hs
    (mem_singleton_self _) hi hip hn (by decide) (by simp)
  have hr : r.1 ≠ -1 := fun h => absurd ((hiff x s₁ hl).mp h) (by decide)
  obtain ⟨hargc, t, sp, -, -, -, -, -, -, -, hstrings, -⟩ := hok hr
  exact ⟨s, p, r, s', t, hrun, hargc, hstrings⟩

/-- `exec` does not panic, whatever the file holds. If it fails, the process, its memory and the
number of free pages are what they were. If not, the process has the new image, as `Executed`
says, and every page of the old one is free. -/
theorem exec_atomic (path : List UInt8) (argv : List (List UInt8)) {node : FileNode}
    (hold : Space K L s.mem p.pagetable p.trapframe (npages p.sz) g told) (htf : p.trapframe ∈ L)
    (hi : FsInv s.fs) (hip : Xv6.Loaded ip s.fs) (hn : s.fs.node (s.fs.itable ip).inum = some node)
    (hargc : argv.length < maxarg) (hlen : ∀ a ∈ argv, a.length < 2 ^ 61) :
    ∃ r s', exec K p path ip argv s = .ok (r, s') ∧ s'.fs = s.fs ∧
      (∀ x ∈ L, x ≠ p.trapframe → s'.mem.page x = s.mem.page x) ∧
      (r.1 = -1 → r.2 = p ∧ s'.mem.freelist.length = s.mem.freelist.length ∧
        Space K L s'.mem p.pagetable p.trapframe (npages p.sz) g told ∧
        Keeps (told.pages sv39 ++ (users told 0 (npages p.sz) ++ L)) s.mem s'.mem) ∧
      (r.1 ≠ -1 →
        r.2 = { p with pagetable := r.2.pagetable, sz := r.2.sz, name := progName path } ∧
        (∀ x ∈ told.pages sv39 ++ users told 0 (npages p.sz), x ∈ s'.mem.freelist) ∧
        ∃ t, Executed K L p node.bytes argv r s'.mem t) := by
  obtain ⟨r, s', hrun, ⟨hfs, hrest⟩, hno, hyes, -⟩ :=
    (exec_sat path argv (E := fun _ => False) hold htf (hi.fileAt hip hn) hargc hlen).returns
  refine ⟨r, s', hrun, hfs, hrest, fun hr => ?_, hyes⟩
  obtain ⟨hp, hs, hk⟩ := hno hr
  have hlen := (hs.acct.trans hold.acct.symm).length_eq
  simp only [length_append] at hlen
  exact ⟨hp, by omega, hs, hk⟩

theorem exec_atomic_elf :
    ∃ (s : ExecSys) (p : ExecProc) (r : Int × ExecProc) (s' : ExecSys) (t : Radix Nat 2),
      exec tinyKernel p [97] 1 [] s = .ok (r, s') ∧ r.1 = 0 ∧ p.pagetable ∈ s'.mem.freelist ∧
      s'.mem.user t 0 = 0x7f := by
  obtain ⟨s, p, told, node, x, s₁, hs, hi, hip, hn, hfile, hl⟩ := elf_process
  obtain ⟨r, s', hrun, -, -, -, hyes⟩ :=
    exec_atomic [97] [] hs (mem_singleton_self _) hi hip hn (by decide) (by simp)
  have hsat : (exec tinyKernel p [97] 1 []).Sat s (fun _ => False) _ :=
    exec_sat [97] [] hs (mem_singleton_self _) (hi.fileAt hip hn) (by decide) nofun
  have hr : r.1 ≠ -1 := fun h => absurd (((hsat.of_ok hrun).2.2.2 x s₁ hl).mp h) (by decide)
  obtain ⟨-, hfree, t, he⟩ := hyes hr
  have hbytes := he.bytes
  rw [hfile] at hbytes
  refine ⟨s, p, r, s', t, hrun, he.argc, ?_, ?_⟩
  · exact hfree _ (mem_append_left _ (Radix.root_mem_pages hs.root))
  · rw [hbytes 0 (by decide)]
    decide

end

end ExecSys

end Xv6
