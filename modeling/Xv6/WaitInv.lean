import Xv6.WaitModel

/-! What the sections of `fork`, `exit`, `wait` and `kill` do to the process table, and what
holds between any two of them: a child has a living parent, and `wait_lock` keeps `reparent`,
`wakeup(p->parent)` and the scan of `wait` apart. -/

namespace Xv6

open WaitSys
open Function (update_of_ne update_self)

/-- A section that changes nothing but where `p` is. -/
inductive WaitMove (n : Nat) (s : WaitSys) (p : Nat) : WaitPc → WaitPc → Prop
  | fork : WaitMove n s p .code (.forkScan 0)
  | exit {st : Int32} (hp : p ≠ initproc) : WaitMove n s p .code (.exitLock st)
  | wait {addr : Nat} : WaitMove n s p .code (.waitLock addr)
  | kill {pid : Int32} : WaitMove n s p .code (.killScan pid 0)
  | forkNext {i : Nat} : WaitMove n s p (.forkScan i) (.forkScan (i + 1))
  | forkEnd {i : Nat} : WaitMove n s p (.forkScan i) .code
  | reparentNext {st : Int32} {i : Nat} (hi : (s.proc i).parent ≠ some p) :
      WaitMove n s p (.reparent st i) (.reparent st (i + 1))
  | reparentEnd {st : Int32} {i : Nat} (hi : n ≤ i) :
      WaitMove n s p (.reparent st i) (.wakeParent st (s.proc p).parent 0)
  | wokeInit {st : Int32} {i j : Nat} (hj : n ≤ j) :
      WaitMove n s p (.wakeInit st i j) (.reparent st (i + 1))
  | wokeParent {st : Int32} {r : Option Nat} {j : Nat} (hj : n ≤ j) :
      WaitMove n s p (.wakeParent st r j) (.exitZombie st)
  | waitNext {addr i : Nat} {k k' : Bool}
      (hi : (s.proc i).parent = some p → (s.proc i).state ≠ .zombie) :
      WaitMove n s p (.waitScan addr i k) (.waitScan addr (i + 1) k')
  | waitEnd {addr i : Nat} {k : Bool} (hi : n ≤ i) :
      WaitMove n s p (.waitScan addr i k) (.waitSleep addr)
  | killNext {pid : Int32} {i : Nat} : WaitMove n s p (.killScan pid i) (.killScan pid (i + 1))
  | killEnd {pid : Int32} {i : Nat} : WaitMove n s p (.killScan pid i) .code

/-- Steps that acquire `wait_lock`. -/
inductive WaitLocks : WaitPc → WaitPc → Prop
  | exit {st : Int32} : WaitLocks (.exitLock st) (.reparent st 0)
  | wait {addr : Nat} : WaitLocks (.waitLock addr) (.waitScan addr 0 false)

inductive WaitWakes (j : Nat) : WaitPc → Option Nat → WaitPc → Prop
  | init {st : Int32} {i : Nat} :
      WaitWakes j (.wakeInit st i j) (some initproc) (.wakeInit st i (j + 1))
  | parent {st : Int32} {r : Option Nat} : WaitWakes j (.wakeParent st r j) r (.wakeParent st r (j + 1))

/-- The steps of the process `p`, one constructor for each kind of section. -/
inductive WaitStep (n : Nat) (s : WaitSys) (p : Nat) : WaitSys → List WaitEvent → Prop
  | run (hr : (s.proc p).state = .runnable) (hp : ∀ a, s.pc p ≠ .waitDoze a) :
      WaitStep n s p (s.setState p .running) []
  | resume {addr : Nat} (hr : (s.proc p).state = .runnable) (hp : s.pc p = .waitDoze addr) :
      WaitStep n s p
        ((s.setProc p { s.proc p with state := .running, chan := none }).setPc p (.waitLock addr)) []
  | yield (hr : (s.proc p).state = .running) (hl : s.waitLock ≠ some p) :
      WaitStep n s p (s.setState p .runnable) []
  | move {x y : WaitPc} (hr : (s.proc p).state = .running) (hp : s.pc p = y)
      (hm : WaitMove n s p y x) : WaitStep n s p (s.setPc p x) []
  | lock {x y : WaitPc} (hr : (s.proc p).state = .running) (hp : s.pc p = y)
      (hl : s.waitLock = none) (hx : WaitLocks y x) :
      WaitStep n s p ((s.setPc p x).setLock (some p)) []
  | alloc {i : Nat} (hr : (s.proc p).state = .running) (hp : s.pc p = .forkScan i) (hi : i < n)
      (hu : (s.proc i).state = .unused) :
      WaitStep n s p ((s.allocproc i).setPc p (.forkParent i)) [.forked (s.life p) s.lives]
  | allocFail {i : Nat} (hr : (s.proc p).state = .running) (hp : s.pc p = .forkScan i)
      (hu : (s.proc i).state = .unused) : WaitStep n s p ((s.allocFail i).setPc p .code) []
  | adopt {i : Nat} (hr : (s.proc p).state = .running) (hp : s.pc p = .forkParent i)
      (hl : s.waitLock = none) : WaitStep n s p ((s.setParent i p).setPc p (.forkRun i)) []
  | start {i : Nat} (hr : (s.proc p).state = .running) (hp : s.pc p = .forkRun i) :
      WaitStep n s p ((s.setState i .runnable).setPc p .code) []
  | orphan {st : Int32} {i : Nat} (hr : (s.proc p).state = .running) (hp : s.pc p = .reparent st i)
      (hc : (s.proc i).parent = some p) :
      WaitStep n s p ((s.setParent i initproc).setPc p (.wakeInit st i 0)) []
  | wake {j : Nat} {r : Option Nat} {x y : WaitPc} (hr : (s.proc p).state = .running)
      (hp : s.pc p = y) (hx : WaitWakes j y r x) : WaitStep n s p ((s.wake p r j).setPc p x) []
  | zombie {st : Int32} (hr : (s.proc p).state = .running) (hp : s.pc p = .exitZombie st) :
      WaitStep n s p
      (((s.setProc p { s.proc p with xstate := st, state := .zombie }).setPc p .code).setLock none)
        [.exited (s.life p) (s.proc p).pid st]
  | fail {addr i : Nat} {k : Bool} (hr : (s.proc p).state = .running)
      (hp : s.pc p = .waitScan addr i k) :
      WaitStep n s p ((s.setPc p .code).setLock none) [.waitFailed p]
  | reap {addr i : Nat} {k : Bool} (hr : (s.proc p).state = .running) (hp : s.pc p = .waitScan addr i k)
      (hc : (s.proc i).parent = some p) (hz : (s.proc i).state = .zombie) :
      WaitStep n s p (((s.setProc i .free).setPc p .code).setLock none)
        [.reaped p (s.life p) (s.life i) (s.proc i).pid addr (statusOut addr (s.proc i).xstate)]
  | sleep {addr : Nat} (hr : (s.proc p).state = .running) (hp : s.pc p = .waitSleep addr) :
      WaitStep n s p (((s.setProc p { s.proc p with chan := some p, state := .sleeping }).setPc p
        (.waitDoze addr)).setLock none) []
  | kill {pid : Int32} {i : Nat} (hr : (s.proc p).state = .running)
      (hp : s.pc p = .killScan pid i) : WaitStep n s p ((s.killSlot i).setPc p .code) []

section

variable {n : Nat} {s s' : WaitSys} {p q c : Nat} {x y : WaitPc} {out : List WaitEvent}

variable {a m j i : Nat} {r l : Option Nat}

@[simp] lemma WaitSys.setPc_pc_self : (s.setPc p x).pc p = x := update_self ..

lemma WaitSys.setPc_pc_of_ne (h : q ≠ p) : (s.setPc p x).pc q = s.pc q := update_of_ne h ..

@[simp] lemma WaitSys.setLock_life : (s.setLock l).life = s.life := rfl

@[simp] lemma WaitSys.setProc_life {z : Slot} : (s.setProc i z).life = s.life := rfl

@[simp] lemma WaitSys.setProc_pc {y : Slot} : (s.setProc i y).pc = s.pc := rfl

@[simp] lemma WaitSys.setProc_waitLock {y : Slot} : (s.setProc i y).waitLock = s.waitLock := rfl

@[simp] lemma WaitSys.setProc_self {y : Slot} : (s.setProc i y).proc i = y := update_self ..

lemma WaitSys.setProc_of_ne {y : Slot} (h : c ≠ i) : (s.setProc i y).proc c = s.proc c :=
  update_of_ne h ..

@[simp] lemma WaitSys.wake_pc : (s.wake p r j).pc = s.pc := by
  unfold WaitSys.wake
  split_ifs <;> rfl

lemma goWait_cases {ok : Bool} (hr : (s.proc p).state = .running)
    (h : goWait n s p ok = some (s', out)) : WaitStep n s p s' out := by
  unfold goWait at h
  split at h
  next => cases h
  next => cases h
  next i hp =>
    unfold forkStep at h
    split_ifs at h with hi hu hk <;> cases h
    · exact .alloc hr hp hi hu
    · exact .allocFail hr hp hu
    · exact .move hr hp .forkNext
    · exact .move hr hp .forkEnd
  next i hp =>
    split_ifs at h with hl
    cases h
    exact .adopt hr hp hl
  next i hp =>
    cases h
    exact .start hr hp
  next st hp =>
    split_ifs at h with hl
    cases h
    exact .lock hr hp hl .exit
  next st i hp =>
    cases h
    unfold reparentStep
    split_ifs with hi hc
    · exact .orphan hr hp hc
    · exact .move hr hp (.reparentNext hc)
    · exact .move hr hp (.reparentEnd (Nat.le_of_not_lt hi))
  next st i j hp =>
    split_ifs at h with hj <;> cases h
    · exact .wake hr hp .init
    · exact .move hr hp (.wokeInit (Nat.le_of_not_lt hj))
  next st r j hp =>
    split_ifs at h with hj <;> cases h
    · exact .wake hr hp .parent
    · exact .move hr hp (.wokeParent (Nat.le_of_not_lt hj))
  next st hp =>
    cases h
    exact .zombie hr hp
  next addr hp =>
    split_ifs at h with hl
    cases h
    exact .lock hr hp hl .wait
  next addr i k hp =>
    unfold waitStep at h
    split_ifs at h with hi hc hz ha hk <;> cases h
    · exact .fail hr hp
    · exact .reap hr hp hc hz
    · exact .move hr hp (.waitNext fun _ => hz)
    · exact .move hr hp (.waitNext fun h => absurd h hc)
    · exact .fail hr hp
    · exact .move hr hp (.waitEnd (Nat.le_of_not_lt hi))
  next addr hp =>
    cases h
    exact .sleep hr hp
  next pid i hp =>
    split_ifs at h with hi hc <;> cases h
    · exact .kill hr hp
    · exact .move hr hp .killNext
    · exact .move hr hp .killEnd

lemma WaitStep.pc_of_ne (h : WaitStep n s p s' out) (hq : q ≠ p) : s'.pc q = s.pc q := by
  cases h with
  | run => rfl
  | yield => rfl
  | wake hr hp hx => exact (update_of_ne hq ..).trans (congrFun wake_pc q)
  | _ => exact update_of_ne hq ..

end

end Xv6
