/-
**Writing to one file under a record lock.**

* `setlk` — `fcntl` for a lock of the whole file that is exclusive between processes.
* `Writer`, `lockExec` — `writeToFileLock` step by step, for any number of processes; the lock
  description `lock` is a variable of each of them.
* `RecordsLocked` — who is between its two calls holds the lock, so no two processes are.
* `FirstLock` — a call that succeeds asks for a write lock; `lType_iff` — this is so until the process
  has written its first record.
* **`records_locked_runs`** — the records are locked in every run whose steps meet this, and the first
  step that does not breaks it.
* `second_record_unlocked` — with two iterations two processes get between their calls.
-/

import Mathlib.Data.Nat.Notation
import Mathlib.Logic.Function.Basic
import Aple.Lib.Reach

namespace Aple.Process

open Aple.Lib

/-! ### The lock -/

/-- `F_WRLCK` and `F_UNLCK`. -/
inductive LockType
  | wrlck | unlck
deriving DecidableEq, Repr

variable {Process : Type} [DecidableEq Process]

/-- What a successful `fcntl` makes of the owner; `none` while another process has the lock. -/
def setlk (p : Process) (owner : Option Process) : LockType → Option (Option Process)
  | .wrlck => if owner = none ∨ owner = some p then some (some p) else none
  | .unlck => some (if owner = some p then none else owner)

/-! ### The writers -/

/-- `WRITE_COUNTS` and `MAX_WRITE_BYTES`. -/
structure WriteConfig where
  writeCounts : ℕ
  maxWriteBytes : ℕ

/-- The call a process makes next, in iteration `i`. -/
inductive Point
  | locking (i : ℕ)
  | formatting (i j : ℕ)
  | newline (i : ℕ)
  | flushing (i : ℕ)
  | unlocking (i : ℕ)
  | exited
deriving DecidableEq, Repr

/-- Behind a successful `F_SETLKW` and in front of the `F_SETLK`. -/
def Point.Between : Point → Prop
  | .locking _ | .exited => False
  | .formatting _ _ | .newline _ | .flushing _ | .unlocking _ => True

/-- A process: `lock.l_type`, where it is, and how many iterations wrote a record. -/
structure Writer where
  lType : LockType
  point : Point
  records : ℕ

/-- The end of an iteration with a record, where `lock.l_type` is `F_UNLCK`. -/
def Writer.next (w : Writer) (i : ℕ) : Writer := ⟨.unlck, .locking (i + 1), w.records + 1⟩

structure FileState (Process : Type) where
  owner : Option Process
  writers : Process → Writer

/-- A process goes on, or its `fcntl` fails. -/
inductive LockEvent (Process : Type)
  | goes (p : Process)
  | fails (p : Process)

def FileState.move (s : FileState Process) (p : Process) (w : Writer) : FileState Process :=
  { s with writers := Function.update s.writers p w }

variable (cfg : WriteConfig)

/-- One step of `writeToFileLock`. -/
def lockExec (s : FileState Process) : LockEvent Process → Option (FileState Process)
  | .goes p =>
    let w := s.writers p
    match w.point with
    | .locking i =>
      if i < cfg.writeCounts then
        (setlk p s.owner w.lType).map fun owner =>
          { s with owner := owner }.move p { w with point := .formatting i 0 }
      else
        -- the function returns, and the locks go with the process
        some ({ s with owner := if s.owner = some p then none else s.owner }.move p
          { w with point := .exited })
    | .formatting i j =>
      some (s.move p { w with
        point := if j < cfg.maxWriteBytes - 1 then .formatting i (j + 1) else .newline i })
    | .newline i => some (s.move p { w with point := .flushing i })
    | .flushing i => some (s.move p { w with point := .unlocking i })
    | .unlocking i =>
      -- `lock.l_type = F_UNLCK`, and the `F_SETLK`
      (setlk p s.owner .unlck).map fun owner => { s with owner := owner }.move p (w.next i)
    | .exited => none
  | .fails p =>
    let w := s.writers p
    match w.point with
    | .locking i =>
      if i < cfg.writeCounts then some (s.move p { w with point := .locking (i + 1) }) else none
    | .unlocking i => some (s.move p (w.next i))
    | _ => none

/-- Nobody holds the lock, and every process is in front of the loop. -/
def FileState.initial : FileState Process := ⟨none, fun _ => ⟨.wrlck, .locking 0, 0⟩⟩

/-- Every interleaving. -/
def lockSystem (Process : Type) [DecidableEq Process] :
    System (FileState Process) (LockEvent Process) where
  init s := s = .initial
  step s event after := lockExec cfg s event = some after

/-! ### What should hold -/

/-- **Mutual exclusion**, and that the lock is held. -/
structure RecordsLocked (s : FileState Process) : Prop where
  alone : ∀ p q, (s.writers p).point.Between → (s.writers q).point.Between → p = q
  owns : ∀ p, (s.writers p).point.Between → s.owner = some p

/-- An `F_SETLKW` that succeeds is made with `F_WRLCK`. -/
def FirstLock (s : FileState Process) : LockEvent Process → Prop
  | .goes p => ∀ i, (s.writers p).point = .locking i → i < cfg.writeCounts →
    (s.writers p).lType = .wrlck
  | .fails _ => True

section

variable {cfg} {s after : FileState Process} {p : Process}

omit [DecidableEq Process] in
/-- Who holds the lock is alone. -/
theorem RecordsLocked.of_owns (owns : ∀ p, (s.writers p).point.Between → s.owner = some p) :
    RecordsLocked s where
  alone p q mine theirs := Option.some.inj ((owns p mine).symm.trans (owns q theirs))
  owns := owns

/-- The owner when a process has given up its lock. -/
def released (p : Process) (owner : Option Process) : Option Process :=
  if owner = some p then none else owner

theorem released_of_ne {q : Process} {owner : Option Process} (theirs : owner = some q)
    (differs : q ≠ p) : released p owner = some q := by
  rw [released, theirs, if_neg fun same => differs (Option.some.inj same)]

theorem released_ne (owner : Option Process) : released p owner ≠ some p := by
  unfold released
  split
  · nofun
  · assumption

/-- What a step can do: a process gets between its calls with the lock or without it, stays there,
or is outside afterwards. -/
inductive LockStep (cfg : WriteConfig) (s : FileState Process) (p : Process) :
    Option Process → Writer → Prop
  | acquires {w : Writer} : (s.writers p).lType = .wrlck → s.owner = none ∨ s.owner = some p →
      w.point.Between → LockStep cfg s p (some p) w
  | passes {w : Writer} {i : ℕ} : (s.writers p).point = .locking i → i < cfg.writeCounts →
      (s.writers p).lType = .unlck → w.point.Between → LockStep cfg s p (released p s.owner) w
  | stays {w : Writer} : (s.writers p).point.Between → LockStep cfg s p s.owner w
  | outside {owner : Option Process} {w : Writer} : ¬ w.point.Between →
      owner = s.owner ∨ owner = released p s.owner → LockStep cfg s p owner w

/-- **A step of a process.** -/
theorem lockExec_goes (runs : lockExec cfg s (.goes p) = some after) :
    ∃ owner w, after = ({ s with owner := owner } : FileState Process).move p w ∧
      LockStep cfg s p owner w := by
  simp only [lockExec] at runs
  cases here : (s.writers p).point with
  | locking i =>
    rw [here] at runs
    by_cases more : i < cfg.writeCounts
    · simp only [if_pos more] at runs
      obtain ⟨owner, locks, rfl⟩ := Option.map_eq_some_iff.mp runs
      refine ⟨owner, _, rfl, ?_⟩
      cases type : (s.writers p).lType with
      | wrlck =>
        rw [type, setlk] at locks
        obtain ⟨free, mine⟩ := Option.ite_none_right_eq_some.mp locks
        rw [← Option.some.inj mine]
        exact .acquires type free trivial
      | unlck =>
        rw [type] at locks
        rw [← Option.some.inj locks]
        exact .passes here more type trivial
    · simp only [if_neg more] at runs
      exact ⟨_, _, (Option.some.inj runs).symm, .outside id (.inr rfl)⟩
  | formatting i j =>
    rw [here] at runs
    exact ⟨s.owner, _, (Option.some.inj runs).symm, .stays (here ▸ trivial)⟩
  | newline i =>
    rw [here] at runs
    exact ⟨s.owner, _, (Option.some.inj runs).symm, .stays (here ▸ trivial)⟩
  | flushing i =>
    rw [here] at runs
    exact ⟨s.owner, _, (Option.some.inj runs).symm, .stays (here ▸ trivial)⟩
  | unlocking i =>
    rw [here] at runs
    exact ⟨_, _, (Option.some.inj runs).symm, .outside id (.inr rfl)⟩
  | exited =>
    rw [here] at runs
    cases runs

/-- A failing call leaves the process outside, or in front of the next iteration. -/
theorem lockExec_fails (runs : lockExec cfg s (.fails p) = some after) :
    ∃ w, after = s.move p w ∧ ¬ w.point.Between := by
  simp only [lockExec] at runs
  cases here : (s.writers p).point with
  | locking i =>
    rw [here] at runs
    obtain ⟨-, same⟩ := Option.ite_none_right_eq_some.mp runs
    exact ⟨_, (Option.some.inj same).symm, id⟩
  | unlocking i =>
    rw [here] at runs
    exact ⟨_, (Option.some.inj runs).symm, id⟩
  | formatting i j | newline i | flushing i | exited =>
    rw [here] at runs
    cases runs

/-- **A step** of a process that holds the lock whenever it has to, and what the others see. -/
theorem LockStep.owns {owner : Option Process} {w : Writer} (step : LockStep cfg s p owner w)
    (locked : RecordsLocked s)
    (first : ∀ i, (s.writers p).point = .locking i → i < cfg.writeCounts →
      (s.writers p).lType = .wrlck) :
    RecordsLocked (({ s with owner := owner } : FileState Process).move p w) := by
  refine .of_owns ((Function.forall_update_iff s.writers fun q w => w.point.Between →
    owner = some q).mpr ⟨?_, fun q differs between => ?_⟩)
  · intro between
    cases step with
    | acquires => rfl
    | passes here more type =>
      rw [first _ here more] at type
      cases type
    | stays inside => exact locked.owns p inside
    | outside left => exact absurd between left
  · have theirs := locked.owns q between
    cases step with
    | acquires _ free =>
      rcases free with none_has | mine
      · rw [none_has] at theirs
        cases theirs
      · exact mine.symm.trans theirs
    | passes => exact released_of_ne theirs differs
    | stays => exact theirs
    | outside _ kept =>
      rcases kept with rfl | rfl
      · exact theirs
      · exact released_of_ne theirs differs

/-- **The step that breaks it**: a process gets between its calls and has no lock. -/
theorem not_locked_of_passes {i : ℕ} (here : (s.writers p).point = .locking i)
    (more : i < cfg.writeCounts) (type : (s.writers p).lType = .unlck)
    (runs : lockExec cfg s (.goes p) = some after) : ¬ RecordsLocked after := by
  simp only [lockExec, here, if_pos more, type] at runs
  rw [← Option.some.inj runs]
  intro locked
  have own := locked.owns p
  simp only [FileState.move, Function.update_self] at own
  exact released_ne s.owner (own trivial)

/-! ### Runs -/

/-- A step leaves the type of every lock as it is, or it ends an iteration with a record. -/
theorem lockExec_types {event : LockEvent Process} (runs : lockExec cfg s event = some after) :
    ∃ owner q w, after = ({ s with owner := owner } : FileState Process).move q w ∧
      ((w.lType = (s.writers q).lType ∧ w.records = (s.writers q).records) ∨
        w.lType = .unlck ∧ w.records = (s.writers q).records + 1) := by
  cases event with
  | goes p =>
    simp only [lockExec] at runs
    cases here : (s.writers p).point with
    | locking i =>
      rw [here] at runs
      by_cases more : i < cfg.writeCounts
      · simp only [if_pos more] at runs
        obtain ⟨owner, -, rfl⟩ := Option.map_eq_some_iff.mp runs
        exact ⟨owner, p, _, rfl, .inl ⟨rfl, rfl⟩⟩
      · simp only [if_neg more] at runs
        exact ⟨_, p, _, (Option.some.inj runs).symm, .inl ⟨rfl, rfl⟩⟩
    | formatting i j | newline i | flushing i =>
      rw [here] at runs
      exact ⟨s.owner, p, _, (Option.some.inj runs).symm, .inl ⟨rfl, rfl⟩⟩
    | unlocking i =>
      rw [here] at runs
      exact ⟨_, p, _, (Option.some.inj runs).symm, .inr ⟨rfl, rfl⟩⟩
    | exited =>
      rw [here] at runs
      cases runs
  | fails p =>
    simp only [lockExec] at runs
    cases here : (s.writers p).point with
    | locking i =>
      rw [here] at runs
      obtain ⟨-, same⟩ := Option.ite_none_right_eq_some.mp runs
      exact ⟨s.owner, p, _, (Option.some.inj same).symm, .inl ⟨rfl, rfl⟩⟩
    | unlocking i =>
      rw [here] at runs
      exact ⟨s.owner, p, _, (Option.some.inj runs).symm, .inr ⟨rfl, rfl⟩⟩
    | formatting i j | newline i | flushing i | exited =>
      rw [here] at runs
      cases runs

/-- **A process asks for a write lock** until it has written its first record, and never again. -/
theorem lType_iff (reached : (lockSystem cfg Process).Reachable s) :
    ∀ p, (s.writers p).lType = .wrlck ↔ (s.writers p).records = 0 := by
  refine reached.invariant (fun s => ∀ p, (s.writers p).lType = .wrlck ↔ (s.writers p).records = 0)
    ?_ ?_
  · rintro _ rfl p
    exact iff_of_true rfl rfl
  · intro s event after _ before _ runs
    obtain ⟨owner, q, w, rfl, types⟩ := lockExec_types runs
    refine (Function.forall_update_iff s.writers fun _ w => w.lType = .wrlck ↔ w.records = 0).mpr
      ⟨?_, fun p _ => before p⟩
    rcases types with ⟨type, records⟩ | ⟨type, records⟩
    · rw [type, records]
      exact before q
    · rw [type, records]
      exact iff_of_false nofun (Nat.succ_ne_zero _)

/-- A step keeps the records locked if and only if it meets the condition. -/
theorem records_locked_step {event : LockEvent Process} (locked : RecordsLocked s)
    (runs : lockExec cfg s event = some after) : RecordsLocked after ↔ FirstLock cfg s event := by
  cases event with
  | goes p =>
    constructor
    · intro still i here more
      cases type : (s.writers p).lType with
      | wrlck => rfl
      | unlck => exact absurd still (not_locked_of_passes here more type runs)
    · intro first
      obtain ⟨owner, w, rfl, step⟩ := lockExec_goes runs
      exact step.owns locked first
  | fails p =>
    refine iff_of_true ?_ trivial
    obtain ⟨w, rfl, left⟩ := lockExec_fails runs
    refine .of_owns ((Function.forall_update_iff s.writers fun q w => w.point.Between →
      s.owner = some q).mpr ⟨fun between => absurd between left, fun q _ => locked.owns q⟩)

end

/-- **The records are locked** in every state of a run whose steps meet the condition; a step from
there that does not meet it breaks this. -/
theorem records_locked_runs (cfg : WriteConfig) {s : FileState Process}
    (reached : (lockSystem cfg Process).ReachableBy (FirstLock cfg) s) :
    RecordsLocked s ∧ ∀ event after, lockExec cfg s event = some after →
      (RecordsLocked after ↔ FirstLock cfg s event) := by
  have locked : RecordsLocked s := by
    refine reached.invariant RecordsLocked ?_ ?_
    · rintro _ rfl
      exact .of_owns fun _ between => between.elim
    · intro s event after _ before first runs
      exact (records_locked_step before runs).mpr first
  exact ⟨locked, fun event after => records_locked_step locked⟩

/-- With ten processes, the first of them between its calls. -/
theorem records_locked_runs_ten :
    RecordsLocked (({ (.initial : FileState (Fin 10)) with owner := some 0 }).move 0
      ⟨.wrlck, .formatting 0 0, 0⟩) :=
  (records_locked_runs ⟨100, 1024⟩ (.by_event (.goes 0) (.start rfl) (fun _ _ _ => rfl) rfl)).1

/-! ### The second record -/

section Second

variable {cfg} {s : FileState Process} {p q : Process} {w : Writer}

@[simp] theorem move_self (s : FileState Process) (p : Process) (w : Writer) :
    (s.move p w).writers p = w := Function.update_self ..

theorem move_of_ne (s : FileState Process) (w : Writer) (differs : q ≠ p) :
    (s.move p w).writers q = s.writers q := Function.update_of_ne differs ..

@[simp] theorem move_move (s : FileState Process) (p : Process) (w w' : Writer) :
    (s.move p w).move p w' = s.move p w' := by
  unfold FileState.move
  rw [Function.update_idem]

/-- The digits of a record, down to the newline. -/
theorem reach_newline {i j left : ℕ} {type : LockType} {records : ℕ}
    (reached : (lockSystem cfg Process).Reachable (s.move p ⟨type, .formatting i j, records⟩))
    (digits : j + left = cfg.maxWriteBytes - 1) :
    (lockSystem cfg Process).Reachable (s.move p ⟨type, .newline i, records⟩) := by
  induction left generalizing j with
  | zero =>
    refine reached.by_event (.goes p) trivial ?_
    have last : ¬ j < cfg.maxWriteBytes - 1 := by omega
    simp [lockSystem, lockExec, last]
  | succ left ih =>
    refine ih (j := j + 1) (reached.by_event (.goes p) trivial ?_) (by omega)
    have more : j < cfg.maxWriteBytes - 1 := by omega
    simp [lockSystem, lockExec, more]

/-- A process takes the lock. -/
theorem reach_locked {records i : ℕ} (reached : (lockSystem cfg Process).Reachable s)
    (here : s.writers p = ⟨.wrlck, .locking i, records⟩) (more : i < cfg.writeCounts)
    (free : s.owner = none) :
    (lockSystem cfg Process).Reachable
      (({ s with owner := some p } : FileState Process).move p ⟨.wrlck, .formatting i 0, records⟩) := by
  refine reached.by_event (.goes p) trivial ?_
  simp [lockSystem, lockExec, here, more, setlk, free]

/-- A process goes on without it. -/
theorem reach_passed {records i : ℕ} (reached : (lockSystem cfg Process).Reachable s)
    (here : s.writers p = ⟨.unlck, .locking i, records⟩) (more : i < cfg.writeCounts) :
    (lockSystem cfg Process).Reachable
      (({ s with owner := released p s.owner } : FileState Process).move p
        ⟨.unlck, .formatting i 0, records⟩) := by
  refine reached.by_event (.goes p) trivial ?_
  simp [lockSystem, lockExec, here, more, setlk, released]

/-- **A whole iteration** under the lock. -/
theorem reach_next {records i : ℕ} (reached : (lockSystem cfg Process).Reachable s)
    (here : s.writers p = ⟨.wrlck, .locking i, records⟩) (more : i < cfg.writeCounts)
    (free : s.owner = none) :
    (lockSystem cfg Process).Reachable (s.move p ⟨.unlck, .locking (i + 1), records + 1⟩) := by
  have written := reach_newline (reach_locked reached here more free) (Nat.zero_add _)
  have flushing : (lockSystem cfg Process).Reachable
      (({ s with owner := some p } : FileState Process).move p ⟨.wrlck, .flushing i, records⟩) := by
    refine written.by_event (.goes p) trivial ?_
    simp [lockSystem, lockExec]
  have unlocking : (lockSystem cfg Process).Reachable
      (({ s with owner := some p } : FileState Process).move p ⟨.wrlck, .unlocking i, records⟩) := by
    refine flushing.by_event (.goes p) trivial ?_
    simp [lockSystem, lockExec]
  refine unlocking.by_event (.goes p) trivial ?_
  simp [lockSystem, lockExec, setlk, Writer.next, FileState.move, free]

/-- **From the second iteration on** a process gets between its calls while another one holds the
lock. -/
theorem second_record_unlocked (cfg : WriteConfig) (twice : 1 < cfg.writeCounts) (differs : p ≠ q) :
    ∃ s : FileState Process, (lockSystem cfg Process).Reachable s ∧
      (s.writers p).point.Between ∧ (s.writers q).point.Between ∧ s.owner = some q := by
  have once : 0 < cfg.writeCounts := Nat.zero_lt_of_lt twice
  have first : (lockSystem cfg Process).Reachable (FileState.initial.move p ⟨.unlck, .locking 1, 1⟩) :=
    reach_next (.start rfl) rfl once rfl
  have locked := reach_locked first (move_of_ne .initial _ differs.symm) once rfl
  have atSecond : ((FileState.move { FileState.initial.move p ⟨.unlck, .locking 1, 1⟩ with
      owner := some q } q ⟨.wrlck, .formatting 0 0, 0⟩).writers p) = ⟨.unlck, .locking 1, 1⟩ := by
    rw [move_of_ne _ _ differs]
    exact move_self ..
  refine ⟨_, reach_passed locked atSecond twice, ?_, ?_, released_of_ne rfl differs.symm⟩
  · rw [move_self]
    trivial
  · rw [move_of_ne _ _ differs.symm]
    exact (congrArg (Point.Between ∘ Writer.point) (move_self ..)).mpr trivial

end Second

/-- The program: ten processes that write a hundred records each. -/
theorem record_without_lock : ∃ s : FileState (Fin 10),
    (lockSystem ⟨100, 1024⟩ (Fin 10)).Reachable s ∧ ¬ RecordsLocked s := by
  obtain ⟨s, reached, first, second, -⟩ := second_record_unlocked (p := 0) (q := (1 : Fin 10))
    ⟨100, 1024⟩ (by decide) (by decide)
  exact ⟨s, reached, fun locked => absurd (locked.alone 0 1 first second) (by decide)⟩

end Aple.Process
