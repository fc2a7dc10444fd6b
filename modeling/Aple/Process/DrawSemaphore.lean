/-
**The semaphore that synchronises drawing.**

* `DrawState` — semaphore 0 of the set, with what the kernel would undo for each process (`SEM_UNDO`).
* `lockSemop`, `unlockSemop`, `undo` — one `semop` of `lock_draw_sem` or `unlock_draw_sem`, and the end
  of a process.
* `drawExec`, `drawSystem` — processes that lock, draw and unlock, are interrupted by signals, fail to get
  memory for the undoing, and end at any point; the set can be removed.
* `NoError` — only the removal of the set makes a `semop` fail. A process whose `semop` fails draws without
  the lock, and unlocks for another one.
* `Owned` — while the set is there, the lock is free or one process has it, and only that is undone for it.
* **`draw_exclusive`** — one process draws at a time, and the next one gets the lock exactly when nobody
  has it, however the others ended.
-/

import Mathlib.Data.Int.Notation
import Mathlib.Data.Nat.Notation
import Mathlib.Logic.Function.Basic
import Mathlib.Tactic.ByContra
import Aple.Lib.Reach

namespace Aple.Process

open Aple.Lib

/-! ### The processes -/

/-- Outside; in the loop of `lock_draw_sem`; behind it, where `got` is whether its `semop` succeeded; in
the loop of `unlock_draw_sem`; ended. -/
inductive DrawPlace
  | outside | locking
  | drawing (got : Bool)
  | unlocking (got : Bool)
  | ended
deriving DecidableEq, Repr

/-- The process has the lock. -/
def DrawPlace.Has : DrawPlace → Prop
  | .drawing got | .unlocking got => got = true
  | _ => False

/-- `alive` is whether the set is still there, `semadj` what is added when a process ends. -/
structure DrawState (Process : Type) where
  alive : Bool
  semval : ℕ
  semadj : Process → ℤ
  place : Process → DrawPlace

/-- Semaphore 0 was set to 1. -/
def DrawState.initial {Process : Type} : DrawState Process := ⟨true, 1, fun _ => 0, fun _ => .outside⟩

/-- A process calls `lock_draw_sem` or `unlock_draw_sem`, its `semop` comes to an end, is interrupted by a
signal, or fails with another error (`ENOMEM`, `ENOSPC`), it ends; a process removes the set. -/
inductive DrawEvent (Process : Type)
  | lock (p : Process)
  | unlock (p : Process)
  | semop (p : Process)
  | signal (p : Process)
  | error (p : Process)
  | ends (p : Process)
  | deleteSem (p : Process)
deriving DecidableEq, Repr

/-- `SEMVMX`. -/
def semvmx : ℕ := 32767

section Steps

variable {Process : Type} [DecidableEq Process]

namespace DrawState

variable (s : DrawState Process)

def move (p : Process) (place : DrawPlace) : DrawState Process :=
  { s with place := Function.update s.place p place }

/-- A `semop` that is undone when the process ends. -/
def withUndo (p : Process) (semval : ℕ) (adjust : ℤ) : DrawState Process :=
  { s with semval := semval, semadj := Function.update s.semadj p (s.semadj p + adjust) }

/-- `sem_op = -1`; it sleeps while the value is 0, and fails when the set is removed. -/
def lockSemop (p : Process) : Option (DrawState Process) :=
  if s.alive then
    if 0 < s.semval then some ((s.withUndo p (s.semval - 1) 1).move p (.drawing true)) else none
  else some (s.move p (.drawing false))

/-- `sem_op = 1`, which fails when the value gets too large. -/
def unlockSemop (p : Process) : DrawState Process :=
  if s.alive ∧ s.semval < semvmx then (s.withUndo p (s.semval + 1) (-1)).move p .outside
  else s.move p .outside

/-- The end of a process: the kernel adds `semadj`. -/
def undo (p : Process) : DrawState Process :=
  if s.alive then
    { s.move p .ended with
      semval := min semvmx (s.semval + s.semadj p).toNat
      semadj := Function.update s.semadj p 0 }
  else s.move p .ended

end DrawState

/-- One step; `none` when a process sleeps, or is not there. -/
def drawExec (s : DrawState Process) : DrawEvent Process → Option (DrawState Process)
  | .lock p => if s.place p = .outside then some (s.move p .locking) else none
  | .unlock p =>
    match s.place p with
    | .drawing got => some (s.move p (.unlocking got))
    | _ => none
  | .semop p =>
    match s.place p with
    | .locking => s.lockSemop p
    | .unlocking _ => some (s.unlockSemop p)
    | _ => none
  | .signal p =>
    -- `goto again`
    match s.place p with
    | .locking => some s
    | .unlocking _ => some s
    | _ => none
  | .error p =>
    -- any error but `EINTR` ends the loop
    match s.place p with
    | .locking => some (s.move p (.drawing false))
    | .unlocking _ => some (s.move p .outside)
    | _ => none
  | .ends p => if s.place p = .ended then none else some (s.undo p)
  | .deleteSem p => if s.place p = .ended then none else some { s with alive := false }

/-- Every interleaving. -/
def drawSystem (Process : Type) [DecidableEq Process] : System (DrawState Process) (DrawEvent Process) where
  init s := s = .initial
  step s event after := drawExec s event = some after

/-- No `semop` fails for another reason than a signal or the removal of the set. -/
def NoError (_ : DrawState Process) : DrawEvent Process → Prop
  | .error _ => False
  | _ => True

end Steps

/-! ### The lock -/

section Lock

variable {Process : Type} [DecidableEq Process] {s after : DrawState Process} {p : Process}
  {owner : Option Process} {event : DrawEvent Process}

/-- A set that is there was there before. -/
theorem alive_of_step (runs : drawExec s event = some after) (still : after.alive = true) :
    s.alive = true := by
  cases event with
  | lock p =>
    obtain ⟨-, runs⟩ := Option.ite_none_right_eq_some.mp runs
    rw [← Option.some.inj runs] at still
    exact still
  | unlock p =>
    simp only [drawExec] at runs
    split at runs
    · rw [← Option.some.inj runs] at still
      exact still
    · cases runs
  | semop p =>
    by_contra gone
    simp only [drawExec, DrawState.lockSemop, DrawState.unlockSemop, gone, false_and, if_false] at runs
    split at runs
    · rw [← Option.some.inj runs] at still
      exact gone still
    · rw [← Option.some.inj runs] at still
      exact gone still
    · cases runs
  | signal p =>
    simp only [drawExec] at runs
    split at runs
    · exact (Option.some.inj runs) ▸ still
    · exact (Option.some.inj runs) ▸ still
    · cases runs
  | error p =>
    simp only [drawExec] at runs
    split at runs
    · rw [← Option.some.inj runs] at still
      exact still
    · rw [← Option.some.inj runs] at still
      exact still
    · cases runs
  | ends p =>
    by_contra gone
    simp only [drawExec, DrawState.undo, gone, if_false] at runs
    obtain ⟨-, runs⟩ := Option.ite_none_left_eq_some.mp runs
    rw [← Option.some.inj runs] at still
    exact gone still
  | deleteSem p =>
    obtain ⟨-, runs⟩ := Option.ite_none_left_eq_some.mp runs
    rw [← Option.some.inj runs] at still
    cases still

/-- The lock is free, or the owner has it. -/
structure Owned (s : DrawState Process) (owner : Option Process) : Prop where
  semval : s.semval = if owner = none then 1 else 0
  has : ∀ p, (s.place p).Has ↔ owner = some p
  semadj : ∀ p, s.semadj p = if owner = some p then 1 else 0
  got : ∀ p, s.place p ≠ .drawing false ∧ s.place p ≠ .unlocking false

namespace Owned

/-- One process moves on; the others neither get the lock nor give it back. -/
theorem move (owned : Owned s owner) {owner' : Option Process} {place : DrawPlace}
    (moved : after.place = Function.update s.place p place)
    (semval : after.semval = if owner' = none then 1 else 0)
    (mine : place.Has ↔ owner' = some p) (others : ∀ q, q ≠ p → (owner' = some q ↔ owner = some q))
    (semadj : ∀ q, after.semadj q = if owner' = some q then 1 else 0)
    (got : place ≠ .drawing false ∧ place ≠ .unlocking false) : Owned after owner' where
  semval := semval
  has q := by
    rw [moved]
    by_cases here : q = p
    · rw [here, Function.update_self]
      exact mine
    · rw [Function.update_of_ne here, owned.has, others q here]
  semadj := semadj
  got q := by
    rw [moved]
    by_cases here : q = p
    · rw [here, Function.update_self]
      exact got
    · rw [Function.update_of_ne here]
      exact owned.got q

/-- A process that does not get the lock, and does not have it. -/
theorem stay (owned : Owned s owner) {place : DrawPlace} (same : place.Has ↔ (s.place p).Has)
    (got : place ≠ .drawing false ∧ place ≠ .unlocking false) : Owned (s.move p place) owner :=
  owned.move rfl owned.semval (same.trans (owned.has p)) (fun _ _ => Iff.rfl) owned.semadj got

/-- The value that `withUndo` leaves for undoing. -/
theorem semadj_update (owned : Owned s owner) {value : ℤ} {owner' : Option Process}
    (mine : value = if owner' = some p then 1 else 0)
    (others : ∀ q, q ≠ p → (owner' = some q ↔ owner = some q)) (q : Process) :
    Function.update s.semadj p value q = if owner' = some q then 1 else 0 := by
  by_cases here : q = p
  · rw [here, Function.update_self]
    exact mine
  · rw [Function.update_of_ne here, owned.semadj]
    simp only [others q here]

/-- Who is behind its `semop` has the lock. -/
theorem got_true (owned : Owned s owner) (p : Process) (got : Bool)
    (behind : s.place p = .drawing got ∨ s.place p = .unlocking got) : got = true := by
  cases got with
  | true => rfl
  | false =>
    rcases behind with drawing | unlocking
    · exact absurd drawing (owned.got p).1
    · exact absurd unlocking (owned.got p).2

/-- **A process gets the lock.** -/
theorem takes (owned : Owned s owner) (free : 0 < s.semval) :
    Owned ((s.withUndo p (s.semval - 1) 1).move p (.drawing true)) (some p) := by
  have nobody : owner = none := by
    by_contra taken
    rw [owned.semval, if_neg taken] at free
    exact absurd free (Nat.lt_irrefl 0)
  have others : ∀ q, q ≠ p → (some p = some q ↔ owner = some q) := by
    intro q differs
    rw [nobody]
    exact ⟨fun same => absurd (Option.some.inj same).symm differs, fun same => by cases same⟩
  refine owned.move rfl ?_ (iff_of_true rfl rfl) others (owned.semadj_update ?_ others) (by simp)
  · show s.semval - 1 = _
    rw [owned.semval, if_pos nobody, if_neg (Option.some_ne_none p)]
  · rw [owned.semadj, nobody]
    simp

/-- **A process gives the lock back**, and nothing is left to undo for it. -/
theorem gives (owned : Owned s (some p)) {place : DrawPlace} (left : ¬ place.Has)
    (got : place ≠ .drawing false ∧ place ≠ .unlocking false) {value : ℤ} (zero : value = 0)
    {semval : ℕ} (full : semval = 1) :
    Owned { s.move p place with semval := semval, semadj := Function.update s.semadj p value } none := by
  have others : ∀ q, q ≠ p → ((none : Option Process) = some q ↔ some p = some q) := by
    intro q differs
    exact iff_of_false (by simp) fun same => differs (Option.some.inj same).symm
  refine owned.move rfl ?_ (iff_of_false left (by simp)) others (owned.semadj_update ?_ others) got
  · exact full
  · rw [zero]
    simp

/-- **The end of a process** frees the lock if it had it. -/
theorem ends (owned : Owned s owner) (alive : s.alive = true) : ∃ owner', Owned (s.undo p) owner' := by
  rw [DrawState.undo, if_pos alive]
  by_cases mine : owner = some p
  · rw [mine] at owned
    refine ⟨none, owned.gives id (by simp) rfl ?_⟩
    rw [owned.semval, owned.semadj, if_neg (Option.some_ne_none p), if_pos rfl]
    rfl
  · have zero : s.semadj p = 0 := by rw [owned.semadj, if_neg mine]
    have same : min semvmx (s.semval + s.semadj p).toNat = s.semval := by
      rw [zero, owned.semval]
      split <;> rfl
    refine ⟨owner, owned.move rfl ?_ (iff_of_false id mine) (fun _ _ => Iff.rfl)
      (owned.semadj_update ?_ fun _ _ => Iff.rfl) (by simp)⟩
    · exact same.trans owned.semval
    · rw [if_neg mine]

/-- **One step.** -/
theorem step (owned : Owned s owner) (alive : s.alive = true) (allowed : NoError s event)
    (runs : drawExec s event = some after) (still : after.alive = true) :
    ∃ owner', Owned after owner' := by
  cases event with
  | lock p =>
    obtain ⟨outside, runs⟩ := Option.ite_none_right_eq_some.mp runs
    rw [← Option.some.inj runs]
    exact ⟨owner, owned.stay (by rw [outside]; exact Iff.rfl) (by simp)⟩
  | unlock p =>
    simp only [drawExec] at runs
    split at runs
    case h_1 got here =>
      rw [← Option.some.inj runs]
      have good : got = true := owned.got_true p got (.inl here)
      rw [good] at here ⊢
      exact ⟨owner, owned.stay (by rw [here]; exact Iff.rfl) (by simp)⟩
    case h_2 => cases runs
  | semop p =>
    simp only [drawExec] at runs
    split at runs
    case h_1 here =>
      rw [DrawState.lockSemop, if_pos alive] at runs
      obtain ⟨free, runs⟩ := Option.ite_none_right_eq_some.mp runs
      rw [← Option.some.inj runs]
      exact ⟨some p, owned.takes free⟩
    case h_2 got here =>
      have good : got = true := owned.got_true p got (.inr here)
      obtain rfl : owner = some p := (owned.has p).mp (by rw [here]; exact good)
      have empty : s.semval = 0 := by rw [owned.semval, if_neg (Option.some_ne_none p)]
      have below : s.semval + 1 = 1 := by rw [empty]
      rw [← Option.some.inj runs, DrawState.unlockSemop, if_pos ⟨alive, by rw [empty]; decide⟩]
      refine ⟨none, owned.gives id (by simp) ?_ ?_⟩
      · rw [owned.semadj, if_pos rfl]
        rfl
      · exact below
    case h_3 => cases runs
  | signal p =>
    simp only [drawExec] at runs
    split at runs
    · exact ⟨owner, (Option.some.inj runs) ▸ owned⟩
    · exact ⟨owner, (Option.some.inj runs) ▸ owned⟩
    · cases runs
  | error p => cases allowed
  | ends p =>
    obtain ⟨-, runs⟩ := Option.ite_none_left_eq_some.mp runs
    rw [← Option.some.inj runs]
    exact owned.ends alive
  | deleteSem p =>
    obtain ⟨-, runs⟩ := Option.ite_none_left_eq_some.mp runs
    rw [← Option.some.inj runs] at still
    cases still

/-- At most one process has the lock. -/
theorem unique (owned : Owned s owner) {q : Process} (one : (s.place p).Has)
    (other : (s.place q).Has) : p = q := by
  have same : some p = some q := ((owned.has p).mp one).symm.trans ((owned.has q).mp other)
  exact Option.some.inj same

/-- The value says whether somebody has the lock. -/
theorem semval_eq_zero_iff (owned : Owned s owner) : s.semval = 0 ↔ ∃ q, (s.place q).Has := by
  rw [owned.semval]
  constructor
  · intro zero
    have taken : owner ≠ none := by
      intro free
      rw [if_pos free] at zero
      cases zero
    obtain ⟨q, here⟩ := Option.ne_none_iff_exists'.mp taken
    exact ⟨q, (owned.has q).mpr here⟩
  · rintro ⟨q, has⟩
    rw [(owned.has q).mp has, if_neg (Option.some_ne_none q)]

/-- One is added for the process that has the lock, and nothing for the others. -/
theorem semadj_eq (owned : Owned s owner) (p : Process) :
    (s.place p).Has ∧ s.semadj p = 1 ∨ ¬ (s.place p).Has ∧ s.semadj p = 0 := by
  rw [owned.has, owned.semadj]
  by_cases mine : owner = some p
  · exact .inl ⟨mine, if_pos mine⟩
  · exact .inr ⟨mine, if_neg mine⟩

/-- Nobody has the lock when the process that had it has ended. -/
theorem nobody_after_end (owned : Owned s owner) (has : (s.place p).Has)
    (runs : drawExec s (.ends p) = some after) (q : Process) : ¬ (after.place q).Has := by
  obtain ⟨-, runs⟩ := Option.ite_none_left_eq_some.mp runs
  have placed : after.place = Function.update s.place p .ended := by
    rw [← Option.some.inj runs, DrawState.undo]
    split
    · rfl
    · rfl
  intro holds
  rw [placed] at holds
  by_cases here : q = p
  · rw [here, Function.update_self] at holds
    exact holds
  · rw [Function.update_of_ne here] at holds
    exact here (owned.unique has holds).symm

end Owned

/-- **Every run** keeps the lock with at most one owner, until the set is removed. -/
theorem owned_of_reachable (reached : (drawSystem Process).ReachableBy NoError s) (alive : s.alive = true) :
    ∃ owner, Owned s owner := by
  refine reached.invariant (fun s => s.alive = true → ∃ owner, Owned s owner) ?_ ?_ alive
  · intro s start _
    rw [start]
    exact ⟨none, rfl, fun p => iff_of_false id (by simp), fun p => rfl,
      fun p => by simp [DrawState.initial]⟩
  · intro s event after _ ih allowed runs still
    obtain ⟨owner, owned⟩ := ih (alive_of_step runs still)
    exact owned.step (alive_of_step runs still) allowed runs still

/-- **`lock_draw_sem` sleeps exactly while a process has the lock** of a set that is there. -/
theorem semop_eq_none_iff (reached : (drawSystem Process).ReachableBy NoError s)
    (here : s.place p = .locking) :
    drawExec s (.semop p) = none ↔ s.alive = true ∧ ∃ q, (s.place q).Has := by
  simp only [drawExec, here, DrawState.lockSemop]
  by_cases alive : s.alive = true
  · obtain ⟨owner, owned⟩ := owned_of_reachable reached alive
    rw [if_pos alive, ← owned.semval_eq_zero_iff]
    by_cases free : 0 < s.semval
    · simp [free, alive, Nat.pos_iff_ne_zero.mp free]
    · simp [alive, Nat.eq_zero_of_not_pos free]
  · simp [alive]

/-- **One process draws at a time**, as long as no `semop` fails for another reason. While the set is
there at most one process has the lock, everyone who is behind `lock_draw_sem` has it, and a process in
`lock_draw_sem` sleeps exactly while somebody has it; when the process that has it ends, wherever it is,
nobody has it and whoever waits gets it. -/
theorem draw_exclusive (reached : (drawSystem Process).ReachableBy NoError s) :
    (s.alive = true →
      (∀ p q, (s.place p).Has → (s.place q).Has → p = q) ∧
      (∀ p got, s.place p = .drawing got ∨ s.place p = .unlocking got → got = true) ∧
      ∀ p, (s.place p).Has ∧ s.semadj p = 1 ∨ ¬ (s.place p).Has ∧ s.semadj p = 0) ∧
    (∀ p, s.place p = .locking →
      (drawExec s (.semop p) = none ↔ s.alive = true ∧ ∃ q, (s.place q).Has)) ∧
    ∀ p after, s.alive = true → (s.place p).Has → drawExec s (.ends p) = some after →
      ∀ q, ¬ (after.place q).Has ∧ (after.place q = .locking → drawExec after (.semop q) ≠ none) := by
  refine ⟨fun alive => ?_, fun p here => semop_eq_none_iff reached here,
    fun p after alive has runs q => ?_⟩
  · obtain ⟨owner, owned⟩ := owned_of_reachable reached alive
    exact ⟨fun p q => owned.unique, owned.got_true, owned.semadj_eq⟩
  · obtain ⟨owner, owned⟩ := owned_of_reachable reached alive
    have nobody := owned.nobody_after_end has runs
    refine ⟨nobody q, fun waits sleeps => ?_⟩
    have still := reached.by_event (DrawEvent.ends p) trivial runs
    obtain ⟨-, r, holds⟩ := (semop_eq_none_iff still waits).mp sleeps
    exact nobody r holds

end Lock

/-- The first process draws and the second one waits. -/
def secondWaits : DrawState Bool :=
  (((DrawState.initial.move false .locking).withUndo false 0 1).move false (.drawing true)).move true .locking

theorem draw_exclusive_two : drawExec secondWaits (.semop true) = none ∧
    drawExec (secondWaits.undo false) (.semop true) ≠ none := by
  have reached : (drawSystem Bool).ReachableBy NoError secondWaits := by
    have start : (drawSystem Bool).ReachableBy NoError (.initial) := .start rfl
    have first := start.by_event (DrawEvent.lock false) trivial rfl
    have drawn := first.by_event (DrawEvent.semop false) trivial rfl
    exact drawn.by_event (DrawEvent.lock true) trivial rfl
  obtain ⟨-, sleeps, freed⟩ := draw_exclusive reached
  constructor
  · exact (sleeps true rfl).mpr ⟨rfl, false, rfl⟩
  · exact (freed false _ rfl rfl rfl true).2 rfl

end Aple.Process
