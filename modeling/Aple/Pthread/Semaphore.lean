/-
**The value kept beside a VxWorks semaphore.**

* `SemCall`, `Place` — the calls on one `sem_t`, and where a thread stands in its call: a call is a
  `semGive` or `semTake` and, as a step of its own, the update of `sem->value`.
* `SemState`, `semExec`, `semSystem` — every interleaving of the calls of any threads.
* `Decrements` — a call that took the semaphore finds a value to decrement.
* **`value_exact_when_decremented`** — then the value is the count at rest; in any run it is too
  large by the number of decrements that were skipped.
-/

import Mathlib.Data.Fintype.Card
import Aple.Lib.Reach
import Aple.Lib.Total

namespace Aple.Pthread

open Aple.Lib

/-! ### The calls -/

/-- The calls that change the semaphore. -/
inductive SemCall
  | post | wait | trywait
deriving DecidableEq, Repr

/-- Where a thread stands: outside, with what its last call returned; before the kernel call, which
may block; before the update of the value. -/
inductive Place
  | outside (ret : ℤ)
  | called (call : SemCall)
  | updating (call : SemCall)
deriving DecidableEq, Repr

/-- The count of the kernel's semaphore, `sem->value`, and the threads; `skipped` counts the updates
that found no value to decrement. -/
structure SemState (Thread : Type) where
  count : ℕ
  value : ℤ
  place : Thread → Place
  skipped : ℕ

/-- What `sem_init` leaves. -/
def SemState.init {Thread : Type} (value : ℕ) : SemState Thread :=
  ⟨value, value, fun _ => .outside 0, 0⟩

/-- A thread makes a call, the kernel call of a thread succeeds or fails, a thread updates the
value. -/
inductive SemEvent (Thread : Type)
  | call (thread : Thread) (call : SemCall)
  | kernel (thread : Thread)
  | update (thread : Thread)

section Steps

variable {Thread : Type} [DecidableEq Thread]

namespace SemState

def move (s : SemState Thread) (thread : Thread) (place : Place) : SemState Thread :=
  { s with place := Function.update s.place thread place }

/-- `sem_getvalue`. -/
def semGetvalue (s : SemState Thread) : ℤ := s.value

/-- `semGive` of `sem_post`. -/
def semGive (s : SemState Thread) (thread : Thread) : SemState Thread :=
  { s with count := s.count + 1 }.move thread (.updating .post)

/-- `semTake` of `sem_wait`, which waits for ever. -/
def semTakeForever (s : SemState Thread) (thread : Thread) : Option (SemState Thread) :=
  if 0 < s.count then some ({ s with count := s.count - 1 }.move thread (.updating .wait)) else none

/-- `semTake` of `sem_trywait`, which does not wait: -1 with `EAGAIN`. -/
def semTakeNoWait (s : SemState Thread) (thread : Thread) : SemState Thread :=
  if 0 < s.count then { s with count := s.count - 1 }.move thread (.updating .trywait)
  else s.move thread (.outside (-1))

/-- `sem->value ++`. -/
def increment (s : SemState Thread) (thread : Thread) : SemState Thread :=
  { s with value := s.value + 1 }.move thread (.outside 0)

/-- `if (sem->value > 0) sem->value --`. -/
def decrement (s : SemState Thread) (thread : Thread) : SemState Thread :=
  if s.value > 0 then { s with value := s.value - 1 }.move thread (.outside 0)
  else { s with skipped := s.skipped + 1 }.move thread (.outside 0)

end SemState

/-- One step of a thread; `none` when it is not there, or blocks. -/
def semExec (s : SemState Thread) : SemEvent Thread → Option (SemState Thread)
  | .call thread call =>
    match s.place thread with
    | .outside _ => some (s.move thread (.called call))
    | _ => none
  | .kernel thread =>
    match s.place thread with
    | .called .post => some (s.semGive thread)
    | .called .wait => s.semTakeForever thread
    | .called .trywait => some (s.semTakeNoWait thread)
    | _ => none
  | .update thread =>
    match s.place thread with
    | .updating .post => some (s.increment thread)
    | .updating .wait => some (s.decrement thread)
    | .updating .trywait => some (s.decrement thread)
    | _ => none

/-- Every interleaving, after `sem_init` with any value. -/
def semSystem (Thread : Type) [DecidableEq Thread] : System (SemState Thread) (SemEvent Thread) where
  init s := ∃ value, s = SemState.init value
  step s event after := semExec s event = some after

/-- No call is between its kernel call and its update. -/
def AtRest (s : SemState Thread) : Prop := ∀ thread call, s.place thread ≠ .updating call

/-- The condition: a thread that took the semaphore finds a value to decrement. -/
def Decrements (s : SemState Thread) : SemEvent Thread → Prop
  | .update thread =>
    s.place thread = .updating .wait ∨ s.place thread = .updating .trywait → 0 < s.value
  | _ => True

end Steps

/-! ### The account -/

section Account

variable {Thread : Type} [DecidableEq Thread] [Fintype Thread] {s after : SemState Thread}
  {event : SemEvent Thread}

/-- What the update of a thread still adds to the value. -/
def Place.pending : Place → ℤ
  | .updating .post => 1
  | .updating _ => -1
  | _ => 0

/-- The value with the updates to come is the count, and one more for every update skipped. -/
def Account (s : SemState Thread) : Prop :=
  s.value + total Place.pending s.place = s.count + s.skipped

/-- One thread moves, and the difference is made up in the numbers. -/
theorem account_move (account : Account s) {value : ℤ} {count skipped : ℕ} {thread : Thread}
    {old place : Place} (here : s.place thread = old)
    (balance : value + place.pending + s.count + s.skipped =
      s.value + old.pending + count + skipped) :
    Account ((⟨count, value, s.place, skipped⟩ : SemState Thread).move thread place) := by
  have moved := total_update Place.pending s.place thread place
  rw [here] at moved
  show value + total Place.pending (Function.update s.place thread place) = count + skipped
  have before : s.value + total Place.pending s.place = s.count + s.skipped := account
  omega

/-- The branch of a decrement. -/
theorem account_decrement (account : Account s) {thread : Thread} {call : SemCall}
    (place : s.place thread = .updating call) (take : (Place.updating call).pending = -1) :
    Account (s.decrement thread) ∧ (0 < s.value → (s.decrement thread).skipped = s.skipped) := by
  rw [SemState.decrement]
  by_cases positive : s.value > 0
  · rw [if_pos positive]
    refine ⟨account_move account place ?_, fun _ => rfl⟩
    rw [take]
    simp only [Place.pending]
    omega
  · rw [if_neg positive]
    refine ⟨account_move account place ?_, fun found => absurd found positive⟩
    rw [take]
    simp only [Place.pending]
    omega

/-- **One step** keeps the account; one that meets the condition skips nothing. -/
theorem account_step (account : Account s) (runs : semExec s event = some after) :
    Account after ∧ (Decrements s event → after.skipped = s.skipped) := by
  cases event with
  | call thread call =>
    cases place : s.place thread with
    | outside ret =>
      simp only [semExec, place] at runs
      obtain rfl := Option.some.inj runs
      refine ⟨account_move account place ?_, fun _ => rfl⟩
      simp only [Place.pending]
    | called _ => simp [semExec, place] at runs
    | updating _ => simp [semExec, place] at runs
  | kernel thread =>
    cases place : s.place thread with
    | outside _ => simp [semExec, place] at runs
    | updating _ => simp [semExec, place] at runs
    | called call =>
      cases call with
      | post =>
        simp only [semExec, place] at runs
        obtain rfl := Option.some.inj runs
        refine ⟨account_move account place ?_, fun _ => rfl⟩
        simp only [Place.pending]
        omega
      | wait =>
        simp only [semExec, place, SemState.semTakeForever] at runs
        by_cases available : 0 < s.count
        · rw [if_pos available] at runs
          obtain rfl := Option.some.inj runs
          refine ⟨account_move account place ?_, fun _ => rfl⟩
          simp only [Place.pending]
          omega
        · rw [if_neg available] at runs
          cases runs
      | trywait =>
        simp only [semExec, place, SemState.semTakeNoWait] at runs
        by_cases available : 0 < s.count
        · rw [if_pos available] at runs
          obtain rfl := Option.some.inj runs
          refine ⟨account_move account place ?_, fun _ => rfl⟩
          simp only [Place.pending]
          omega
        · rw [if_neg available] at runs
          obtain rfl := Option.some.inj runs
          refine ⟨account_move account place ?_, fun _ => rfl⟩
          simp only [Place.pending]
  | update thread =>
    cases place : s.place thread with
    | outside _ => simp [semExec, place] at runs
    | called _ => simp [semExec, place] at runs
    | updating call =>
      cases call with
      | post =>
        simp only [semExec, place] at runs
        obtain rfl := Option.some.inj runs
        refine ⟨account_move account place ?_, fun _ => rfl⟩
        simp only [Place.pending]
        omega
      | wait =>
        simp only [semExec, place] at runs
        obtain rfl := Option.some.inj runs
        obtain ⟨kept, counted⟩ := account_decrement account place rfl
        exact ⟨kept, fun decrements => counted (decrements (.inl place))⟩
      | trywait =>
        simp only [semExec, place] at runs
        obtain rfl := Option.some.inj runs
        obtain ⟨kept, counted⟩ := account_decrement account place rfl
        exact ⟨kept, fun decrements => counted (decrements (.inr place))⟩

omit [DecidableEq Thread] in
theorem account_init (value : ℕ) : Account (SemState.init value : SemState Thread) := by
  have nothing : total Place.pending (fun _ : Thread => Place.outside 0) = 0 :=
    total_eq_zero fun _ => rfl
  show (value : ℤ) + total Place.pending (fun _ : Thread => Place.outside 0) = value + (0 : ℕ)
  rw [nothing]
  rfl

/-! ### Every run -/

/-- The account, in every run. -/
theorem account_of_reachable (reached : (semSystem Thread).Reachable s) : Account s := by
  refine reached.invariant Account ?_ ?_
  · rintro _ ⟨value, rfl⟩
    exact account_init value
  · exact fun _ _ _ _ account _ runs => (account_step account runs).1

/-- A run that meets the condition skips no update. -/
theorem skipped_of_decrements (reached : (semSystem Thread).ReachableBy Decrements s) :
    s.skipped = 0 := by
  have both : Account s ∧ s.skipped = 0 := by
    refine reached.invariant (fun s => Account s ∧ s.skipped = 0) ?_ ?_
    · rintro _ ⟨value, rfl⟩
      exact ⟨account_init value, rfl⟩
    · rintro s event after - ⟨account, none⟩ decrements runs
      obtain ⟨kept, same⟩ := account_step account runs
      exact ⟨kept, (same decrements).trans none⟩
  exact both.2

omit [DecidableEq Thread] in
theorem atRest_pending (rest : AtRest s) : total Place.pending s.place = 0 := by
  refine total_eq_zero fun thread => ?_
  cases place : s.place thread with
  | outside _ => rfl
  | called _ => rfl
  | updating call => exact absurd place (rest thread call)

/-- **The value is the count at rest** in every run whose updates all find a value to decrement; and
in any run, exactly when no update was skipped. -/
theorem value_exact_when_decremented :
    (∀ s : SemState Thread, (semSystem Thread).ReachableBy Decrements s → AtRest s →
      s.semGetvalue = s.count) ∧
    ∀ s : SemState Thread, (semSystem Thread).Reachable s → AtRest s →
      (s.semGetvalue = s.count ↔ s.skipped = 0) := by
  have exact : ∀ s : SemState Thread, (semSystem Thread).Reachable s → AtRest s →
      s.value = s.count + s.skipped := by
    intro s reached rest
    have account : s.value + total Place.pending s.place = s.count + s.skipped :=
      account_of_reachable reached
    rwa [atRest_pending rest, add_zero] at account
  refine ⟨fun s reached rest => ?_, fun s reached rest => ?_⟩
  · have none := skipped_of_decrements reached
    have value := exact s (reached.mono fun _ _ _ => trivial) rest
    rw [SemState.semGetvalue, value, none]
    simp
  · rw [SemState.semGetvalue, exact s reached rest]
    omega

end Account

/-- A semaphore with the count 1, taken by one thread. -/
theorem value_exact_example :
    (∃ s : SemState Bool, AtRest s ∧ s.semGetvalue = s.count ∧ s.count = 0) ∧
    ∃ s : SemState Bool, s.semGetvalue = s.count ↔ s.skipped = 0 := by
  have start : (semSystem Bool).ReachableBy Decrements (SemState.init 1) := .start ⟨1, rfl⟩
  have first := start.by_event (SemEvent.call false .wait) trivial rfl
  have second := first.by_event (SemEvent.kernel false) trivial rfl
  have third := second.by_event (SemEvent.update false) (fun _ => Int.one_pos) rfl
  refine ⟨⟨_, ?_, value_exact_when_decremented.1 _ third ?_, rfl⟩, SemState.init 1,
    value_exact_when_decremented.2 _ (.start ⟨1, rfl⟩) ?_⟩
  · intro thread call
    cases thread <;> exact nofun
  · intro thread call
    cases thread <;> exact nofun
  · exact fun _ _ => nofun

/-- **A value that stays too large**: the taker comes between the give and the increment. -/
theorem overtaken_value_too_large : ∃ s : SemState Bool,
    runEvents semExec (SemState.init 0) [.call true .post, .kernel true, .call false .wait,
      .kernel false, .update false, .update true] = some s ∧
    (semSystem Bool).Reachable s ∧ AtRest s ∧ s.count = 0 ∧ s.semGetvalue = 1 := by
  obtain ⟨s, runs⟩ : ∃ s : SemState Bool, runEvents semExec (SemState.init 0) [.call true .post,
      .kernel true, .call false .wait, .kernel false, .update false, .update true] = some s := ⟨_, rfl⟩
  have start : (semSystem Bool).Reachable (SemState.init 0) := .start ⟨0, rfl⟩
  refine ⟨s, runs, start.run (fun _ _ _ ran => ⟨trivial, ran⟩) runs, ?_⟩
  obtain rfl := Option.some.inj runs
  refine ⟨?_, rfl, rfl⟩
  · intro thread call
    cases thread <;> exact nofun

end Aple.Pthread
