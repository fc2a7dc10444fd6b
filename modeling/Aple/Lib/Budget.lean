/-
**Budgets of a run.**

Every step spends something and may earn something, and what is spent comes out of a load that the
state carries.

* `RunBy.budget` — over a run, what was spent and the load that is left are covered by the load at
  the start and what was earned, unless the run got to its goal.
* **`RunBy.reaches`** — a run that spends more than it has gets to its goal.
* **`RunBy.countdown`** — steps that each lower a number by one.
-/

import Mathlib.Algebra.BigOperators.Group.List.Basic
import Mathlib.Algebra.Ring.Nat
import Aple.Lib.Reach

namespace Aple.Lib.System

variable {State Event : Type} {sys : System State Event} {allowed : State → Event → Prop}
  {load : State → ℕ → Prop} {Goal : State → Prop} {spend earn : Event → ℕ}

/-- One step pays for what it spends, as long as the goal is not reached. -/
def Pays (sys : System State Event) (allowed : State → Event → Prop) (load : State → ℕ → Prop)
    (Goal : State → Prop) (spend earn : Event → ℕ) : Prop :=
  ∀ state event after n, load state n → allowed state event → sys.step state event after →
    Goal after ∨ ∃ n', load after n' ∧ spend event + n' ≤ n + earn event

/-- **The budget.** -/
theorem RunBy.budget (pays : Pays sys allowed load Goal spend earn)
    (stays : ∀ state event after, Goal state → allowed state event → sys.step state event after →
      Goal after)
    {state after : State} {events : List Event} {n : ℕ} (start : load state n)
    (run : RunBy sys allowed state events after) :
    Goal after ∨ ∃ n', load after n' ∧
      (events.map spend).sum + n' ≤ n + (events.map earn).sum := by
  refine run.invariant (fun events after => Goal after ∨ ∃ n', load after n' ∧
    (events.map spend).sum + n' ≤ n + (events.map earn).sum) (.inr ⟨n, start, by simp⟩) ?_
  rintro done event middle next (goal | ⟨n', left, covered⟩) meets step
  · exact .inl (stays middle event next goal meets step)
  · apply (pays middle event next n' left meets step).imp_right
    rintro ⟨n'', left', paid⟩
    refine ⟨n'', left', ?_⟩
    simp only [List.map_append, List.map_cons, List.map_nil, List.sum_append, List.sum_cons,
      List.sum_nil]
    omega

/-- **A run that spends more than it has** gets to its goal. -/
theorem RunBy.reaches (pays : Pays sys allowed load Goal spend earn)
    (stays : ∀ state event after, Goal state → allowed state event → sys.step state event after →
      Goal after)
    {state after : State} {events : List Event} {n : ℕ} (start : load state n)
    (positive : ∀ state n, load state n → 0 < n)
    (run : RunBy sys allowed state events after)
    (spent : n + (events.map earn).sum ≤ (events.map spend).sum) : Goal after := by
  rcases run.budget pays stays start with goal | ⟨n', left, covered⟩
  · exact goal
  · have := positive after n' left
    omega

/-- A run from a state that is reached stays among the states that are. -/
theorem RunBy.reachable {state after : State} {events : List Event} (reached : Reachable sys state)
    (run : RunBy sys allowed state events after) : Reachable sys after :=
  run.invariant (fun _ after => Reachable sys after) reached fun _ _ _ _ before _ step =>
    before.then_step step

/-- Running events that meet the condition in every state. -/
theorem RunBy.of_run {exec : State → Event → Option State}
    (sound : ∀ state event after, exec state event = some after → sys.step state event after)
    {events : List Event} (meets : ∀ event ∈ events, ∀ state, allowed state event)
    {state after : State} (runs : runEvents exec state events = some after) :
    RunBy sys allowed state events after := by
  induction events generalizing state with
  | nil =>
    rw [← Option.some.inj runs]
    exact .stop state
  | cons event rest ih =>
    obtain ⟨middle, first, others⟩ := Option.bind_eq_some_iff.mp runs
    exact .go (meets event List.mem_cons_self state) (sound _ _ _ first)
      (ih (fun e member => meets e (List.mem_cons_of_mem _ member)) others)

/-- **A countdown.** Every step lowers a number by one, so the number says how long a run is. -/
theorem RunBy.countdown {left : State → ℕ}
    (lowers : ∀ state event after, allowed state event → sys.step state event after →
      left after + 1 = left state)
    {state after : State} {events : List Event} (run : RunBy sys allowed state events after) :
    events.length + left after = left state := by
  refine run.invariant (fun events after => events.length + left after = left state) ?_ ?_
  · exact Nat.zero_add _
  · intro done event middle next counted meets step
    have lowered := lowers middle event next meets step
    rw [List.length_append, List.length_singleton]
    omega

end Aple.Lib.System
