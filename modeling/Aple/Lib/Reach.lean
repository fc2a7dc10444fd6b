/-
**Runs of a labelled transition system.**

* `System` — the initial states and the labelled steps.
* `System.ReachableBy allowed` — the states reached by the runs all of whose steps meet `allowed`,
  a condition on the state before the step and on the step's label.
* `System.Reachable` — the same without a condition.
* `runEvents` — a list of events, where the steps are given by a partial function.
* **`ReachableBy.invariant`** — the one induction over runs: what holds initially and is kept by
  every allowed step holds in every state reached.
* `System.RunBy`, **`RunBy.invariant`** — the same for what holds between two states of a run.
-/

import Mathlib.Logic.Relation

namespace Aple.Lib

/-- Initial states and labelled steps. -/
structure System (State Event : Type) where
  init : State → Prop
  step : State → Event → State → Prop

/-- Run a list of events; `none` as soon as one of them is not possible. -/
def runEvents {State Event : Type} (exec : State → Event → Option State) (state : State) :
    List Event → Option State
  | [] => some state
  | event :: rest => (exec state event).bind fun after => runEvents exec after rest

namespace System

variable {State Event : Type} {sys : System State Event}

/-- The states reached by runs whose steps all meet `allowed`. -/
inductive ReachableBy (sys : System State Event) (allowed : State → Event → Prop) : State → Prop
  | start {state : State} : sys.init state → ReachableBy sys allowed state
  | next {state after : State} {event : Event} : ReachableBy sys allowed state →
      allowed state event → sys.step state event after → ReachableBy sys allowed after

/-- The states reached by any run. -/
abbrev Reachable (sys : System State Event) : State → Prop :=
  ReachableBy sys fun _ _ => True

namespace ReachableBy

variable {allowed : State → Event → Prop}

/-- **The invariant rule.** The step case may use that the state before is reached. -/
theorem invariant (Inv : State → Prop) (start : ∀ state, sys.init state → Inv state)
    (keep : ∀ state event after, ReachableBy sys allowed state → Inv state → allowed state event →
      sys.step state event after → Inv after)
    {state : State} (reached : ReachableBy sys allowed state) : Inv state := by
  induction reached with
  | start initial => exact start _ initial
  | next before meets step ih => exact keep _ _ _ before ih meets step

/-- A weaker condition reaches at least the same states. -/
theorem mono {weaker : State → Event → Prop}
    (weaken : ∀ state event, allowed state event → weaker state event)
    {state : State} (reached : ReachableBy sys allowed state) : ReachableBy sys weaker state := by
  induction reached with
  | start initial => exact .start initial
  | next _ meets step ih => exact .next ih (weaken _ _ meets) step

/-- One more step of a run without a condition. -/
theorem then_step {state after : State} {event : Event} (reached : Reachable sys state)
    (step : sys.step state event after) : Reachable sys after :=
  .next reached trivial step

/-- One more step, with its label given. -/
theorem by_event {state after : State} (event : Event) (reached : ReachableBy sys allowed state)
    (meets : allowed state event) (step : sys.step state event after) :
    ReachableBy sys allowed after :=
  .next reached meets step

/-- **Running events**, where each of them meets the condition. -/
theorem run {exec : State → Event → Option State}
    (sound : ∀ state event after, exec state event = some after →
      allowed state event ∧ sys.step state event after)
    {events : List Event} {state after : State} (reached : ReachableBy sys allowed state)
    (runs : runEvents exec state events = some after) : ReachableBy sys allowed after := by
  induction events generalizing state with
  | nil =>
    rw [← Option.some.inj runs]
    exact reached
  | cons event rest ih =>
    obtain ⟨middle, first, others⟩ := Option.bind_eq_some_iff.mp runs
    obtain ⟨meets, step⟩ := sound _ _ _ first
    exact ih (.next reached meets step) others

/-- **Running events** that meet the condition in every state. -/
theorem run_all {exec : State → Event → Option State}
    (sound : ∀ state event after, exec state event = some after → sys.step state event after)
    {events : List Event} (meets : ∀ event ∈ events, ∀ state, allowed state event)
    {state after : State} (reached : ReachableBy sys allowed state)
    (runs : runEvents exec state events = some after) : ReachableBy sys allowed after := by
  induction events generalizing state with
  | nil =>
    rw [← Option.some.inj runs]
    exact reached
  | cons event rest ih =>
    obtain ⟨middle, first, others⟩ := Option.bind_eq_some_iff.mp runs
    have next := ReachableBy.next reached (meets event List.mem_cons_self state) (sound _ _ _ first)
    exact ih (fun e member => meets e (List.mem_cons_of_mem _ member)) next others

end ReachableBy

/-- A run between two states, all of whose steps meet the condition. -/
inductive RunBy (sys : System State Event) (allowed : State → Event → Prop) :
    State → List Event → State → Prop
  | stop (state : State) : RunBy sys allowed state [] state
  | go {state middle after : State} {event : Event} {rest : List Event} : allowed state event →
      sys.step state event middle → RunBy sys allowed middle rest after →
      RunBy sys allowed state (event :: rest) after

/-- **The invariant rule** for what holds between the ends of a run: a step extends it at its end. -/
theorem RunBy.invariant {allowed : State → Event → Prop} {state after : State} {events : List Event}
    (Inv : List Event → State → Prop) (start : Inv [] state)
    (keep : ∀ done event middle next, Inv done middle → allowed middle event →
      sys.step middle event next → Inv (done ++ [event]) next)
    (run : RunBy sys allowed state events after) : Inv events after := by
  suffices whole : ∀ done, Inv done state → Inv (done ++ events) after from whole [] start
  clear start
  induction run with
  | stop state =>
    intro done holds
    rw [List.append_nil]
    exact holds
  | go meets step _ ih =>
    intro done holds
    rw [List.append_cons]
    exact ih _ (keep _ _ _ _ holds meets step)

end System

end Aple.Lib
