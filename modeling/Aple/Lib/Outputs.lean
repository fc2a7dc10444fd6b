/-
**What the steps of a run put out.**

* `outputs exec put state events` — what the steps put out, one after the other.
* **`runEvents_outputs`** — the induction over a run for what holds of its outputs and its end.
-/

import Aple.Lib.Reach

namespace Aple.Lib

variable {State Event Output : Type}

/-- What the steps of a run put out. -/
def outputs (exec : State → Event → Option State) (put : State → Event → List Output) (state : State) :
    List Event → List Output
  | [] => []
  | event :: rest => put state event ++
    match exec state event with
    | none => []
    | some after => outputs exec put after rest

variable {exec : State → Event → Option State} {put : State → Event → List Output}

theorem outputs_cons {state middle : State} {event : Event} (first : exec state event = some middle)
    (rest : List Event) :
    outputs exec put state (event :: rest) = put state event ++ outputs exec put middle rest := by
  rw [outputs, first]

/-- **The induction over a run** with two outputs of its steps. -/
theorem runEvents_outputs {put' : State → Event → List Output} (Inv : List Output → List Output → State → Prop)
    (allowed : Event → Prop)
    (keep : ∀ done done' state event after, Inv done done' state → allowed event →
      exec state event = some after → Inv (done ++ put state event) (done' ++ put' state event) after)
    {events : List Event} (meets : ∀ event ∈ events, allowed event) {state after : State}
    (start : Inv [] [] state) (runs : runEvents exec state events = some after) :
    Inv (outputs exec put state events) (outputs exec put' state events) after := by
  suffices whole : ∀ done done', Inv done done' state →
      Inv (done ++ outputs exec put state events) (done' ++ outputs exec put' state events) after from
    whole [] [] start
  clear start
  induction events generalizing state with
  | nil =>
    intro done done' holds
    obtain rfl := Option.some.inj runs
    rwa [outputs, outputs, List.append_nil, List.append_nil]
  | cons event rest ih =>
    intro done done' holds
    obtain ⟨middle, first, others⟩ := Option.bind_eq_some_iff.mp runs
    have next := keep _ _ _ _ _ holds (meets event List.mem_cons_self) first
    have whole := ih (fun e member => meets e (List.mem_cons_of_mem _ member)) others _ _ next
    rwa [outputs_cons first, outputs_cons first, ← List.append_assoc, ← List.append_assoc]

end Aple.Lib
