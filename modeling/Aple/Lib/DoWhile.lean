/-
**`do … while` loops with a pass counter.**

* `doTurn body limit` — a pass of `do { again = body (); count++; } while (again && count <= limit)`.
* **`doWhile_spec`** — such a loop ends. The pass that ended it wanted no other one, unless it is the
  one behind the limit; all before it wanted another one.
* `doWhile_within_iff` — it makes at most `limit` passes if and only if one of the first `limit`
  passes wants no other.
-/

import Aple.Lib.Loop
import Mathlib.Logic.Function.Iterate

namespace Aple.Lib

variable {State : Type}

/-- One pass, behind `count` others. The body says whether it wants to be repeated. -/
def doTurn (body : State → Bool × State) (limit : ℕ) :
    ℕ × State → Option ((ℕ × State) ⊕ (ℕ × State)) := fun (count, state) =>
  let (again, state) := body state
  if again = true ∧ count + 1 ≤ limit then some (.inl (count + 1, state))
  else some (.inr (count + 1, state))

/-- The state after some passes. -/
def afterPasses (body : State → Bool × State) (state : State) (passes : ℕ) : State :=
  (fun state => (body state).2)^[passes] state

section

variable {body : State → Bool × State} {limit : ℕ} {state : State}

theorem afterPasses_succ (passes : ℕ) :
    afterPasses body state (passes + 1) = (body (afterPasses body state passes)).2 :=
  Function.iterate_succ_apply' _ _ _

/-- How a loop ended: `last` is the pass that ended it, counted from 0. -/
structure EndsWith (body : State → Bool × State) (limit : ℕ) (state : State) (last : ℕ) : Prop where
  within : last ≤ limit
  earlier : ∀ pass < last, (body (afterPasses body state pass)).1 = true
  ended : last < limit → (body (afterPasses body state last)).1 = false

/-- Where the loop is in front of a pass. -/
structure Passing (body : State → Bool × State) (limit : ℕ) (state : State) (left : ℕ)
    (here : ℕ × State) : Prop where
  total : here.1 + left = limit + 1
  left : 0 < left
  reached : here.2 = afterPasses body state here.1
  earlier : ∀ pass < here.1, (body (afterPasses body state pass)).1 = true

/-- **The loop** ends, with the state after its passes. -/
theorem doWhile_spec (body : State → Bool × State) (limit : ℕ) (state : State) :
    ∃ last, EndsWith body limit state last ∧
      Yields (fun fuel => loop (doTurn body limit) fuel (0, state)) (limit + 1)
        (last + 1, afterPasses body state (last + 1)) := by
  have spec : LoopSpec (doTurn body limit) (0, state) (limit + 1) fun result =>
      ∃ last, EndsWith body limit state last ∧
        result = (last + 1, afterPasses body state (last + 1)) := by
    refine loop_total (Passing body limit state) _ ?_ ⟨Nat.zero_add _, Nat.succ_pos _, rfl, ?_⟩
    case refine_2 => exact fun pass before => absurd before (Nat.not_lt_zero _)
    rintro bound ⟨count, here⟩ ⟨total, left, same, earlier⟩
    obtain rfl : here = afterPasses body state count := same
    have total : count + bound = limit + 1 := total
    rcases outcome : body (afterPasses body state count) with ⟨again, next⟩
    have reached : next = afterPasses body state (count + 1) := by rw [afterPasses_succ, outcome]
    have turn : doTurn body limit (count, afterPasses body state count) =
        if again = true ∧ count + 1 ≤ limit then some (.inl (count + 1, next))
        else some (.inr (count + 1, next)) := by rw [doTurn, outcome]
    rw [turn, reached]
    by_cases repeats : again = true ∧ count + 1 ≤ limit
    · rw [if_pos repeats]
      refine ⟨_, rfl, bound - 1, by omega, ?_, by omega, rfl, fun pass before => ?_⟩
      · show count + 1 + (bound - 1) = limit + 1
        omega
      by_cases now : pass = count
      · rw [now, outcome]
        exact repeats.1
      · exact earlier pass (by change pass < count + 1 at before; omega)
    · rw [if_neg repeats]
      refine ⟨_, rfl, count, ⟨by omega, earlier, fun before => ?_⟩, rfl⟩
      rw [outcome]
      exact Bool.eq_false_iff.mpr fun wants => repeats ⟨wants, before⟩
  obtain ⟨_, yields, last, ends, rfl⟩ := spec.yields
  exact ⟨last, ends, yields⟩

/-- **At most `limit` passes** are made if and only if one of the first `limit` ends the loop. -/
theorem doWhile_within_iff {last : ℕ} (ends : EndsWith body limit state last) :
    last + 1 ≤ limit ↔ ∃ pass < limit, (body (afterPasses body state pass)).1 = false := by
  constructor
  · intro few
    exact ⟨last, few, ends.ended few⟩
  · rintro ⟨pass, within, stops⟩
    have late : ¬ pass < last := by
      intro earlier
      rw [ends.earlier pass earlier] at stops
      cases stops
    omega

end

end Aple.Lib
