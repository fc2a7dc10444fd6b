/-
**C loops with explicit fuel.**

* `loop turn fuel state` — repeat `turn` until it leaves the loop with a result. A turn that fails
  (a null or dangling pointer read) and a loop that runs out of fuel both give `none`.
* `loop_mono`, `loop_agree` — more fuel never changes a result, so the result does not depend on it.
* **`loop_partial`** — an invariant gives the postcondition for whatever fuel gave a result.
* **`loop_total`** — an invariant that bounds the turns left gives a result with enough fuel, and
  the postcondition (`LoopSpec`).
* `Always` — every result of a loop meets a postcondition; `always_exit` and `always_again` follow a
  turn.
* `Yields` — the one result that enough fuel gives.
-/

import Mathlib.Data.Nat.Notation

namespace Aple.Lib

variable {State Result : Type}

/-- Repeat `turn`: `inl` goes round again, `inr` leaves the loop. -/
def loop (turn : State → Option (State ⊕ Result)) : ℕ → State → Option Result
  | 0, _ => none
  | fuel + 1, state =>
    match turn state with
    | none => none
    | some (.inr result) => some result
    | some (.inl state') => loop turn fuel state'

variable {turn : State → Option (State ⊕ Result)}

theorem loop_exit {fuel : ℕ} {state : State} {result : Result}
    (leaves : turn state = some (.inr result)) : loop turn (fuel + 1) state = some result := by
  simp only [loop, leaves]

theorem loop_again {fuel : ℕ} {state state' : State}
    (again : turn state = some (.inl state')) :
    loop turn (fuel + 1) state = loop turn fuel state' := by
  simp only [loop, again]

/-- More fuel never changes a result. -/
theorem loop_mono {fuel more : ℕ} {state : State} {result : Result}
    (returns : loop turn fuel state = some result) (enough : fuel ≤ more) :
    loop turn more state = some result := by
  induction fuel generalizing state more with
  | zero => simp [loop] at returns
  | succ fuel ih =>
    obtain ⟨more, rfl⟩ : ∃ rest, more = rest + 1 := ⟨more - 1, by omega⟩
    cases outcome : turn state with
    | none => simp [loop, outcome] at returns
    | some exit =>
      cases exit with
      | inl state' =>
        rw [loop_again outcome] at returns ⊢
        exact ih returns (by omega)
      | inr value =>
        rw [loop_exit outcome] at returns ⊢
        exact returns

/-- Two amounts of fuel that both suffice give the same result. -/
theorem loop_agree {fuel fuel' : ℕ} {state : State} {result result' : Result}
    (first : loop turn fuel state = some result) (second : loop turn fuel' state = some result') :
    result = result' := by
  have left := loop_mono first (Nat.le_max_left fuel fuel')
  have right := loop_mono second (Nat.le_max_right fuel fuel')
  exact Option.some.inj (left.symm.trans right)

/-- **Partial correctness of a loop**, whatever the fuel: a turn keeps the invariant or leaves with
the postcondition. -/
theorem loop_partial (Inv : State → Prop) (Post : Result → Prop)
    (turns : ∀ state out, Inv state → turn state = some out → out.elim Inv Post)
    {fuel : ℕ} {state : State} {result : Result} (holds : Inv state)
    (returns : loop turn fuel state = some result) : Post result := by
  induction fuel generalizing state with
  | zero => simp [loop] at returns
  | succ fuel ih =>
    cases outcome : turn state with
    | none => simp [loop, outcome] at returns
    | some out =>
      have good := turns state out holds outcome
      cases out with
      | inl state' =>
        rw [loop_again outcome] at returns
        exact ih good returns
      | inr value =>
        rw [loop_exit outcome] at returns
        exact Option.some.inj returns ▸ good

/-- Every result of the loop from this state meets the postcondition. -/
def Always (turn : State → Option (State ⊕ Result)) (Post : Result → Prop) (state : State) : Prop :=
  ∀ fuel result, loop turn fuel state = some result → Post result

theorem always_exit {Post : Result → Prop} {state : State} {result : Result}
    (leaves : turn state = some (.inr result)) : Always turn Post state ↔ Post result := by
  refine ⟨fun always => always 1 result (loop_exit leaves), fun good fuel other returns => ?_⟩
  have first : loop turn 1 state = some result := loop_exit leaves
  rw [← loop_agree first returns]
  exact good

theorem always_again {Post : Result → Prop} {state state' : State}
    (again : turn state = some (.inl state')) : Always turn Post state ↔ Always turn Post state' := by
  constructor
  · intro always fuel result returns
    exact always (fuel + 1) result ((loop_again again).trans returns)
  · intro always fuel result returns
    cases fuel with
    | zero => cases returns
    | succ fuel => exact always fuel result ((loop_again again).symm.trans returns)

/-- What a loop does from one state: it returns within `bound` turns, and whatever fuel it returns
with, the result meets the postcondition. -/
structure LoopSpec (turn : State → Option (State ⊕ Result)) (state : State) (bound : ℕ)
    (Post : Result → Prop) : Prop where
  returns : ∀ fuel, bound < fuel → ∃ result, loop turn fuel state = some result
  post : ∀ fuel result, loop turn fuel state = some result → Post result

/-- **Total correctness of a loop.** The invariant carries a bound on the turns that are left: every
turn succeeds, and one that goes round again leaves fewer of them. -/
theorem loop_total (Inv : ℕ → State → Prop) (Post : Result → Prop)
    (turns : ∀ bound state, Inv bound state → ∃ out, turn state = some out ∧
      out.elim (fun state' => ∃ bound' < bound, Inv bound' state') Post)
    {bound : ℕ} {state : State} (holds : Inv bound state) : LoopSpec turn state bound Post := by
  have ends : ∀ fuel bound state, Inv bound state → bound < fuel →
      ∃ result, loop turn fuel state = some result ∧ Post result := by
    intro fuel
    induction fuel with
    | zero => intro bound state _ none_left; omega
    | succ fuel ih =>
      intro bound state holds enough
      obtain ⟨out, outcome, good⟩ := turns bound state holds
      cases out with
      | inl state' =>
        obtain ⟨bound', fewer, holds'⟩ := good
        rw [loop_again outcome]
        exact ih bound' state' holds' (Nat.lt_of_lt_of_le fewer (Nat.lt_succ_iff.mp enough))
      | inr value => exact ⟨value, loop_exit outcome, good⟩
  refine ⟨fun fuel enough => ?_, fun fuel result returns => ?_⟩
  · obtain ⟨result, returns, -⟩ := ends fuel bound state holds enough
    exact ⟨result, returns⟩
  · obtain ⟨result', returns', good⟩ := ends (bound + 1) bound state holds (Nat.lt_succ_self _)
    exact loop_agree returns' returns ▸ good

/-- `result` is what enough fuel gives, and what any fuel gives that is enough. -/
structure Yields (run : ℕ → Option Result) (bound : ℕ) (result : Result) : Prop where
  enough : ∀ fuel, bound < fuel → run fuel = some result
  only : ∀ fuel other, run fuel = some other → other = result

theorem LoopSpec.yields {state : State} {bound : ℕ} {Post : Result → Prop}
    (spec : LoopSpec turn state bound Post) :
    ∃ result, Yields (fun fuel => loop turn fuel state) bound result ∧ Post result := by
  obtain ⟨result, returns⟩ := spec.returns (bound + 1) (Nat.lt_succ_self _)
  refine ⟨result, ⟨fun fuel enough => ?_, fun fuel other returns' => ?_⟩, spec.post _ _ returns⟩
  · obtain ⟨result', returns'⟩ := spec.returns fuel enough
    rw [loop_agree returns returns']
    exact returns'
  · exact loop_agree returns' returns

/-- A call that ends with what another one gives. -/
theorem Yields.map {Other : Type} {run : ℕ → Option Result} {bound : ℕ} {result : Result}
    (yields : Yields run bound result) (f : Result → Option Other) {after : Other}
    (ends : f result = some after) : Yields (fun fuel => (run fuel).bind f) bound after := by
  refine ⟨fun fuel enough => ?_, fun fuel other returns => ?_⟩
  · rw [yields.enough fuel enough]
    exact ends
  · obtain ⟨middle, first, second⟩ := Option.bind_eq_some_iff.mp returns
    rw [yields.only fuel middle first, ends] at second
    exact (Option.some.inj second).symm

end Aple.Lib
