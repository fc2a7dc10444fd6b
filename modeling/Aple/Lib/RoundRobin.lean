/-
**Round robin over numbered slots.**

* `searchTurn` — one turn of a circular search: stop at a hit, or when the next slot is the one the
  search began at.
* **`search_spec`** — the search ends within `N` turns with the first hit of the circle.
* `Rotation` — a system that serves slots from a start position, which advances by one slot with
  every service, whichever slot is served.
* **`Rotation.fair`** — a slot that waits all the time is served by the `N`-th service.
-/

import Aple.Lib.Loop
import Mathlib.Tactic.Common

namespace Aple.Lib.RoundRobin

variable {N start : ℕ} {test : ℕ → Bool}

/-! ### The circular search -/

/-- One turn of the search from `start`, at `slot`; `none` stands for a full circle. -/
def searchTurn (test : ℕ → Bool) (N start slot : ℕ) : Option (ℕ ⊕ Option ℕ) :=
  if test slot then some (.inr (some slot))
  else
    let slot := (slot + 1) % N
    if slot = start then some (.inr none) else some (.inl slot)

/-- The slots in the order in which a search from `start` meets them. -/
def circle (N start : ℕ) : List ℕ := (List.range N).map fun i => (start + i) % N

/-- Every slot is met. -/
theorem exists_turn {k : ℕ} (inside : start < N) (slot : k < N) : ∃ i < N, (start + i) % N = k := by
  by_cases ahead : start ≤ k
  · refine ⟨k - start, by omega, ?_⟩
    rw [Nat.add_sub_cancel' ahead, Nat.mod_eq_of_lt slot]
  · refine ⟨k + N - start, by omega, ?_⟩
    rw [Nat.add_sub_cancel' (by omega), Nat.add_mod_right, Nat.mod_eq_of_lt slot]

theorem mem_circle {k : ℕ} (inside : start < N) (slot : k < N) : k ∈ circle N start := by
  obtain ⟨i, early, rfl⟩ := exists_turn inside slot
  exact List.mem_map.mpr ⟨i, List.mem_range.mpr early, rfl⟩

theorem lt_of_mem_circle {k : ℕ} (member : k ∈ circle N start) : k < N := by
  obtain ⟨i, early, rfl⟩ := List.mem_map.mp member
  exact Nat.mod_lt _ (Nat.zero_lt_of_lt (List.mem_range.mp early))

/-- The next slot is the start again exactly at the end of the circle. -/
theorem next_eq_start {i : ℕ} (inside : start < N) (early : i < N) :
    ((start + i) % N + 1) % N = start ↔ i + 1 = N := by
  rw [Nat.mod_add_mod, Nat.add_assoc]
  constructor
  · intro same
    by_contra notLast
    by_cases wraps : start + (i + 1) < N
    · rw [Nat.mod_eq_of_lt wraps] at same
      omega
    · rw [Nat.mod_eq_sub_mod (by omega), Nat.mod_eq_of_lt (by omega)] at same
      omega
  · intro last
    rw [last, Nat.add_mod_right, Nat.mod_eq_of_lt inside]

/-- **The search** looks at every slot once, in the order of the circle. -/
theorem search_spec (test : ℕ → Bool) (inside : start < N) :
    LoopSpec (searchTurn test N start) start (N - 1)
      (fun found => found = (circle N start).find? test) := by
  refine loop_total (fun bound slot => ∃ i < N, bound = N - 1 - i ∧ slot = (start + i) % N ∧
    ((List.range i).map fun j => (start + j) % N).find? test = none) _ ?_
    ⟨0, by omega, rfl, by rw [Nat.add_zero, Nat.mod_eq_of_lt inside], rfl⟩
  rintro bound slot ⟨i, early, rfl, rfl, missed⟩
  have split : circle N start = ((List.range i).map fun j => (start + j) % N) ++
      (start + i) % N :: ((List.range (N - 1 - i)).map fun j => (start + (i + 1 + j)) % N) := by
    have count : N = i + (1 + (N - 1 - i)) := by omega
    have whole : List.range N = List.range i ++
        i :: (List.range (N - 1 - i)).map fun j => i + 1 + j := by
      conv_lhs => rw [count, List.range_add, List.range_add]
      rw [List.range_one, List.map_append, List.map_map]
      refine congrArg (List.range i ++ ·) ?_
      rw [List.map_singleton, List.singleton_append, Nat.add_zero]
      refine congrArg (i :: ·) (List.map_congr_left fun j _ => ?_)
      exact (Nat.add_assoc i 1 j).symm
    rw [circle, whole, List.map_append, List.map_cons, List.map_map]
    rfl
  unfold searchTurn
  by_cases hit : test ((start + i) % N) = true
  · refine ⟨_, if_pos hit, ?_⟩
    show some _ = _
    rw [split, List.find?_append, missed, List.find?_cons_of_pos hit]
    rfl
  · rw [if_neg hit]
    by_cases last : i + 1 = N
    · refine ⟨_, if_pos ((next_eq_start inside early).mpr last), ?_⟩
      show none = _
      have none_left : N - 1 - i = 0 := by omega
      rw [split, List.find?_append, missed, List.find?_cons_of_neg hit, none_left]
      rfl
    · refine ⟨_, if_neg ((next_eq_start inside early).not.mpr last), N - 1 - (i + 1), by omega,
        i + 1, by omega, rfl, by rw [Nat.mod_add_mod, Nat.add_assoc], ?_⟩
      rw [List.range_succ, List.map_append, List.find?_append, missed, List.map_singleton,
        List.find?_cons_of_neg hit]
      rfl

/-- **With something to find**, `N` turns end at a hit. -/
theorem search_finds (inside : start < N) (pending : ∃ k < N, test k = true) :
    ∃ slot < N, test slot = true ∧ loop (searchTurn test N start) N start = some (some slot) := by
  have spec := search_spec test inside
  obtain ⟨found, returns⟩ := spec.returns N (by omega)
  obtain ⟨k, slot, hit⟩ := pending
  have result := spec.post N found returns
  rcases found with _ | found
  · have missed := List.find?_eq_none.mp result.symm k (mem_circle inside slot)
    exact absurd hit missed
  · exact ⟨found, lt_of_mem_circle (List.mem_of_find?_eq_some result.symm),
      List.find?_some result.symm, returns⟩

/-- The slot at the start is looked at first. -/
theorem search_at_start {fuel : ℕ} (hit : test start = true) :
    loop (searchTurn test N start) (fuel + 1) start = some (some start) :=
  loop_exit (if_pos hit)

/-! ### Fairness -/

variable {State Event : Type}

/-- A system that serves slots. The position moves by one slot with every service and never
otherwise; a slot that waits while the position is on it is the one served. -/
structure Rotation (N : ℕ) (exec : State → Event → Option State) (pos : State → ℕ)
    (served : State → Event → Option ℕ) (waits : ℕ → State → Event → Prop) : Prop where
  idle : ∀ {state event after}, exec state event = some after → served state event = none →
    pos after = pos state
  turn : ∀ {state event after slot k}, waits k state event → exec state event = some after →
    served state event = some slot → pos after = (pos state + 1) % N
  first : ∀ {state event slot}, served state event = some slot → waits (pos state) state event →
    slot = pos state

/-- The slots served in a run, in order. -/
def services (exec : State → Event → Option State) (served : State → Event → Option ℕ)
    (state : State) : List Event → List ℕ
  | [] => []
  | event :: rest =>
    match exec state event with
    | none => []
    | some after => (served state event).toList ++ services exec served after rest

/-- A condition that every event of a run meets in the state it starts from. -/
def Throughout (exec : State → Event → Option State) (meets : State → Event → Prop)
    (state : State) : List Event → Prop
  | [] => True
  | event :: rest =>
    meets state event ∧ ∀ after, exec state event = some after → Throughout exec meets after rest

variable {exec : State → Event → Option State} {pos : State → ℕ}
  {served : State → Event → Option ℕ} {waits : ℕ → State → Event → Prop}

/-- A waiting slot is served when the position comes to it. -/
theorem Rotation.served_at (rotation : Rotation N exec pos served waits) {k : ℕ}
    {events : List Event} {state : State} {j : ℕ}
    (waiting : Throughout exec (waits k) state events)
    (count : j < (services exec served state events).length) (position : (pos state + j) % N = k)
    (inside : pos state < N) : (services exec served state events)[j]? = some k := by
  induction events generalizing state j with
  | nil => cases count
  | cons event rest ih =>
    obtain ⟨now, later⟩ := waiting
    unfold services at count ⊢
    cases ran : exec state event with
    | none =>
      rw [ran] at count
      cases count
    | some after =>
      rw [ran] at count
      cases service : served state event with
      | none =>
        -- nothing is served, and the position stays
        have same := rotation.idle ran service
        rw [service] at count
        rw [← same] at position inside
        exact ih (later after ran) count position inside
      | some slot =>
        rw [service] at count
        cases j with
        | zero =>
          rw [Nat.add_zero, Nat.mod_eq_of_lt inside] at position
          subst position
          rw [rotation.first service now]
          rfl
        | succ j =>
          have moved := rotation.turn now ran service
          refine ih (later after ran) (by simpa using count) ?_ ?_
          · rw [moved, Nat.mod_add_mod, Nat.add_assoc, Nat.add_comm 1 j]
            exact position
          · rw [moved]
            exact Nat.mod_lt _ (Nat.zero_lt_of_lt inside)

/-- **Fairness**: among `N` services is one of the waiting slot. -/
theorem Rotation.fair (rotation : Rotation N exec pos served waits) {k : ℕ} (slot : k < N)
    {events : List Event} {state : State} (waiting : Throughout exec (waits k) state events)
    (inside : pos state < N) (count : N ≤ (services exec served state events).length) :
    ∃ j < N, (services exec served state events)[j]? = some k := by
  obtain ⟨j, early, position⟩ := exists_turn inside slot
  exact ⟨j, early, rotation.served_at waiting (Nat.lt_of_lt_of_le early count) position inside⟩

end Aple.Lib.RoundRobin
