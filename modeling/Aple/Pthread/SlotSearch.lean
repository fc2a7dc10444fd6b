/-
**The search for a free slot of the thread table.**

* `tracedTurn` — a turn of the search, which writes down the index it looks at.
* `CreateOk` — the search of one call ends, looks only at slots of the table, fails exactly when all
  of them are occupied, and otherwise the new thread is stored in a slot that was free.
* `slotSystem` — every sequence of calls of `pthread_create`, between which slots are cleared in any
  way.
* **`create_slot_ok_iff`** — a call is of that kind if and only if the saved index is one of the
  table. It is not behind a call that took the last slot: `last_slot_leaves_table`.
-/

import Aple.Pthread.Reaper

namespace Aple.Pthread

open Aple.Lib

variable {s reaped : PthreadState}

/-! ### The record -/

/-- The index where the search is, and the indices it looked at; it leaves with what it found. -/
def tracedTurn (s : PthreadState) :
    ℕ × List ℕ → Option ((ℕ × List ℕ) ⊕ (Option ℕ × List ℕ)) := fun (threadNext, touched) =>
  match slotTurn s threadNext with
  | none => none
  | some (.inl next) => some (.inl (next, threadNext :: touched))
  | some (.inr found) => some (.inr (found, threadNext :: touched))

/-- Every slot of the table holds a thread. -/
def Full (s : PthreadState) : Prop := ∀ slot < threadsMax, s.threadTable slot ≠ none

/-- What the search of a call should do; `reaped` is the state after the reaper. -/
def CreateOk (status : TaskStatus) (joinable freestack : Bool) (nthread : Addr) (taskInits : Bool)
    (s reaped : PthreadState) : Prop :=
  ∃ bound found touched,
    Yields (fun fuel => loop (tracedTurn reaped) fuel (reaped.threadInfoNext, [])) bound
      (found, touched) ∧
    (∀ slot ∈ touched, slot < threadsMax) ∧ (found = none ↔ Full reaped) ∧
    match found with
    | none => pthreadCreate status joinable freestack nthread taskInits s =
        some (.enomem, if freestack then reaped.freeStack nthread else reaped)
    | some slot => slot < threadsMax ∧ reaped.threadTable slot = none ∧
        ∃ err after, err ≠ .enomem ∧
          pthreadCreate status joinable freestack nthread taskInits s = some (err, after) ∧
          after.threadTable = Function.update reaped.threadTable slot (some nthread)

/-- A call, or a change of the state that keeps the saved index and clears any slots. -/
inductive SlotEvent
  | create (status : TaskStatus) (joinable freestack : Bool) (nthread : Addr) (taskInits : Bool)
  | reap

/-- Every sequence of calls and clearings, from an empty table. -/
def slotSystem : System PthreadState SlotEvent where
  init s := (∀ slot < threadsMax, s.threadTable slot = none) ∧ s.threadInfoNext = 0
  step s event after :=
    match event with
    | .create status joinable freestack nthread taskInits =>
      (pthreadCreate status joinable freestack nthread taskInits s).map Prod.snd = some after
    | .reap => after.threadInfoNext = s.threadInfoNext ∧ ∀ slot < threadsMax,
        after.threadTable slot = s.threadTable slot ∨ after.threadTable slot = none

/-- The condition on the calls. -/
def NextInTable (s : PthreadState) : SlotEvent → Prop
  | .create .. => s.threadInfoNext < threadsMax
  | .reap => True

/-! ### The trace -/

/-- Without the record the traced search is the one of `pthread_create`. -/
theorem traced_loop (fuel threadNext : ℕ) (touched : List ℕ) :
    (loop (tracedTurn s) fuel (threadNext, touched)).map Prod.fst =
      loop (slotTurn s) fuel threadNext := by
  induction fuel generalizing threadNext touched with
  | zero => rfl
  | succ fuel ih =>
    rw [loop, loop, tracedTurn]
    cases slotTurn s threadNext with
    | none => rfl
    | some out =>
      cases out with
      | inl next => exact ih next _
      | inr found => rfl

/-- The search looks at the index it starts from. -/
theorem traced_start {fuel threadNext : ℕ} {found : Option ℕ} {touched : List ℕ}
    (returns : loop (tracedTurn s) fuel (threadNext, []) = some (found, touched)) :
    threadNext ∈ touched := by
  refine loop_partial (fun here : ℕ × List ℕ => here.1 = threadNext ∨ threadNext ∈ here.2)
    (fun result : Option ℕ × List ℕ => threadNext ∈ result.2) ?_ (.inl rfl) returns
  rintro ⟨index, earlier⟩ out seen turn
  have now : threadNext ∈ index :: earlier := by
    rcases seen with rfl | before
    · exact List.mem_cons_self
    · exact List.mem_cons_of_mem _ before
  rw [tracedTurn] at turn
  cases outcome : slotTurn s index with
  | none =>
    rw [outcome] at turn
    cases turn
  | some next =>
    rw [outcome] at turn
    cases next with
    | inl next =>
      obtain rfl := Option.some.inj turn
      exact .inr now
    | inr found =>
      obtain rfl := Option.some.inj turn
      exact now

/-! ### The search -/

theorem slotAfter_eq {index : ℕ} (low : index < threadsMax) :
    slotAfter index = (index + 1) % threadsMax := by
  unfold slotAfter
  split
  · rw [show index + 1 = threadsMax by omega, Nat.mod_self]
  · rw [Nat.mod_eq_of_lt (by omega)]

/-- Where the search is after some turns. -/
def slotAt (start turns : ℕ) : ℕ := (start + turns) % threadsMax

theorem slotAt_lt (start turns : ℕ) : slotAt start turns < threadsMax :=
  Nat.mod_lt _ (by decide)

theorem slotAfter_slotAt (start turns : ℕ) :
    slotAfter (slotAt start turns) = slotAt start (turns + 1) := by
  rw [slotAfter_eq (slotAt_lt start turns), slotAt, slotAt, Nat.mod_add_mod, Nat.add_assoc]

/-- Going once round comes by every slot. -/
theorem slotAt_covers {start slot : ℕ} (inTable : start < threadsMax) (low : slot < threadsMax) :
    ∃ turns < threadsMax, slotAt start turns = slot := by
  unfold slotAt
  by_cases before : start ≤ slot
  · exact ⟨slot - start, by omega, by rw [Nat.add_sub_cancel' before, Nat.mod_eq_of_lt low]⟩
  · refine ⟨slot + threadsMax - start, by omega, ?_⟩
    rw [show start + (slot + threadsMax - start) = slot + threadsMax by omega, Nat.add_mod_right,
      Nat.mod_eq_of_lt low]

/-- The search is back at its start exactly after going once round. -/
theorem slotAt_succ_eq_iff {start turns : ℕ} (inTable : start < threadsMax)
    (few : turns < threadsMax) : slotAt start (turns + 1) = start ↔ turns + 1 = threadsMax := by
  unfold slotAt
  constructor
  · intro back
    by_contra more
    by_cases wraps : start + (turns + 1) < threadsMax
    · rw [Nat.mod_eq_of_lt wraps] at back
      omega
    · rw [Nat.mod_eq_sub_mod (by omega), Nat.mod_eq_of_lt (by omega)] at back
      omega
  · intro round
    rw [round, Nat.add_mod_right, Nat.mod_eq_of_lt inTable]

/-- What the search leaves with. -/
structure Found (s : PthreadState) (result : Option ℕ × List ℕ) : Prop where
  touched : ∀ slot ∈ result.2, slot < threadsMax
  free : ∀ slot, result.1 = some slot → slot < threadsMax ∧ s.threadTable slot = none
  full : result.1 = none → Full s

/-- Where the search is after some turns: the slots it looked at are occupied, and some are left. -/
structure Searching (s : PthreadState) (left : ℕ) (here : ℕ × List ℕ) : Prop where
  touched : ∀ slot ∈ here.2, slot < threadsMax
  at_turn : ∃ turns, turns + left = threadsMax ∧ 0 < left ∧ here.1 = slotAt s.threadInfoNext turns ∧
    ∀ before < turns, s.threadTable (slotAt s.threadInfoNext before) ≠ none

/-- **The search** from an index of the table ends with a free slot, or with none in a full
table. -/
theorem search_spec (inTable : s.threadInfoNext < threadsMax) :
    LoopSpec (tracedTurn s) (s.threadInfoNext, []) threadsMax (Found s) := by
  refine loop_total (Searching s) (Found s) ?_ ⟨by simp, 0, rfl, by decide, ?_, by simp⟩
  · rintro left ⟨_, earlier⟩ ⟨touched, turns, total, some_left, rfl, occupied⟩
    have now : ∀ slot ∈ slotAt s.threadInfoNext turns :: earlier, slot < threadsMax := by
      intro slot member
      rcases List.mem_cons.mp member with rfl | before
      · exact slotAt_lt _ _
      · exact touched slot before
    by_cases free : s.threadTable (slotAt s.threadInfoNext turns) = none
    · refine ⟨.inr (some (slotAt s.threadInfoNext turns), slotAt s.threadInfoNext turns :: earlier),
        ?_, now, ?_, by simp⟩
      · simp only [tracedTurn, slotTurn, if_pos free]
      · rintro _ ⟨⟩
        exact ⟨slotAt_lt _ _, free⟩
    · have occupied' : ∀ before < turns + 1,
          s.threadTable (slotAt s.threadInfoNext before) ≠ none := by
        intro before earlier
        by_cases last : before = turns
        · exact last ▸ free
        · exact occupied before (by omega)
      by_cases round : turns + 1 = threadsMax
      · have back := (slotAt_succ_eq_iff inTable (by omega)).mpr round
        refine ⟨.inr (none, slotAt s.threadInfoNext turns :: earlier), ?_, now, by simp, fun _ => ?_⟩
        · simp only [tracedTurn, slotTurn, if_neg free, slotAfter_slotAt, if_pos back]
        · intro slot low
          obtain ⟨before, few, rfl⟩ := slotAt_covers inTable low
          exact occupied' before (by omega)
      · have more : slotAt s.threadInfoNext (turns + 1) ≠ s.threadInfoNext := by
          rwa [Ne, slotAt_succ_eq_iff inTable (by omega)]
        refine ⟨.inl (slotAt s.threadInfoNext (turns + 1), slotAt s.threadInfoNext turns :: earlier),
          ?_, left - 1, by omega, now, turns + 1, by omega, by omega, rfl, occupied'⟩
        simp only [tracedTurn, slotTurn, if_neg free, slotAfter_slotAt, if_neg more]
  · exact (Nat.mod_eq_of_lt inTable).symm

/-- The search of `pthread_create` finds what the traced one finds. -/
theorem search_finds (inTable : s.threadInfoNext < threadsMax) : ∃ found touched,
    Yields (fun fuel => loop (tracedTurn s) fuel (s.threadInfoNext, [])) threadsMax (found, touched) ∧
      Found s (found, touched) ∧ findSlot s = some found := by
  obtain ⟨⟨found, touched⟩, yields, spec⟩ := (search_spec inTable).yields
  refine ⟨found, touched, yields, spec, ?_⟩
  rw [findSlot, ← traced_loop _ _ [], yields.enough (threadsMax + 2) (by omega)]
  rfl

/-! ### One call -/

/-- The call behind the search. -/
theorem pthreadCreate_found {status : TaskStatus} (reaps : pthreadReap status s = some reaped)
    (joinable freestack : Bool) (nthread : Addr) (taskInits : Bool) {found : Option ℕ}
    (finds : findSlot reaped = some found) :
    match found with
    | none => pthreadCreate status joinable freestack nthread taskInits s =
        some (.enomem, if freestack then reaped.freeStack nthread else reaped)
    | some slot => ∃ err after, err ≠ .enomem ∧
        pthreadCreate status joinable freestack nthread taskInits s = some (err, after) ∧
        after.threadTable = Function.update reaped.threadTable slot (some nthread) ∧
        after.threadInfoNext = slot + 1 := by
  cases found with
  | none => simp only [pthreadCreate, reaps, finds]
  | some slot =>
    simp only [pthreadCreate, reaps, finds]
    cases taskInits with
    | true => exact ⟨_, _, by simp, rfl, rfl, rfl⟩
    | false =>
      refine ⟨_, _, by simp, rfl, ?_, ?_⟩
      · cases freestack <;> rfl
      · cases freestack <;> rfl

/-- **One call** searches in the table if and only if the saved index is one of the table. -/
theorem createOk_iff {status : TaskStatus} (reaps : pthreadReap status s = some reaped)
    (joinable freestack : Bool) (nthread : Addr) (taskInits : Bool) :
    CreateOk status joinable freestack nthread taskInits s reaped ↔ s.threadInfoNext < threadsMax := by
  rw [← (pthreadReap_pass reaps).next]
  constructor
  · rintro ⟨bound, found, touched, yields, inTable, -⟩
    exact inTable _ (traced_start (yields.enough (bound + 1) (Nat.lt_succ_self bound)))
  · intro inTable
    obtain ⟨found, touched, yields, spec, finds⟩ := search_finds inTable
    have call := pthreadCreate_found reaps joinable freestack nthread taskInits finds
    refine ⟨threadsMax, found, touched, yields, spec.touched, ?_, ?_⟩
    · refine ⟨spec.full, fun full => ?_⟩
      by_contra some_slot
      obtain ⟨slot, holds⟩ := Option.ne_none_iff_exists'.mp some_slot
      obtain ⟨low, free⟩ := spec.free slot holds
      exact full slot low free
    · cases found with
      | none => exact call
      | some slot =>
        obtain ⟨low, free⟩ := spec.free slot rfl
        obtain ⟨err, after, differs, returns, table, -⟩ := call
        exact ⟨low, free, err, after, differs, returns, table⟩

/-- A call that meets the condition leaves an index of the table, or the one behind it. -/
theorem create_next {status : TaskStatus} {joinable freestack taskInits : Bool} {nthread : Addr}
    {err : Errno} {after : PthreadState} (inTable : s.threadInfoNext < threadsMax)
    (returns : pthreadCreate status joinable freestack nthread taskInits s = some (err, after)) :
    after.threadInfoNext ≤ threadsMax := by
  cases reaps : pthreadReap status s with
  | none =>
    rw [pthreadCreate, reaps] at returns
    cases returns
  | some reaped =>
    have inTable' : reaped.threadInfoNext < threadsMax := (pthreadReap_pass reaps).next ▸ inTable
    obtain ⟨found, touched, -, spec, finds⟩ := search_finds inTable'
    have call := pthreadCreate_found reaps joinable freestack nthread taskInits finds
    cases found with
    | none =>
      rw [returns] at call
      obtain ⟨-, rfl⟩ := Prod.mk.inj (Option.some.inj call)
      cases freestack <;> exact inTable'.le
    | some slot =>
      obtain ⟨_, _, -, returns', -, next'⟩ := call
      obtain ⟨-, rfl⟩ := Prod.mk.inj (Option.some.inj (returns.symm.trans returns'))
      rw [next']
      exact (spec.free slot rfl).1

/-! ### Every run -/

/-- **The calls of a run.** As long as the saved index is one of the table at each call, the calls
search and store in the table; the next call does so if and only if the index still is one. -/
theorem create_slot_ok_iff (reached : slotSystem.ReachableBy NextInTable s) :
    s.threadInfoNext ≤ threadsMax ∧
      ∀ status joinable freestack nthread taskInits reaped, pthreadReap status s = some reaped →
        (CreateOk status joinable freestack nthread taskInits s reaped ↔
          s.threadInfoNext < threadsMax) := by
  refine ⟨?_, fun status joinable freestack nthread taskInits reaped reaps =>
    createOk_iff reaps joinable freestack nthread taskInits⟩
  refine reached.invariant (fun s => s.threadInfoNext ≤ threadsMax) ?_ ?_
  · rintro s ⟨-, next⟩
    rw [next]
    exact Nat.zero_le _
  · intro s event after _ low meets step
    cases event with
    | create status joinable freestack nthread taskInits =>
      obtain ⟨⟨err, _⟩, returns, rfl⟩ := Option.map_eq_some_iff.mp step
      exact create_next meets returns
    | reap => exact step.1.trans_le low

/-- Nothing in the table, and nothing behind it. -/
def PthreadState.blank : PthreadState := .initial (fun _ => none) fun _ => ⟨.free, 0, 0, false⟩

theorem blank_slots : slotSystem.init PthreadState.blank := by
  refine ⟨fun slot low => ?_, rfl⟩
  exact if_pos low

theorem create_slot_ok_first : CreateOk (fun _ => none) true true 1 true .blank .blank :=
  ((create_slot_ok_iff (.start blank_slots)).2 _ _ _ _ _ _ rfl).mpr (by decide)

/-- One call after the other, with blocks at the given addresses. -/
def createAll (s : PthreadState) : List Addr → Option PthreadState
  | [] => some s
  | nthread :: rest =>
    (pthreadCreate (fun _ => none) true true nthread true s).bind fun (_, s) => createAll s rest

theorem createAll_reachable {nthreads : List Addr} {after : PthreadState}
    (reached : slotSystem.Reachable s) (runs : createAll s nthreads = some after) :
    slotSystem.Reachable after := by
  induction nthreads generalizing s with
  | nil => exact Option.some.inj runs ▸ reached
  | cons nthread rest ih =>
    obtain ⟨⟨err, middle⟩, creates, others⟩ := Option.bind_eq_some_iff.mp runs
    refine ih (reached.by_event (.create (fun _ => none) true true nthread true) trivial ?_) others
    show (pthreadCreate (fun _ => none) true true nthread true s).map Prod.snd = some middle
    rw [creates]
    rfl

/-- The reaper has nothing to do when no thread has exited. -/
theorem pthreadReap_none {status : TaskStatus} (none_left : s.pthreadsExited ≤ 0) :
    pthreadReap status s = some s :=
  if_neg (Int.not_lt.mpr none_left)

/-- **The call behind the one that took the last slot** starts its search at the word behind the
table, and when that is null it stores the new thread there. -/
theorem last_slot_leaves_table : ∃ s after, slotSystem.Reachable s ∧
    pthreadReap (fun _ => none) s = some s ∧
    ¬ CreateOk (fun _ => none) true true 100 true s s ∧
    pthreadCreate (fun _ => none) true true 100 true s = some (.ok, after) ∧
    after.threadTable threadsMax = some 100 := by
  have facts : (createAll .blank (List.range threadsMax)).map (fun s => (s.threadInfoNext,
      s.pthreadsExited, (pthreadCreate (fun _ => none) true true 100 true s).map
        fun (err, after) => (err, after.threadTable threadsMax))) =
      some (threadsMax, 0, some (.ok, some 100)) := by decide +kernel
  obtain ⟨s, runs, values⟩ := Option.map_eq_some_iff.mp facts
  obtain ⟨next, rest⟩ := Prod.mk.inj values
  obtain ⟨exited, last⟩ := Prod.mk.inj rest
  obtain ⟨⟨err, after⟩, creates, result⟩ := Option.map_eq_some_iff.mp last
  obtain ⟨rfl, stored⟩ := Prod.mk.inj result
  refine ⟨s, after, createAll_reachable (.start blank_slots) runs, pthreadReap_none exited.le, ?_,
    creates, stored⟩
  rintro ⟨bound, found, touched, yields, inTable, -⟩
  have start := traced_start (yields.enough (bound + 1) (Nat.lt_succ_self bound))
  exact absurd (inTable _ start) (Nat.not_lt.mpr next.ge)

end Aple.Pthread
