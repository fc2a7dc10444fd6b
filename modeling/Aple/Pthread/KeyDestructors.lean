/-
**The destructors of thread-specific data at the end of a thread.**

* `destructorKey`, `destructorPass` — what `vxpth_pthread_exit` does with one key, and with all of
  them; a destructor does anything to the data, the keys and the rest of the world.
* `runDestructors` — the `do … while` around the passes (`Lib.doTurn`), with the calls it made.
* `Settled` — no allocated key with a destructor has a value.
* **`destructors_ok_iff`** — the loop keeps to `PTHREAD_DESTRUCTOR_ITERATIONS` passes if and only if
  the data is settled before the last of them. The counter is compared with `<=` after it was
  stepped, so that data which never settles gets one pass more.

`PTHREAD_DESTRUCTOR_ITERATIONS` is not fixed here.
-/

import Aple.Lib.DoWhile
import Aple.Pthread.ThreadData

namespace Aple.Pthread

open Aple.Lib

variable {cfg : TsdConfig} {World : Type}

/-! ### One key -/

/-- The null test of C. -/
def isNull (pointer : Pointer cfg) : Bool := decide (∀ byte, pointer byte = 0)

theorem isNull_iff {pointer : Pointer cfg} : isNull pointer = true ↔ pointer = null := by
  rw [isNull, decide_eq_true_iff, funext_iff]
  rfl

/-- What the functions at the addresses do with an argument: to the data and to the world. -/
abbrev Functions (cfg : TsdConfig) (World : Type) :=
  Pointer cfg → Pointer cfg → TsdState cfg × World → TsdState cfg × World

/-- A call of a destructor: what the slot of the key held, what was passed, and what the slot held
when the destructor started. -/
structure DestructorCall (cfg : TsdConfig) where
  key : ℕ
  held : Pointer cfg
  value : Pointer cfg
  left : Pointer cfg

/-- The body of the loop over the keys. -/
def destructorKey (functions : Functions cfg World) (thread : Addr) (key : ℕ)
    (w : TsdState cfg × World) : Option (DestructorCall cfg) × (TsdState cfg × World) :=
  if w.1.keyFree key then (none, w)
  else if isNull (w.1.keyDestructor key) then (none, w)
  else if isNull (w.1.threadData thread key) then (none, w)
  else
    let value := w.1.threadData thread key
    let cleared := Function.update (w.1.threadData thread) key null
    let s := { w.1 with threadData := Function.update w.1.threadData thread cleared }
    (some ⟨key, w.1.threadData thread key, value, s.threadData thread key⟩,
      functions (s.keyDestructor key) value (s, w.2))

/-- The loop over the keys. -/
def destructorKeys (functions : Functions cfg World) (thread : Addr) :
    List ℕ → TsdState cfg × World → List (DestructorCall cfg) × (TsdState cfg × World)
  | [], w => ([], w)
  | key :: rest, w =>
    let (call, w) := destructorKey functions thread key w
    let (calls, w) := destructorKeys functions thread rest w
    (call.toList ++ calls, w)

/-- One pass. -/
def destructorPass (functions : Functions cfg World) (thread : Addr) (w : TsdState cfg × World) :
    List (DestructorCall cfg) × (TsdState cfg × World) :=
  destructorKeys functions thread (List.range cfg.keysMax) w

/-- The calls of each pass so far. -/
abbrev Passes (cfg : TsdConfig) := List (List (DestructorCall cfg))

/-- The body of the outer loop; its first value is `destructors_called`. -/
def destructorBody (functions : Functions cfg World) (thread : Addr) :
    (TsdState cfg × World) × Passes cfg → Bool × ((TsdState cfg × World) × Passes cfg) :=
  fun (w, passes) =>
    let (calls, w) := destructorPass functions thread w
    (!calls.isEmpty, (w, passes ++ [calls]))

/-- The outer loop: the final value of `destructor_iterations`, the state, and the calls. -/
def runDestructors (iterationsMax : ℕ) (functions : Functions cfg World) (thread : Addr) (fuel : ℕ)
    (w : TsdState cfg × World) : Option (ℕ × (TsdState cfg × World) × Passes cfg) :=
  loop (doTurn (destructorBody functions thread) iterationsMax) fuel (0, (w, []))

/-! ### What the loop should do -/

/-- No allocated key with a destructor has a value. -/
def Settled (thread : Addr) (s : TsdState cfg) : Prop :=
  ∀ key < cfg.keysMax, s.keyFree key = false → s.keyDestructor key ≠ null →
    s.threadData thread key = null

/-- A destructor gets the value that the slot held, and finds the slot empty. -/
structure CallOk (call : DestructorCall cfg) : Prop where
  passed : call.value = call.held
  held : call.held ≠ null
  left : call.left = null

/-- There are at most so many passes, each call is right, and a loop that ends earlier leaves no
value. -/
structure DestructorsOk (iterationsMax : ℕ) (thread : Addr) (passes : Passes cfg)
    (after : TsdState cfg) : Prop where
  bounded : passes.length ≤ iterationsMax
  calls : ∀ calls ∈ passes, ∀ call ∈ calls, CallOk call
  complete : passes.length < iterationsMax → Settled thread after

/-- The data after a number of passes. -/
def settling (functions : Functions cfg World) (thread : Addr) (w : TsdState cfg × World)
    (passes : ℕ) : TsdState cfg :=
  ((fun w => (destructorPass functions thread w).2)^[passes] w).1

/-! ### One pass -/

section

variable {functions : Functions cfg World} {thread : Addr} {w : TsdState cfg × World}

/-- **One key**: nothing happens if it is free, has no destructor or no value; otherwise the
destructor is called in the right way. -/
theorem destructorKey_spec (functions : Functions cfg World) (thread : Addr)
    (w : TsdState cfg × World) (key : ℕ) :
    ((destructorKey functions thread key w).1 = none ∧ (destructorKey functions thread key w).2 = w ∧
      (w.1.keyFree key = false → w.1.keyDestructor key ≠ null → w.1.threadData thread key = null)) ∨
    ∃ call, (destructorKey functions thread key w).1 = some call ∧ CallOk call ∧
      w.1.keyFree key = false ∧ w.1.keyDestructor key ≠ null ∧ w.1.threadData thread key ≠ null := by
  unfold destructorKey
  by_cases free : w.1.keyFree key = true
  · rw [if_pos free]
    exact .inl ⟨rfl, rfl, fun allocated => by rw [free] at allocated; cases allocated⟩
  by_cases undestroyed : isNull (w.1.keyDestructor key) = true
  · rw [if_neg free, if_pos undestroyed]
    exact .inl ⟨rfl, rfl, fun _ destroyed => absurd (isNull_iff.mp undestroyed) destroyed⟩
  by_cases unset : isNull (w.1.threadData thread key) = true
  · rw [if_neg free, if_neg undestroyed, if_pos unset]
    exact .inl ⟨rfl, rfl, fun _ _ => isNull_iff.mp unset⟩
  · rw [if_neg free, if_neg undestroyed, if_neg unset]
    have value : w.1.threadData thread key ≠ null := fun same => unset (isNull_iff.mpr same)
    refine .inr ⟨_, rfl, ⟨rfl, value, ?_⟩, Bool.eq_false_iff.mpr free,
      fun same => undestroyed (isNull_iff.mpr same), value⟩
    show Function.update w.1.threadData thread _ thread key = null
    rw [Function.update_self, Function.update_self]

theorem destructorKeys_cons (key : ℕ) (rest : List ℕ) :
    (destructorKeys functions thread (key :: rest) w).1 =
      (destructorKey functions thread key w).1.toList ++
        (destructorKeys functions thread rest (destructorKey functions thread key w).2).1 := rfl

theorem destructorKeys_calls {keys : List ℕ} :
    ∀ call ∈ (destructorKeys functions thread keys w).1, CallOk call := by
  induction keys generalizing w with
  | nil =>
    intro call member
    cases member
  | cons key rest ih =>
    intro call member
    rw [destructorKeys_cons] at member
    rcases List.mem_append.mp member with now | later
    · rcases destructorKey_spec functions thread w key with
        ⟨none_made, -⟩ | ⟨made, makes, good, -⟩
      · rw [none_made] at now
        cases now
      · rw [makes, Option.mem_toList] at now
        exact Option.some.inj now ▸ good
    · exact ih call later

/-- **A pass that calls nothing** changes nothing and found nothing to be destroyed; the other way
round, it calls nothing if there is nothing to be destroyed. -/
theorem destructorKeys_quiet {keys : List ℕ} :
    (destructorKeys functions thread keys w).1 = [] ↔
      ∀ key ∈ keys, w.1.keyFree key = false → w.1.keyDestructor key ≠ null →
        w.1.threadData thread key = null := by
  induction keys with
  | nil => exact iff_of_true rfl fun key member => by cases member
  | cons key rest ih =>
    rw [destructorKeys_cons, List.append_eq_nil_iff, List.forall_mem_cons]
    rcases destructorKey_spec functions thread w key with
      ⟨none_made, same, empty⟩ | ⟨made, makes, -, allocated, destroyed, value⟩
    · rw [none_made, same, ih]
      exact and_congr_left fun _ => iff_of_true rfl empty
    · rw [makes]
      refine iff_of_false (fun both => ?_) fun both => value (both.1 allocated destroyed)
      cases both.1

theorem destructorPass_quiet (functions : Functions cfg World) :
    (destructorPass functions thread w).1 = [] ↔ Settled thread w.1 := by
  rw [destructorPass, destructorKeys_quiet]
  simp only [List.mem_range, Settled]

/-! ### The passes -/

/-- The calls of the passes do not matter to the state. -/
theorem afterPasses_state (passes : ℕ) (made : Passes cfg) :
    (afterPasses (destructorBody functions thread) (w, made) passes).1 =
      (fun w => (destructorPass functions thread w).2)^[passes] w := by
  induction passes with
  | zero => rfl
  | succ passes ih =>
    rw [afterPasses_succ, Function.iterate_succ_apply', ← ih]
    rfl

/-- A pass wants no other if and only if the data was settled before it. -/
theorem body_quiet (passes : ℕ) :
    (destructorBody functions thread (afterPasses (destructorBody functions thread) (w, []) passes)).1 =
      false ↔ Settled thread (settling functions thread w passes) := by
  rw [settling, ← afterPasses_state passes [], ← destructorPass_quiet functions]
  show (!List.isEmpty _) = false ↔ _
  rw [Bool.not_eq_false', List.isEmpty_iff]
  rfl

/-- A quiet pass leaves the data as it was. -/
theorem destructorKeys_still {keys : List ℕ} (quiet : (destructorKeys functions thread keys w).1 = []) :
    (destructorKeys functions thread keys w).2 = w := by
  induction keys generalizing w with
  | nil => rfl
  | cons key rest ih =>
    rw [destructorKeys_cons, List.append_eq_nil_iff] at quiet
    rcases destructorKey_spec functions thread w key with
      ⟨-, same, -⟩ | ⟨made, makes, -⟩
    · rw [same] at quiet
      show (destructorKeys functions thread rest (destructorKey functions thread key w).2).2 = w
      rw [same]
      exact ih quiet.2
    · rw [makes] at quiet
      cases quiet.1

theorem settling_still {passes : ℕ} (settled : Settled thread (settling functions thread w passes)) :
    settling functions thread w (passes + 1) = settling functions thread w passes := by
  unfold settling at settled ⊢
  rw [Function.iterate_succ_apply']
  exact congrArg Prod.fst (destructorKeys_still ((destructorPass_quiet functions).mpr settled))

/-- What is written down of the passes. -/
theorem afterPasses_made (functions : Functions cfg World) (thread : Addr)
    (w : TsdState cfg × World) (passes : ℕ) :
    (afterPasses (destructorBody functions thread) (w, []) passes).2.length = passes ∧
      ∀ calls ∈ (afterPasses (destructorBody functions thread) (w, []) passes).2,
        ∀ call ∈ calls, CallOk call := by
  induction passes with
  | zero => exact ⟨rfl, fun calls member => by cases member⟩
  | succ passes ih =>
    obtain ⟨length, good⟩ := ih
    rw [afterPasses_succ]
    generalize afterPasses (destructorBody functions thread) (w, []) passes = here at length good ⊢
    obtain ⟨middle, made⟩ := here
    refine ⟨?_, fun calls member => ?_⟩
    · show (made ++ [(destructorPass functions thread middle).1]).length = passes + 1
      rw [List.length_append, List.length_singleton]
      exact congrArg (· + 1) length
    · rcases List.mem_append.mp member with earlier | now
      · exact good calls earlier
      · rw [List.mem_singleton.mp now]
        exact destructorKeys_calls

/-- **The destructors at the end of a thread.** The loop ends; it keeps its promise if and only if
the data is settled before the last of the passes that are allowed. -/
theorem destructors_ok_iff (iterationsMax : ℕ) (functions : Functions cfg World) (thread : Addr)
    (w : TsdState cfg × World) : ∃ iterations after passes,
      Yields (fun fuel => runDestructors iterationsMax functions thread fuel w) (iterationsMax + 1)
        (iterations, after, passes) ∧ passes.length = iterations ∧
      (DestructorsOk iterationsMax thread passes after.1 ↔
        ∃ pass < iterationsMax, Settled thread (settling functions thread w pass)) := by
  obtain ⟨last, ends, yields⟩ := doWhile_spec (destructorBody functions thread) iterationsMax (w, [])
  obtain ⟨length, good⟩ := afterPasses_made functions thread w (last + 1)
  refine ⟨last + 1, _, _, yields, length, ?_⟩
  simp only [← body_quiet]
  rw [← doWhile_within_iff ends]
  constructor
  · intro ok
    rw [← length]
    exact ok.bounded
  · intro few
    refine ⟨length.trans_le few, good, fun _ => ?_⟩
    have settled := (body_quiet last).mp (ends.ended few)
    have final : (afterPasses (destructorBody functions thread) (w, []) (last + 1)).1.1 =
        settling functions thread w last :=
      (congrArg Prod.fst (afterPasses_state (last + 1) [])).trans (settling_still settled)
    show Settled thread (afterPasses (destructorBody functions thread) (w, []) (last + 1)).1.1
    rw [final]
    exact settled

end

/-- One key of 32 is allocated. Its destructor is at address 1, and the thread at 100 has a value. -/
def oneKey : TsdState ⟨32, 1⟩ where
  table := .initial (fun _ => none) fun _ => ⟨.free, 0, 0, false⟩
  threadKey _ := ~~~ 1
  keyDestructor key := if key = 0 then fun _ => 1 else null
  threadData thread key := if thread = 100 ∧ key = 0 then fun _ => 7 else null
  threads := [100]
  stored _ _ := none

/-- The destructor stores its argument again. -/
def storesAgain : Functions ⟨32, 1⟩ Unit := fun _ value w =>
  ((pthreadSetspecific 100 0 value w.1).2, w.2)

/-- **Data that never settles** gets five passes when four are allowed. -/
theorem fifth_pass : ∃ after passes,
    runDestructors 4 storesAgain 100 8 (oneKey, ()) = some (5, after, passes) ∧
      ¬ DestructorsOk 4 100 passes after.1 := by
  have count : (runDestructors 4 storesAgain 100 8 (oneKey, ())).map
      (fun result => (result.1, result.2.2.length)) = some (5, 5) := by decide +kernel
  obtain ⟨⟨iterations, after, passes⟩, returns, values⟩ := Option.map_eq_some_iff.mp count
  obtain ⟨rfl, length⟩ := Prod.mk.inj values
  refine ⟨after, passes, returns, fun ok => ?_⟩
  have bounded : passes.length ≤ 4 := ok.bounded
  have length : passes.length = 5 := length
  omega

end Aple.Pthread
