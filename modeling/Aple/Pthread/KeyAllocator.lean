/-
**The key map as an allocator.**

* `KeyMap` — the keys that are allocated, each with its destructor; `KeyStep` — what creating and
  deleting a key do to one.
* `Represents` — the bits and the destructors of the code say what the map says.
* `keyMapSystem` — every order of calls, with the map the calls should lead to.
* **`key_map_allocates`** — the code represents that map in every run, and each call of
  `pthread_key_create` and `pthread_key_delete` is a step of it.

The keys deleted are allocated ones.
-/

import Aple.Lib.Claims
import Aple.Pthread.ThreadData

namespace Aple.Pthread

open Aple.Lib

/-! ### The allocator -/

/-- The allocated keys with what they were created with. -/
abbrev KeyMap (D : Type) := ℕ → Option D

/-- A call with its result. -/
inductive KeyOp (D : Type)
  | create (destructor : D) (key : Option ℕ)
  | delete (key : ℕ)

/-- An allocator of the keys below `bound`. Creating a key fails only when all are allocated. -/
inductive KeyStep {D : Type} (bound : ℕ) (map : KeyMap D) : KeyOp D → KeyMap D → Prop
  | created {key : ℕ} (destructor : D) : key < bound → map key = none →
      KeyStep bound map (.create destructor (some key)) (Function.update map key (some destructor))
  | exhausted (destructor : D) : (∀ key < bound, map key ≠ none) →
      KeyStep bound map (.create destructor none) map
  | deleted {key : ℕ} : map key ≠ none →
      KeyStep bound map (.delete key) (Function.update map key none)

variable {cfg : TsdConfig} {s after : TsdState cfg}

/-- The bits of the map and the destructors of the allocated keys. -/
structure Represents (s : TsdState cfg) (map : KeyMap (Pointer cfg)) : Prop where
  bits : ∀ key < cfg.keysMax, s.keyFree key = (map key).isNone
  inRange : ∀ key, map key ≠ none → key < cfg.keysMax
  destructors : ∀ key destructor, map key = some destructor → s.keyDestructor key = destructor

/-- The map after a call. -/
def keyMapAfter (s : TsdState cfg) (map : KeyMap (Pointer cfg)) : TsdEvent cfg → KeyMap (Pointer cfg)
  | .keyCreate destructor =>
    match (pthreadKeyCreate destructor s).1 with
    | some key => Function.update map key (some destructor)
    | none => map
  | .keyDelete key => Function.update map key none
  | _ => map

/-- Every order of calls, with the map. -/
def keyMapSystem (cfg : TsdConfig) : System (TsdState cfg × KeyMap (Pointer cfg)) (TsdEvent cfg) where
  init pair := (tsdSystem cfg).init pair.1 ∧ pair.2 = fun _ => none
  step pair event next :=
    tsdExec pair.1 event = some next.1 ∧ next.2 = keyMapAfter pair.1 pair.2 event

/-- Only allocated keys are deleted. -/
def DeletesAllocated (pair : TsdState cfg × KeyMap (Pointer cfg)) : TsdEvent cfg → Prop
  | .keyDelete key => pair.2 key ≠ none
  | _ => True

/-! ### The search -/

/-- A word that is not zero has a lowest bit. -/
theorem lsbitIndex_complete {mask : BitVec 32} (some_bit : mask ≠ 0) : lsbitIndex mask ≠ none := by
  intro nothing
  refine some_bit (BitVec.eq_of_getLsbD_eq fun i small => ?_)
  have clear := List.find?_eq_none.mp nothing i (List.mem_range.mpr small)
  simpa using clear

/-- The search fails only when no bit of the map is set. -/
theorem findKey_complete (nothing : findKey s = none) (key : ℕ)
    (inMap : key / keyMapTypeSize < cfg.keysMax / keyMapTypeSize) : s.keyFree key = false := by
  have here := List.findSome?_eq_none_iff.mp nothing (key / keyMapTypeSize)
    (List.mem_range.mpr inMap)
  by_cases zero : s.threadKey (key / keyMapTypeSize) = 0
  · rw [TsdState.keyFree, zero]
    exact BitVec.getLsbD_zero
  · rw [if_pos zero] at here
    exact absurd (Option.map_eq_none_iff.mp here) (lsbitIndex_complete zero)

/-- The words of the map hold exactly the keys when their number is a multiple of 32. -/
theorem word_inMap_iff (whole : keyMapTypeSize ∣ cfg.keysMax) (key : ℕ) :
    key / keyMapTypeSize < cfg.keysMax / keyMapTypeSize ↔ key < cfg.keysMax := by
  obtain ⟨words, keysMax⟩ := whole
  rw [keysMax, Nat.mul_div_cancel_left _ (by decide), Nat.div_lt_iff_lt_mul (by decide), Nat.mul_comm]

/-! ### One call -/

/-- `pthread_key_create` clears the bit of the key it found and installs the destructor. -/
theorem keyCreate_found {k : ℕ} (found : findKey s = some k) (destructor : Pointer cfg) :
    (pthreadKeyCreate destructor s).1 = some k ∧
      (∀ key, (pthreadKeyCreate destructor s).2.keyFree key =
        if key = k then false else s.keyFree key) ∧
      (pthreadKeyCreate destructor s).2.keyDestructor =
        Function.update s.keyDestructor k destructor := by
  simp only [pthreadKeyCreate, found]
  generalize created_eq : (TsdState.mk _ _ _ _ _ _ : TsdState cfg) = created
  obtain ⟨data, plants, -⟩ := plantNull_spec k (List.range threadsMax) created
  rw [plants]
  refine ⟨trivial, fun key => keyFree_clear k key ?_, ?_⟩
  · rw [← created_eq]
  · rw [← created_eq]

theorem keyCreate_none (nothing : findKey s = none) (destructor : Pointer cfg) :
    pthreadKeyCreate destructor s = (none, s) := by
  simp only [pthreadKeyCreate, nothing]

/-- `pthread_key_delete` sets the bit of the key. -/
theorem keyDelete_keyFree (k key : ℕ) :
    (pthreadKeyDelete k s).keyFree key = if key = k then true else s.keyFree key := by
  have update : (pthreadKeyDelete k s).threadKey = Function.update s.threadKey (k / keyMapTypeSize)
    (s.threadKey (k / keyMapTypeSize) ||| keyBit k) := rfl
  rw [TsdState.keyFree, update]
  by_cases word : key / keyMapTypeSize = k / keyMapTypeSize
  · rw [word, Function.update_self, BitVec.getLsbD_or, keyBit_getLsbD]
    by_cases bit : key % keyMapTypeSize = k % keyMapTypeSize
    · rw [if_pos (key_eq word bit)]
      simp [bit]
    · rw [if_neg fun same => bit (by rw [same]), TsdState.keyFree, word]
      simp [bit]
  · rw [Function.update_of_ne word, if_neg fun same => word (by rw [same]), TsdState.keyFree]

/-- The other calls do not touch the map. -/
theorem tsdExec_keys {event : TsdEvent cfg} (runs : tsdExec s event = some after)
    (noCreate : ∀ destructor, event ≠ .keyCreate destructor) (noDelete : ∀ key, event ≠ .keyDelete key) :
    after.threadKey = s.threadKey ∧ after.keyDestructor = s.keyDestructor := by
  cases event with
  | keyCreate destructor => exact absurd rfl (noCreate destructor)
  | keyDelete key => exact absurd rfl (noDelete key)
  | create status joinable freestack nthread taskInits memory =>
    simp only [tsdExec] at runs
    split at runs
    · cases runs
    · obtain ⟨⟨err, _⟩, creates, rfl⟩ := Option.map_eq_some_iff.mp runs
      rw [pthreadCreateData] at creates
      split at creates
      · cases creates
      · obtain ⟨-, rfl⟩ := Prod.mk.inj (Option.some.inj creates)
        exact ⟨rfl, rfl⟩
      · obtain ⟨-, rfl⟩ := Prod.mk.inj (Option.some.inj creates)
        exact ⟨rfl, rfl⟩
  | setspecific self key pointer =>
    simp only [tsdExec] at runs
    split at runs
    · obtain rfl := Option.some.inj runs
      rw [pthreadSetspecific]
      split <;> exact ⟨rfl, rfl⟩
    · cases runs
  | getspecific self key =>
    simp only [tsdExec] at runs
    split at runs
    · obtain rfl := Option.some.inj runs
      exact ⟨rfl, rfl⟩
    · cases runs
  | writeBehind slot value =>
    simp only [tsdExec] at runs
    split at runs
    · obtain rfl := Option.some.inj runs
      exact ⟨rfl, rfl⟩
    · cases runs

/-! ### The calls are steps of the allocator -/

variable {map : KeyMap (Pointer cfg)}

/-- A key that is not in the map of the allocator is one whose bit is set. -/
theorem Represents.keyFree_iff (rep : Represents s map) {key : ℕ} (inRange : key < cfg.keysMax) :
    s.keyFree key = true ↔ map key = none := by
  rw [rep.bits key inRange, Option.isNone_iff_eq_none]

theorem Represents.congr (rep : Represents s map)
    (same : after.threadKey = s.threadKey ∧ after.keyDestructor = s.keyDestructor) :
    Represents after map := by
  obtain ⟨keys, destructors⟩ := same
  refine ⟨fun key inRange => ?_, rep.inRange, fun key destructor holds => ?_⟩
  · rw [TsdState.keyFree, keys]
    exact rep.bits key inRange
  · rw [destructors]
    exact rep.destructors key destructor holds

/-- Creating a key fails exactly when all keys are allocated. -/
theorem Represents.create_none_iff (rep : Represents s map) (whole : keyMapTypeSize ∣ cfg.keysMax)
    (destructor : Pointer cfg) :
    (pthreadKeyCreate destructor s).1 = none ↔ ∀ key < cfg.keysMax, map key ≠ none := by
  cases found : findKey s with
  | none =>
    rw [keyCreate_none found]
    refine iff_of_true rfl fun key inRange unused => ?_
    have clear := findKey_complete found key ((word_inMap_iff whole key).mpr inRange)
    rw [(rep.keyFree_iff inRange).mpr unused] at clear
    cases clear
  | some k =>
    obtain ⟨inMap, free⟩ := findKey_spec found
    have inRange := (word_inMap_iff whole k).mp inMap
    rw [(keyCreate_found found destructor).1]
    refine iff_of_false (Option.some_ne_none k) fun full => ?_
    exact full k inRange ((rep.keyFree_iff inRange).mp free)

/-- **Creating a key.** -/
theorem Represents.create (rep : Represents s map) (whole : keyMapTypeSize ∣ cfg.keysMax)
    (destructor : Pointer cfg) :
    KeyStep cfg.keysMax map (.create destructor (pthreadKeyCreate destructor s).1)
        (keyMapAfter s map (.keyCreate destructor)) ∧
      Represents (pthreadKeyCreate destructor s).2 (keyMapAfter s map (.keyCreate destructor)) := by
  cases found : findKey s with
  | none =>
    have full := (rep.create_none_iff whole destructor).mp (by rw [keyCreate_none found])
    rw [keyMapAfter, keyCreate_none found]
    exact ⟨.exhausted destructor full, rep⟩
  | some k =>
    obtain ⟨inMap, free⟩ := findKey_spec found
    have inRange := (word_inMap_iff whole k).mp inMap
    obtain ⟨result, bits, destructors⟩ := keyCreate_found found destructor
    rw [keyMapAfter, result]
    dsimp only
    refine ⟨.created destructor inRange ((rep.keyFree_iff inRange).mp free), ?_, ?_, ?_⟩
    · intro key keyInRange
      rw [bits key]
      by_cases new : key = k
      · subst new
        rw [if_pos rfl, Function.update_self]
        rfl
      · rw [if_neg new, Function.update_of_ne new]
        exact rep.bits key keyInRange
    · intro key allocated
      by_cases new : key = k
      · exact new ▸ inRange
      · rw [Function.update_of_ne new] at allocated
        exact rep.inRange key allocated
    · intro key given holds
      rw [destructors]
      by_cases new : key = k
      · subst new
        rw [Function.update_self] at holds ⊢
        exact Option.some.inj holds
      · rw [Function.update_of_ne new] at holds ⊢
        exact rep.destructors key given holds

/-- **Deleting a key.** -/
theorem Represents.delete (rep : Represents s map) {k : ℕ} (allocated : map k ≠ none) :
    KeyStep cfg.keysMax map (.delete k) (Function.update map k none) ∧
      Represents (pthreadKeyDelete k s) (Function.update map k none) := by
  refine ⟨.deleted allocated, ?_, ?_, ?_⟩
  · intro key inRange
    rw [keyDelete_keyFree]
    by_cases deleted : key = k
    · subst deleted
      rw [if_pos rfl, Function.update_self]
      rfl
    · rw [if_neg deleted, Function.update_of_ne deleted]
      exact rep.bits key inRange
  · intro key remains
    refine rep.inRange key fun unused => remains ?_
    by_cases deleted : key = k
    · rw [deleted, Function.update_self]
    · rwa [Function.update_of_ne deleted]
  · intro key given holds
    exact rep.destructors key given (update_none_eq_some holds).2

/-- **One step** of the system keeps the map represented. -/
theorem represents_step (whole : keyMapTypeSize ∣ cfg.keysMax) (rep : Represents s map)
    {event : TsdEvent cfg} (allowed : DeletesAllocated (s, map) event)
    (runs : tsdExec s event = some after) : Represents after (keyMapAfter s map event) := by
  cases event with
  | keyCreate destructor =>
    obtain rfl := Option.some.inj runs
    exact (rep.create whole destructor).2
  | keyDelete key =>
    rw [tsdExec] at runs
    split at runs
    · obtain rfl := Option.some.inj runs
      exact (rep.delete allowed).2
    · cases runs
  | create | setspecific | getspecific | writeBehind =>
    exact rep.congr (tsdExec_keys runs (by simp) (by simp))

/-! ### Every run -/

/-- One more call of a run. -/
theorem keyMapSystem_next (reached : (keyMapSystem cfg).ReachableBy DeletesAllocated (s, map))
    (event : TsdEvent cfg) (allowed : DeletesAllocated (s, map) event) (runs : tsdExec s event = some after) :
    (keyMapSystem cfg).ReachableBy DeletesAllocated (after, keyMapAfter s map event) :=
  .next reached allowed ⟨runs, rfl⟩

/-- **The key map is an allocator.** In every run that deletes only allocated keys the bits and the
destructors represent the map the calls led to. `pthread_key_create` then fails exactly when all
keys are allocated, changing nothing; otherwise it and `pthread_key_delete` are steps of the
allocator. -/
theorem key_map_allocates (whole : keyMapTypeSize ∣ cfg.keysMax)
    (reached : (keyMapSystem cfg).ReachableBy DeletesAllocated (s, map)) :
    Represents s map ∧
      (∀ destructor,
        KeyStep cfg.keysMax map (.create destructor (pthreadKeyCreate destructor s).1)
          (keyMapAfter s map (.keyCreate destructor)) ∧
        Represents (pthreadKeyCreate destructor s).2 (keyMapAfter s map (.keyCreate destructor)) ∧
        ((pthreadKeyCreate destructor s).1 = none ↔ ∀ key < cfg.keysMax, map key ≠ none) ∧
        ((pthreadKeyCreate destructor s).1 = none → (pthreadKeyCreate destructor s).2 = s)) ∧
      ∀ key, map key ≠ none →
        KeyStep cfg.keysMax map (.delete key) (Function.update map key none) ∧
        Represents (pthreadKeyDelete key s) (Function.update map key none) := by
  have rep : Represents s map := by
    refine reached.invariant (fun pair => Represents pair.1 pair.2) ?_ ?_
    · rintro ⟨_, _⟩ ⟨⟨behind, blocks, words, destructors, memory, rfl⟩, rfl⟩
      refine ⟨fun key inRange => ?_, fun key allocated => absurd rfl allocated, by simp⟩
      have bit : key % keyMapTypeSize < 32 := Nat.mod_lt key (by decide)
      simp only [TsdState.keyFree, TsdState.initial, (word_inMap_iff whole key).mpr inRange, if_true]
      rw [BitVec.getLsbD_allOnes, decide_eq_true bit]
      rfl
    · rintro ⟨_, _⟩ event ⟨_, _⟩ - rep allowed ⟨runs, rfl⟩
      exact represents_step whole rep allowed runs
  refine ⟨rep, fun destructor => ?_, fun key allocated => rep.delete allocated⟩
  obtain ⟨step, next⟩ := rep.create whole destructor
  refine ⟨step, next, rep.create_none_iff whole destructor, fun fails => ?_⟩
  cases found : findKey s with
  | none => rw [keyCreate_none found]
  | some k =>
    rw [(keyCreate_found found destructor).1] at fails
    cases fails

/-- Two keys are created and the first is deleted; the next one created is the first again. -/
theorem key_map_allocates_example : ∃ s : TsdState smallConfig, ∃ map : KeyMap (Pointer smallConfig),
    Represents s map ∧ map 1 = some (fun _ => 7) ∧ map 0 = none ∧
      (pthreadKeyCreate null s).1 = some 0 := by
  have start : (keyMapSystem smallConfig).ReachableBy DeletesAllocated
    (TsdState.blank, fun _ => none) := .start ⟨blank_init, rfl⟩
  have first := keyMapSystem_next start (.keyCreate null) trivial rfl
  have second := keyMapSystem_next first (.keyCreate fun _ => 7) trivial rfl
  have third := keyMapSystem_next second (.keyDelete 0) (Option.some_ne_none null) rfl
  exact ⟨_, _, (key_map_allocates (by decide) third).1, rfl, rfl, rfl⟩

end Aple.Pthread
