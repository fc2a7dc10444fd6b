/-
**Thread-specific data.**

* `Pointer` — a value of type `void*`, byte for byte; `TsdState` — the thread table, the key map,
  the data slots of every control block, and what each thread stored under a key since its creation.
* `pthreadKeyCreate`, `pthreadKeyDelete`, `pthreadSetspecific`, `pthreadGetspecific`, and
  `pthreadCreateData`, which is `pthread_create` with the `memset` of the new block.
* `TsdOk` — every running thread reads what it stored under an allocated key, or null.
* `Clean` — the condition on the steps: what the `memset` leaves of an allocated slot is null, and a
  thread that is not in the table has null in the slot of a new key.
* **`thread_data_ok_when_clean`** — exactly then the data is a map of each thread.

`PTHREAD_KEYS_MAX` and the size of a pointer are not fixed here. No thread ends.
-/

import Aple.Pthread.Table

namespace Aple.Pthread

open Aple.Lib

/-! ### Data -/

/-- `PTHREAD_KEYS_MAX` and `sizeof (void*)`. -/
structure TsdConfig where
  keysMax : ℕ
  ptrSize : ℕ

/-- A pointer in memory. -/
abbrev Pointer (cfg : TsdConfig) := Fin cfg.ptrSize → BitVec 8

def null {cfg : TsdConfig} : Pointer cfg := fun _ => 0

/-- `KEY_MAP_TYPE_SIZE`. -/
def keyMapTypeSize : ℕ := 32

/-- The table, the key map and destructors, the data slots of the blocks. `threads` are the threads
that `pthread_create` started; `stored` is what they stored since the key was created. -/
structure TsdState (cfg : TsdConfig) where
  table : PthreadState
  threadKey : ℕ → BitVec 32
  keyDestructor : ℕ → Pointer cfg
  threadData : Addr → ℕ → Pointer cfg
  threads : List Addr
  stored : Addr → ℕ → Option (Pointer cfg)

variable {cfg : TsdConfig}

/-- `1 << (key % KEY_MAP_TYPE_SIZE)`. -/
def keyBit (key : ℕ) : BitVec 32 := 1 <<< (key % keyMapTypeSize)

namespace TsdState

/-- The bit of a key in the map; it is set when the key is free. -/
def keyFree (s : TsdState cfg) (key : ℕ) : Bool :=
  (s.threadKey (key / keyMapTypeSize)).getLsbD (key % keyMapTypeSize)

/-- A key of the map that is not free. -/
def Allocated (s : TsdState cfg) (key : ℕ) : Prop :=
  key / keyMapTypeSize < cfg.keysMax / keyMapTypeSize ∧ s.keyFree key = false

/-- A thread that has a slot of the table. -/
def InTable (s : TsdState cfg) (thread : Addr) : Prop :=
  ∃ slot < threadsMax, s.table.threadTable slot = some thread

end TsdState

/-! ### Keys -/

/-- `_lsbit_index`. -/
def lsbitIndex (mask : BitVec 32) : Option ℕ :=
  (List.range keyMapTypeSize).find? fun i => mask.getLsbD i

/-- The search of `pthread_key_create`: the lowest bit of the first word that is not zero. -/
def findKey (s : TsdState cfg) : Option ℕ :=
  (List.range (cfg.keysMax / keyMapTypeSize)).findSome? fun i =>
    if s.threadKey i ≠ 0 then (lsbitIndex (s.threadKey i)).map (· + i * keyMapTypeSize) else none

/-- The loop that plants a null in the slot of every thread of the table. -/
def plantNull (k : ℕ) (s : TsdState cfg) : List ℕ → TsdState cfg
  | [] => s
  | i :: rest =>
    match s.table.threadTable i with
    | none => plantNull k s rest
    | some thread =>
      let cleared := Function.update (s.threadData thread) k null
      plantNull k { s with threadData := Function.update s.threadData thread cleared } rest

/-- `pthread_key_create`; `none` is `EAGAIN`. -/
def pthreadKeyCreate (destructor : Pointer cfg) (s : TsdState cfg) : Option ℕ × TsdState cfg :=
  match findKey s with
  | none => (none, s)
  | some k =>
    let word := k / keyMapTypeSize
    let s := { s with
      threadKey := Function.update s.threadKey word (s.threadKey word &&& ~~~ keyBit k)
      keyDestructor := Function.update s.keyDestructor k destructor
      stored := fun thread => Function.update (s.stored thread) k none }
    (some k, plantNull k s (List.range threadsMax))

/-- `pthread_key_delete`. -/
def pthreadKeyDelete (key : ℕ) (s : TsdState cfg) : TsdState cfg :=
  let word := key / keyMapTypeSize
  { s with threadKey := Function.update s.threadKey word (s.threadKey word ||| keyBit key) }

/-! ### Values -/

/-- `pthread_setspecific`, called by the thread `self`. -/
def pthreadSetspecific (self : Addr) (key : ℕ) (pointer : Pointer cfg) (s : TsdState cfg) :
    Errno × TsdState cfg :=
  if s.keyFree key then (.einval, s)
  else (.ok, { s with
    threadData :=
      Function.update s.threadData self (Function.update (s.threadData self) key pointer)
    stored := Function.update s.stored self (Function.update (s.stored self) key (some pointer)) })

/-- `pthread_getspecific`, called by the thread `self`. -/
def pthreadGetspecific (self : Addr) (key : ℕ) (s : TsdState cfg) : Pointer cfg :=
  if s.keyFree key then null else s.threadData self key

/-! ### Threads -/

/-- `memset (nthread->thread_data, 0, PTHREAD_KEYS_MAX)`: so many bytes. -/
def clearBytes (memory : ℕ → Pointer cfg) (key : ℕ) : Pointer cfg := fun byte =>
  if key * cfg.ptrSize + byte < cfg.keysMax then 0 else memory key byte

/-- `pthread_create`, with `memory` where the data slots of the new block lie. -/
def pthreadCreateData (status : TaskStatus) (joinable freestack : Bool) (nthread : Addr)
    (taskInits : Bool) (memory : ℕ → Pointer cfg) (s : TsdState cfg) :
    Option (Errno × TsdState cfg) :=
  match pthreadCreate status joinable freestack nthread taskInits s.table with
  | none => none
  | some (.enomem, table) => some (.enomem, { s with table := table })
  | some (err, table) =>
    some (err, { s with
      table := table
      threadData := Function.update s.threadData nthread (clearBytes memory)
      threads := if err = .ok then nthread :: s.threads else s.threads
      stored := Function.update s.stored nthread fun _ => none })

/-! ### Events -/

/-- One call, or a write to the words behind the table. -/
inductive TsdEvent (cfg : TsdConfig)
  | keyCreate (destructor : Pointer cfg)
  | keyDelete (key : ℕ)
  | create (status : TaskStatus) (joinable freestack : Bool) (nthread : Addr) (taskInits : Bool)
      (memory : ℕ → Pointer cfg)
  | setspecific (self : Addr) (key : ℕ) (pointer : Pointer cfg)
  | getspecific (self : Addr) (key : ℕ)
  | writeBehind (slot : ℕ) (value : Option Addr)

/-- Run one call. Keys are below `PTHREAD_KEYS_MAX`; a new block does not lie in a running
thread. -/
def tsdExec (s : TsdState cfg) : TsdEvent cfg → Option (TsdState cfg)
  | .keyCreate destructor => some (pthreadKeyCreate destructor s).2
  | .keyDelete key => if key < cfg.keysMax then some (pthreadKeyDelete key s) else none
  | .create status joinable freestack nthread taskInits memory =>
    if nthread ∈ s.threads then none
    else (pthreadCreateData status joinable freestack nthread taskInits memory s).map Prod.snd
  | .setspecific self key pointer =>
    if self ∈ s.threads ∧ key < cfg.keysMax then some (pthreadSetspecific self key pointer s).2
    else none
  | .getspecific self key => if self ∈ s.threads ∧ key < cfg.keysMax then some s else none
  | .writeBehind slot value =>
    if threadsMax ≤ slot then
      some { s with table := { s.table with
        threadTable := Function.update s.table.threadTable slot value } }
    else none

/-- `start_minigui_pthread` sets the bits of the map; memory holds anything. -/
def TsdState.initial (behind : ℕ → Option Addr) (blocks : Addr → PthreadInfo)
    (words : ℕ → BitVec 32) (destructors : ℕ → Pointer cfg)
    (memory : Addr → ℕ → Pointer cfg) : TsdState cfg where
  table := PthreadState.initial behind blocks
  threadKey i := if i < cfg.keysMax / keyMapTypeSize then BitVec.allOnes 32 else words i
  keyDestructor := destructors
  threadData := memory
  threads := []
  stored _ _ := none

/-- Every order of calls. -/
def tsdSystem (cfg : TsdConfig) : System (TsdState cfg) (TsdEvent cfg) where
  init s := ∃ behind blocks words destructors memory,
    s = TsdState.initial behind blocks words destructors memory
  step s event after := tsdExec s event = some after

/-- Every running thread reads what it stored last under an allocated key, or null. -/
def TsdOk (s : TsdState cfg) : Prop := ∀ thread ∈ s.threads, ∀ key, s.Allocated key →
  pthreadGetspecific thread key s = (s.stored thread key).getD null

/-- The condition. A call of `pthread_create` that starts a thread clears the slots of the allocated
keys; a thread that is not in the table has null where a new key points. -/
def Clean (s : TsdState cfg) : TsdEvent cfg → Prop
  | .create status joinable freestack nthread taskInits memory =>
    (pthreadCreate status joinable freestack nthread taskInits s.table).map Prod.fst = some .ok →
      ∀ key, s.Allocated key → clearBytes memory key = null
  | .keyCreate _ => ∀ k, findKey s = some k → ∀ thread ∈ s.threads, ¬ s.InTable thread →
      s.threadData thread k = null
  | _ => True

/-! ### The key map -/

variable {s after : TsdState cfg} {event : TsdEvent cfg}

theorem lsbitIndex_lt {mask : BitVec 32} {i : ℕ} (found : lsbitIndex mask = some i) :
    i < keyMapTypeSize ∧ mask.getLsbD i = true :=
  ⟨List.mem_range.mp (List.mem_of_find?_eq_some found), List.find?_some (p := fun i => mask.getLsbD i) found⟩

/-- A key that is found is in the map, and free. -/
theorem findKey_spec {k : ℕ} (found : findKey s = some k) :
    k / keyMapTypeSize < cfg.keysMax / keyMapTypeSize ∧ s.keyFree k = true := by
  obtain ⟨i, member, here⟩ := List.exists_of_findSome?_eq_some found
  by_cases zero : s.threadKey i = 0
  · simp [zero] at here
  · rw [if_pos zero] at here
    obtain ⟨bit, lowest, rfl⟩ := Option.map_eq_some_iff.mp here
    obtain ⟨small, set⟩ := lsbitIndex_lt lowest
    have word : (bit + i * keyMapTypeSize) / keyMapTypeSize = i := by
      rw [Nat.add_mul_div_right _ _ (by decide), Nat.div_eq_of_lt small, Nat.zero_add]
    have offset : (bit + i * keyMapTypeSize) % keyMapTypeSize = bit := by
      rw [Nat.add_mul_mod_self_right, Nat.mod_eq_of_lt small]
    refine ⟨?_, ?_⟩
    · rw [word]
      exact List.mem_range.mp member
    · rw [TsdState.keyFree, word, offset]
      exact set

/-- Two keys are the same when word and bit are. -/
theorem key_eq {key other : ℕ} (word : key / keyMapTypeSize = other / keyMapTypeSize)
    (bit : key % keyMapTypeSize = other % keyMapTypeSize) : key = other := by
  rw [← Nat.div_add_mod key keyMapTypeSize, word, bit, Nat.div_add_mod]

theorem keyBit_getLsbD (key bit : ℕ) :
    (keyBit key).getLsbD bit = decide (bit = key % keyMapTypeSize) := by
  have twoPow : keyBit key = BitVec.twoPow 32 (key % keyMapTypeSize) := rfl
  rw [twoPow, BitVec.getLsbD_twoPow]
  have inWord : key % keyMapTypeSize < 32 := Nat.mod_lt _ (by decide)
  simp [inWord, eq_comm]

/-- Clearing a bit of the map. -/
theorem keyFree_clear (k key : ℕ) {s' : TsdState cfg} (clears : s'.threadKey =
    Function.update s.threadKey (k / keyMapTypeSize)
      (s.threadKey (k / keyMapTypeSize) &&& ~~~ keyBit k)) :
    s'.keyFree key = if key = k then false else s.keyFree key := by
  have small : key % keyMapTypeSize < 32 := Nat.mod_lt _ (by decide)
  rw [TsdState.keyFree, clears]
  by_cases word : key / keyMapTypeSize = k / keyMapTypeSize
  · rw [word, Function.update_self, BitVec.getLsbD_and, BitVec.getLsbD_not, keyBit_getLsbD]
    by_cases bit : key % keyMapTypeSize = k % keyMapTypeSize
    · rw [if_pos (key_eq word bit)]
      simp [bit]
    · rw [if_neg fun same => bit (by rw [same]), TsdState.keyFree, word]
      simp [bit, small]
  · rw [Function.update_of_ne word, if_neg fun same => word (by rw [same]), TsdState.keyFree]

/-- Setting a bit of the map. -/
theorem keyFree_set (k key : ℕ) {s' : TsdState cfg} (sets : s'.threadKey =
    Function.update s.threadKey (k / keyMapTypeSize)
      (s.threadKey (k / keyMapTypeSize) ||| keyBit k))
    (clear : s'.keyFree key = false) : s.keyFree key = false := by
  rw [TsdState.keyFree, sets] at clear
  by_cases word : key / keyMapTypeSize = k / keyMapTypeSize
  · rw [word, Function.update_self, BitVec.getLsbD_or, Bool.or_eq_false_iff] at clear
    rw [TsdState.keyFree, word]
    exact clear.1
  · rw [Function.update_of_ne word] at clear
    exact clear

/-! ### Planting nulls -/

/-- The loop plants a null in the slots of the threads it comes across, and does nothing else. -/
theorem plantNull_spec (k : ℕ) (slots : List ℕ) (s : TsdState cfg) :
    ∃ data, plantNull k s slots = { s with threadData := data } ∧
      (∀ thread key, key ≠ k → data thread key = s.threadData thread key) ∧
      ∀ thread, ((∃ slot ∈ slots, s.table.threadTable slot = some thread) → data thread k = null) ∧
        ((∀ slot ∈ slots, s.table.threadTable slot ≠ some thread) →
          data thread k = s.threadData thread k) := by
  induction slots generalizing s with
  | nil => exact ⟨s.threadData, rfl, fun _ _ _ => rfl, fun _ => ⟨nofun, fun _ => rfl⟩⟩
  | cons slot rest ih =>
    cases here : s.table.threadTable slot with
    | none =>
      obtain ⟨data, plants, others, own⟩ := ih s
      refine ⟨data, by simp only [plantNull, here, plants], others, fun thread => ⟨?_, ?_⟩⟩
      · rintro ⟨slot', member, holds⟩
        rcases List.mem_cons.mp member with rfl | later
        · rw [here] at holds
          cases holds
        · exact (own thread).1 ⟨slot', later, holds⟩
      · exact fun off => (own thread).2 fun slot' later => off slot' (List.mem_cons_of_mem _ later)
    | some first =>
      obtain ⟨cleared, cleared_eq⟩ : ∃ cleared, cleared =
        Function.update s.threadData first (Function.update (s.threadData first) k null) := ⟨_, rfl⟩
      have clearedHere : cleared first k = null := by
        rw [cleared_eq, Function.update_self, Function.update_self]
      have clearedElse : ∀ thread key, thread ≠ first ∨ key ≠ k →
          cleared thread key = s.threadData thread key := by
        intro thread key off
        rw [cleared_eq]
        by_cases same : thread = first
        · subst same
          rw [Function.update_self, Function.update_of_ne (off.resolve_left (not_not.mpr rfl))]
        · rw [Function.update_of_ne same]
      obtain ⟨data, plants, others, own⟩ := ih { s with threadData := cleared }
      refine ⟨data, by simp only [plantNull, here, ← cleared_eq, plants], ?_, fun thread => ⟨?_, ?_⟩⟩
      · exact fun thread key differs =>
          (others thread key differs).trans (clearedElse thread key (.inr differs))
      · rintro ⟨slot', member, holds⟩
        by_cases later : ∃ slot ∈ rest, s.table.threadTable slot = some thread
        · exact (own thread).1 later
        · rcases List.mem_cons.mp member with rfl | inRest
          · rw [here] at holds
            obtain rfl := Option.some.inj holds
            refine ((own first).2 fun slot' inRest holds => ?_).trans clearedHere
            exact later ⟨slot', inRest, holds⟩
          · exact absurd ⟨slot', inRest, holds⟩ later
      · intro off
        have differs : thread ≠ first := by
          rintro rfl
          exact off slot List.mem_cons_self here
        exact ((own thread).2 fun slot' later => off slot' (List.mem_cons_of_mem _ later)).trans
          (clearedElse thread k (.inl differs))

/-! ### One call -/

/-- The promise in terms of the memory: an allocated slot holds what was stored, or null. -/
theorem tsdOk_iff : TsdOk s ↔ ∀ thread ∈ s.threads, ∀ key, s.Allocated key →
    s.threadData thread key = (s.stored thread key).getD null := by
  have reads : ∀ thread key, s.Allocated key →
      pthreadGetspecific thread key s = s.threadData thread key := by
    intro thread key allocated
    rw [pthreadGetspecific, allocated.2]
    rfl
  constructor
  · intro ok thread running key allocated
    rw [← reads thread key allocated]
    exact ok thread running key allocated
  · intro ok thread running key allocated
    rw [reads thread key allocated]
    exact ok thread running key allocated

/-- Calls that change neither the threads nor what they see. -/
theorem tsdOk_congr (ok : TsdOk s) (threads : after.threads = s.threads)
    (data : after.threadData = s.threadData) (stored : after.stored = s.stored)
    (allocated : ∀ key, after.Allocated key → s.Allocated key) : TsdOk after := by
  rw [tsdOk_iff] at ok ⊢
  rw [threads, data, stored]
  exact fun thread running key holds => ok thread running key (allocated key holds)

/-- `pthread_key_create` keeps the promise if and only if the threads outside the table have
null. -/
theorem keyCreate_ok_iff (ok : TsdOk s) (destructor : Pointer cfg) :
    TsdOk (pthreadKeyCreate destructor s).2 ↔ Clean s (.keyCreate destructor) := by
  cases found : findKey s with
  | none =>
    have same : (pthreadKeyCreate destructor s).2 = s := by simp only [pthreadKeyCreate, found]
    rw [same]
    refine ⟨fun _ k points => ?_, fun _ => ok⟩
    rw [found] at points
    cases points
  | some k =>
    obtain ⟨inMap, -⟩ := findKey_spec found
    obtain ⟨created, created_eq⟩ : ∃ created : TsdState cfg, created = { s with
        threadKey := Function.update s.threadKey (k / keyMapTypeSize)
          (s.threadKey (k / keyMapTypeSize) &&& ~~~ keyBit k)
        keyDestructor := Function.update s.keyDestructor k destructor
        stored := fun thread => Function.update (s.stored thread) k none } := ⟨_, rfl⟩
    obtain ⟨data, plants, others, own⟩ := plantNull_spec k (List.range threadsMax) created
    have result : (pthreadKeyCreate destructor s).2 = { created with threadData := data } := by
      rw [← plants, created_eq]
      simp only [pthreadKeyCreate, found]
    have bits : ∀ key, created.keyFree key = if key = k then false else s.keyFree key := by
      intro key
      exact keyFree_clear k key (by rw [created_eq])
    have inTable : ∀ thread, (∃ slot ∈ List.range threadsMax,
        created.table.threadTable slot = some thread) ↔ s.InTable thread := by
      intro thread
      rw [created_eq]
      simp only [List.mem_range, TsdState.InTable]
    rw [tsdOk_iff] at ok
    rw [result, tsdOk_iff]
    constructor
    · intro after k' points thread running outside
      obtain rfl : k = k' := Option.some.inj (found.symm.trans points)
      have reads : data thread k = (created.stored thread k).getD null := by
        refine after thread (by rw [created_eq]; exact running) k ⟨inMap, ?_⟩
        show created.keyFree k = false
        rw [bits, if_pos rfl]
      have kept : data thread k = created.threadData thread k := by
        refine (own thread).2 fun slot member holds => outside ?_
        exact (inTable thread).mp ⟨slot, member, holds⟩
      rw [kept, created_eq] at reads
      have forgotten : Function.update (s.stored thread) k none k = none := Function.update_self ..
      rw [reads]
      show (Function.update (s.stored thread) k none k).getD null = null
      rw [forgotten]
      rfl
    · intro clean thread running key allocated
      have running' : thread ∈ s.threads := by
        rw [created_eq] at running
        exact running
      show data thread key = (created.stored thread key).getD null
      by_cases new : key = k
      · subst new
        have forgotten : created.stored thread key = none := by
          rw [created_eq]
          exact Function.update_self ..
        rw [forgotten]
        by_cases listed : s.InTable thread
        · exact (own thread).1 ((inTable thread).mpr listed)
        · rw [(own thread).2 fun slot member holds =>
            listed ((inTable thread).mp ⟨slot, member, holds⟩), created_eq]
          exact clean key found thread running' listed
      · have before : s.Allocated key := by
          refine ⟨allocated.1, ?_⟩
          have clear : created.keyFree key = false := allocated.2
          rwa [bits, if_neg new] at clear
        rw [others thread key new, created_eq]
        show s.threadData thread key = (Function.update (s.stored thread) k none key).getD null
        rw [Function.update_of_ne new]
        exact ok thread running' key before

/-- `pthread_create` keeps the promise if and only if a thread that starts has null in the allocated
slots. -/
theorem create_ok_iff (ok : TsdOk s) {status : TaskStatus} {joinable freestack taskInits : Bool}
    {nthread : Addr} {memory : ℕ → Pointer cfg} (new : nthread ∉ s.threads) {err : Errno}
    (runs : pthreadCreateData status joinable freestack nthread taskInits memory s =
      some (err, after)) :
    TsdOk after ↔ Clean s (.create status joinable freestack nthread taskInits memory) := by
  rw [tsdOk_iff] at ok
  rw [pthreadCreateData] at runs
  rw [Clean]
  cases result : pthreadCreate status joinable freestack nthread taskInits s.table with
  | none =>
    rw [result] at runs
    cases runs
  | some pair =>
    obtain ⟨code, table⟩ := pair
    have old : ∀ thread ∈ s.threads, thread ≠ nthread := fun thread running same => new (same ▸ running)
    by_cases starts : code = .ok
    · subst starts
      rw [result] at runs
      obtain ⟨-, rfl⟩ := Prod.mk.inj (Option.some.inj runs)
      rw [tsdOk_iff]
      have cleared : Function.update s.threadData nthread (clearBytes memory) nthread =
          clearBytes memory := Function.update_self ..
      have nothing : Function.update s.stored nthread (fun _ => none) nthread = fun _ => none :=
        Function.update_self ..
      constructor
      · intro after _ key allocated
        have reads : Function.update s.threadData nthread (clearBytes memory) nthread key =
            (Function.update s.stored nthread (fun _ => none) nthread key).getD null :=
          after nthread List.mem_cons_self key allocated
        rwa [cleared, nothing] at reads
      · intro clean thread running key allocated
        show Function.update s.threadData nthread (clearBytes memory) thread key =
          (Function.update s.stored nthread (fun _ => none) thread key).getD null
        rcases List.mem_cons.mp running with rfl | before
        · rw [cleared, nothing]
          exact clean rfl key allocated
        · rw [Function.update_of_ne (old thread before), Function.update_of_ne (old thread before)]
          exact ok thread before key allocated
    · -- a failed call adds no thread, and what it wrote belongs to no running one
      refine ⟨fun _ isOk => absurd (Option.some.inj isOk) starts, fun _ => ?_⟩
      have kept : after.threads = s.threads ∧ after.threadKey = s.threadKey ∧
          ∀ thread ∈ s.threads, after.threadData thread = s.threadData thread ∧
            after.stored thread = s.stored thread := by
        rw [result] at runs
        cases code with
        | ok => exact absurd rfl starts
        | enomem =>
          obtain ⟨-, rfl⟩ := Prod.mk.inj (Option.some.inj runs)
          exact ⟨rfl, rfl, fun _ _ => ⟨rfl, rfl⟩⟩
        | eagain | einval | esrch | edeadlk =>
          obtain ⟨-, rfl⟩ := Prod.mk.inj (Option.some.inj runs)
          exact ⟨rfl, rfl, fun thread running =>
            ⟨Function.update_of_ne (old thread running) .., Function.update_of_ne (old thread running) ..⟩⟩
      obtain ⟨threads, keys, slots⟩ := kept
      rw [tsdOk_iff, threads]
      intro thread running key allocated
      obtain ⟨data, stored⟩ := slots thread running
      rw [data, stored]
      refine ok thread running key ⟨allocated.1, ?_⟩
      have bit := allocated.2
      rwa [TsdState.keyFree, keys] at bit

/-- **One call** keeps the promise if and only if it meets the condition. -/
theorem tsd_step_iff (ok : TsdOk s) (runs : tsdExec s event = some after) :
    TsdOk after ↔ Clean s event := by
  cases event with
  | keyCreate destructor =>
    obtain rfl := Option.some.inj runs
    exact keyCreate_ok_iff ok destructor
  | keyDelete key =>
    rw [tsdExec] at runs
    by_cases inRange : key < cfg.keysMax
    · rw [if_pos inRange] at runs
      obtain rfl := Option.some.inj runs
      refine ⟨fun _ => trivial, fun _ => tsdOk_congr ok rfl rfl rfl fun other allocated => ?_⟩
      exact ⟨allocated.1, keyFree_set key other rfl allocated.2⟩
    · rw [if_neg inRange] at runs
      cases runs
  | create status joinable freestack nthread taskInits memory =>
    rw [tsdExec] at runs
    by_cases used : nthread ∈ s.threads
    · rw [if_pos used] at runs
      cases runs
    · rw [if_neg used] at runs
      obtain ⟨⟨err, _⟩, creates, rfl⟩ := Option.map_eq_some_iff.mp runs
      exact create_ok_iff ok used creates
  | setspecific self key pointer =>
    rw [tsdExec] at runs
    by_cases mine : self ∈ s.threads ∧ key < cfg.keysMax
    · rw [if_pos mine] at runs
      obtain rfl := Option.some.inj runs
      refine ⟨fun _ => trivial, fun _ => ?_⟩
      rw [pthreadSetspecific]
      by_cases free : s.keyFree key = true
      · rw [if_pos free]
        exact ok
      · rw [if_neg free]
        rw [tsdOk_iff] at ok ⊢
        intro thread running other allocated
        show Function.update s.threadData self (Function.update (s.threadData self) key pointer) thread
          other = (Function.update s.stored self
            (Function.update (s.stored self) key (some pointer)) thread other).getD null
        by_cases isSelf : thread = self
        · subst isSelf
          rw [Function.update_self, Function.update_self]
          by_cases isKey : other = key
          · subst isKey
            rw [Function.update_self, Function.update_self]
            rfl
          · rw [Function.update_of_ne isKey, Function.update_of_ne isKey]
            exact ok thread running other allocated
        · rw [Function.update_of_ne isSelf, Function.update_of_ne isSelf]
          exact ok thread running other allocated
    · rw [if_neg mine] at runs
      cases runs
  | getspecific self key =>
    rw [tsdExec] at runs
    by_cases mine : self ∈ s.threads ∧ key < cfg.keysMax
    · rw [if_pos mine] at runs
      obtain rfl := Option.some.inj runs
      exact ⟨fun _ => trivial, fun _ => ok⟩
    · rw [if_neg mine] at runs
      cases runs
  | writeBehind slot value =>
    rw [tsdExec] at runs
    by_cases behind : threadsMax ≤ slot
    · rw [if_pos behind] at runs
      obtain rfl := Option.some.inj runs
      exact ⟨fun _ => trivial, fun _ => tsdOk_congr ok rfl rfl rfl fun _ allocated => allocated⟩
    · rw [if_neg behind] at runs
      cases runs

/-! ### Every run -/

/-- **Thread-specific data is a map of each thread** as long as the calls meet the condition; and a
call that does not meet it breaks the promise. -/
theorem thread_data_ok_when_clean {s : TsdState cfg}
    (reached : (tsdSystem cfg).ReachableBy Clean s) : TsdOk s ∧ ∀ event after,
      tsdExec s event = some after → (TsdOk after ↔ Clean s event) := by
  have ok : TsdOk s := by
    refine reached.invariant TsdOk ?_ ?_
    · rintro _ ⟨behind, blocks, words, destructors, memory, rfl⟩
      exact fun _ running => nomatch running
    · exact fun _ _ _ _ ok clean runs => (tsd_step_iff ok runs).mpr clean
  exact ⟨ok, fun _ _ runs => tsd_step_iff ok runs⟩

/-- 32 keys and pointers of 4 bytes. -/
def smallConfig : TsdConfig := ⟨32, 4⟩

/-- Nothing in memory at the start. -/
def TsdState.blank : TsdState smallConfig :=
  TsdState.initial (fun _ => none) (fun _ => ⟨.free, 0, 0, false⟩) (fun _ => 0) (fun _ => null)
    fun _ _ => null

theorem blank_init : (tsdSystem smallConfig).init TsdState.blank := ⟨_, _, _, _, _, rfl⟩

/-- A key, a thread in clean memory, and a value stored. -/
theorem thread_data_ok_example : ∃ s : TsdState smallConfig, TsdOk s ∧
    pthreadGetspecific 16 0 s = fun _ => 7 := by
  have start : (tsdSystem smallConfig).ReachableBy Clean TsdState.blank := .start blank_init
  have first := start.by_event (TsdEvent.keyCreate null) (fun _ _ _ running => nomatch running) rfl
  have second := first.by_event (TsdEvent.create (fun _ => none) true true 16 true fun _ => null)
    (fun _ key _ => ?_) rfl
  have third := second.by_event (TsdEvent.setspecific 16 0 fun _ => 7) trivial rfl
  exact ⟨_, (thread_data_ok_when_clean third).1, rfl⟩
  · funext byte
    rw [clearBytes]
    split <;> rfl

/-- **A new thread reads garbage**: the ninth slot is not among the bytes that are cleared. -/
theorem ninth_slot_not_cleared : ∃ s : TsdState smallConfig,
    runEvents tsdExec TsdState.blank (List.replicate 9 (.keyCreate null) ++
      [.create (fun _ => none) true true 16 true fun _ _ => 7]) = some s ∧
    (tsdSystem smallConfig).Reachable s ∧ 16 ∈ s.threads ∧ s.Allocated 8 ∧ s.stored 16 8 = none ∧
    pthreadGetspecific 16 8 s ≠ null ∧ ¬ TsdOk s := by
  have facts : (runEvents tsdExec TsdState.blank (List.replicate 9 (.keyCreate null) ++
      [.create (fun _ => none) true true 16 true fun _ _ => 7])).map
        (fun s : TsdState smallConfig =>
          (s.threads, s.keyFree 8, s.threadData 16 8 ⟨0, by decide⟩, (s.stored 16 8).isNone)) =
            some ([16], false, 7, true) := by decide +kernel
  obtain ⟨s, runs, values⟩ := Option.map_eq_some_iff.mp facts
  obtain ⟨threads, rest⟩ := Prod.mk.inj values
  obtain ⟨used, rest⟩ := Prod.mk.inj rest
  obtain ⟨byte, stored⟩ := Prod.mk.inj rest
  have running : 16 ∈ s.threads := by
    rw [threads]
    exact List.mem_singleton_self 16
  have allocated : s.Allocated 8 := ⟨by decide, used⟩
  have nothing : s.stored 16 8 = none := Option.isNone_iff_eq_none.mp stored
  have garbage : pthreadGetspecific 16 8 s ≠ null := by
    rw [pthreadGetspecific, used]
    intro isNull
    have zero := congrFun isNull ⟨0, by decide⟩
    exact absurd (byte.symm.trans zero) (by decide)
  refine ⟨s, runs, ?_, running, allocated, nothing, garbage, fun ok => garbage ?_⟩
  · have start : (tsdSystem smallConfig).Reachable TsdState.blank := .start blank_init
    exact start.run (fun _ _ _ ran => ⟨trivial, ran⟩) runs
  · rw [ok 16 running 8 allocated, nothing]
    rfl

end Aple.Pthread
