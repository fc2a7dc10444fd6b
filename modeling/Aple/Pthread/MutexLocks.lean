/-
**The mutexes are locks that are handed on by priority.**

* `locksStep`, `locksOf` — what the events make of the mutexes, seen as locks.
* `LocksInv` — every mutex is its lock, and no two in use share a semaphore; `LocksInv.step`.
* **`mutexes_are_locks`** — in every run whose callers follow the rules the mutexes are the locks that
  the events make of them, and each call answers as its lock does.
* `InLine`, `HasGot`, `inLine_pays` — the threads in front of one that waits, as a budget.
* **`lock_waits_bounded`** — a thread that waits gets the mutex after as many unlocks as threads are
  in front of it, now or later.
-/

import Aple.Lib.Budget
import Aple.Pthread.MutexCalls

namespace Aple.Pthread

open Aple.Lib System

variable {Mtx Thread : Type} [DecidableEq Mtx] [DecidableEq Thread] {prio : Thread → ℕ}
  {s s' : Mutexes Mtx Thread} {m : Mtx} {t : Thread} {l : PriorityLock Thread}

/-! ### The invariant -/

/-- What an event makes of the locks; a mutex that is not in use is none. -/
def locksStep (prio : Thread → ℕ) (locks : Mtx → Option (PriorityLock Thread)) :
    MutexEvent Mtx Thread → Mtx → Option (PriorityLock Thread)
  | .init _ mutex created =>
    if created = 0 then locks else Function.update locks mutex (some .free)
  | .enter _ _ _ => locks
  | .kernel thread call mutex => Function.update locks mutex ((locks mutex).bind (call.act prio thread))

section Invariant

variable {locks : Mtx → Option (PriorityLock Thread)} {event : MutexEvent Mtx Thread}

/-- Every mutex is its lock, and no two in use share a semaphore. -/
structure LocksInv (prio : Thread → ℕ) (s : Mutexes Mtx Thread)
    (locks : Mtx → Option (PriorityLock Thread)) : Prop where
  null : s.sems 0 = none
  apart : ∀ m m', s.phase m ≠ .raw → s.phase m' ≠ .raw → s.vxMutex m = s.vxMutex m' → m = m'
  ok : ∀ m, MutexOk prio s m (locks m)

omit [DecidableEq Mtx] [DecidableEq Thread] in
theorem MutexOk.of_raw {lock : Option (PriorityLock Thread)} (ok : MutexOk prio s m lock)
    (raw : s.phase m = .raw) :
    lock = none ∧ s.holders m = [] ∧ ∀ u, (s.place u).mutex ≠ some m := by
  cases ok with
  | raw _ holders idle => exact ⟨rfl, holders, idle⟩
  | ready l phase => cases raw.symm.trans phase
  | dying u phase => cases raw.symm.trans phase

omit [DecidableEq Mtx] [DecidableEq Thread] in
theorem MutexOk.of_ready {lock : Option (PriorityLock Thread)} (ok : MutexOk prio s m lock)
    (ready : s.phase m = .ready) : ∃ l, lock = some l ∧ Shows s m l ∧ l.QueueOk prio ∧
      ∀ u c id, s.place u = .called c m id →
        id = s.vxMutex m ∧ c ≠ .destroy ∧ (c = .unlock → u ∈ s.holders m) := by
  cases ok with
  | raw phase => cases ready.symm.trans phase
  | ready l _ shows queue calls => exact ⟨l, rfl, shows, queue, calls⟩
  | dying u phase => cases ready.symm.trans phase

omit [DecidableEq Mtx] [DecidableEq Thread] in
/-- A mutex in use has a semaphore. -/
theorem MutexOk.has_sem {lock : Option (PriorityLock Thread)} (ok : MutexOk prio s m lock)
    (inUse : s.phase m ≠ .raw) : ∃ l, lock = some l ∧ Shows s m l ∧ l.QueueOk prio := by
  cases ok with
  | raw phase => exact absurd phase inUse
  | ready l _ shows queue => exact ⟨l, rfl, shows, queue⟩
  | dying t _ shows => exact ⟨.free, rfl, shows, .free⟩

namespace LocksInv

omit [DecidableEq Mtx] [DecidableEq Thread] in
theorem sem_ne_none (inv : LocksInv prio s locks) (inUse : s.phase m ≠ .raw) :
    s.sems (s.vxMutex m) ≠ none := by
  obtain ⟨l, -, shows, -⟩ := (inv.ok m).has_sem inUse
  rw [shows.sem]
  exact Option.some_ne_none _

omit [DecidableEq Thread] in
/-- A call on one mutex in use. -/
theorem only (inv : LocksInv prio s locks) (only : OnlyAt m s s') (inUse : s.phase m ≠ .raw)
    {lock : Option (PriorityLock Thread)} (ok : MutexOk prio s' m lock) :
    LocksInv prio s' (Function.update locks m lock) where
  null := by
    refine (only.sems 0 ?_).trans inv.null
    intro same
    exact inv.sem_ne_none inUse (by rw [← same]; exact inv.null)
  apart m₁ m₂ used₁ used₂ same := by
    have before : ∀ m', s'.phase m' ≠ .raw → s.phase m' ≠ .raw := by
      intro m' used
      by_cases here : m' = m
      · rw [here]
        exact inUse
      · rw [← only.phase m' here]
        exact used
    rw [only.vxMutex] at same
    exact inv.apart m₁ m₂ (before m₁ used₁) (before m₂ used₂) same
  ok m' := by
    by_cases here : m' = m
    · rw [here, Function.update_self]
      exact ok
    · rw [Function.update_of_ne here]
      exact (inv.ok m').same (only.same here fun used same => here (inv.apart m' m used inUse same))

omit [DecidableEq Mtx] in
/-- A call that does not get to a mutex. -/
theorem outside (inv : LocksInv prio s locks) {ret ret' : MutexErrno} (here : s.place t = .outside ret) :
    LocksInv prio (s.move t (.outside ret')) locks where
  null := inv.null
  apart := inv.apart
  ok m := (inv.ok m).same ⟨rfl, fun _ => rfl, rfl, rfl, fun u about => outside_same here u about⟩

omit [DecidableEq Thread] in
/-- The semaphore of a mutex that is not in use. -/
theorem rawVxMutex (inv : LocksInv prio s locks) (raw : s.phase m = .raw) (sem : SemId) :
    LocksInv prio { s with vxMutex := Function.update s.vxMutex m sem } locks where
  null := inv.null
  apart m₁ m₂ used₁ used₂ same := by
    have differs : ∀ m', s.phase m' ≠ .raw → m' ≠ m := by
      rintro m' used rfl
      exact used raw
    simp only [Function.update_of_ne (differs m₁ used₁), Function.update_of_ne (differs m₂ used₂)] at same
    exact inv.apart m₁ m₂ used₁ used₂ same
  ok m' := by
    by_cases here : m' = m
    · rw [here]
      have ok := inv.ok m
      generalize locks m = lock at ok ⊢
      cases ok with
      | raw phase holders idle => exact .raw phase holders idle
      | ready l phase => cases raw.symm.trans phase
      | dying u phase => cases raw.symm.trans phase
    · refine (inv.ok m').same ⟨Function.update_of_ne here _ _, fun _ => rfl, rfl, rfl, fun _ _ => rfl⟩

/-- `pthread_mutex_init`. -/
theorem init (inv : LocksInv prio s locks) {ret : MutexErrno} (here : s.place t = .outside ret)
    (raw : s.phase m = .raw) {created : SemId}
    (runs : s.pthreadMutexInit t m created = some s') :
    LocksInv prio s' (locksStep prio locks (.init t m created)) := by
  obtain ⟨-, holders, idle⟩ := (inv.ok m).of_raw raw
  unfold Mutexes.pthreadMutexInit at runs
  rw [locksStep]
  split at runs
  case isTrue null =>
    rw [if_pos null, ← Option.some.inj runs]
    exact ((inv.outside here).rawVxMutex raw 0)
  case isFalse made =>
    obtain ⟨fresh, runs⟩ := Option.ite_none_right_eq_some.mp runs
    rw [if_neg made, ← Option.some.inj runs]
    have other : ∀ m', s.phase m' ≠ .raw → s.vxMutex m' ≠ created := by
      rintro m' used rfl
      exact inv.sem_ne_none used fresh
    have nobody : ∀ u, (Function.update s.place t (.outside .ok) u).mutex ≠ some m := by
      intro u
      by_cases mine : u = t
      · rw [mine, Function.update_self]
        intro now; cases now
      · rw [Function.update_of_ne mine]
        exact idle u
    refine ⟨?_, fun m₁ m₂ used₁ used₂ same => ?_, fun m' => ?_⟩
    · exact (Function.update_of_ne (Ne.symm made) _ _).trans inv.null
    · change Function.update s.vxMutex m created m₁ = Function.update s.vxMutex m created m₂ at same
      change Function.update s.phase m .ready m₁ ≠ .raw at used₁
      change Function.update s.phase m .ready m₂ ≠ .raw at used₂
      by_cases first : m₁ = m <;> by_cases second : m₂ = m
      · rw [first, second]
      · rw [first, Function.update_self, Function.update_of_ne second] at same
        rw [Function.update_of_ne second] at used₂
        exact absurd same.symm (other m₂ used₂)
      · rw [second, Function.update_self, Function.update_of_ne first] at same
        rw [Function.update_of_ne first] at used₁
        exact absurd same (other m₁ used₁)
      · rw [Function.update_of_ne first, Function.update_of_ne second] at same
        rw [Function.update_of_ne first] at used₁
        rw [Function.update_of_ne second] at used₂
        exact inv.apart m₁ m₂ used₁ used₂ same
    · by_cases mine : m' = m
      · rw [mine, Function.update_self]
        refine .ready .free (Function.update_self _ _ _) ⟨?_, holders, fun u id => ?_⟩ .free ?_
        · change Function.update s.sems created _ (Function.update s.vxMutex m created m) = _
          rw [Function.update_self, Function.update_self]
          rfl
        · constructor
          · intro now
            exact absurd (congrArg MutexPlace.mutex now) (nobody u)
          · rintro ⟨waits, -⟩
            cases waits
        · intro u c id now
          exact absurd (congrArg MutexPlace.mutex now) (nobody u)
      · rw [Function.update_of_ne mine]
        refine (inv.ok m').same ⟨Function.update_of_ne mine _ _, fun used => ?_, rfl,
          Function.update_of_ne mine _ _, fun u about => outside_same here u about⟩
        exact Function.update_of_ne (other m' used) _ _

/-- `PTHREAD_CHECK`, and the load of the semaphore. -/
theorem enter (inv : LocksInv prio s locks) {ret : MutexErrno} (here : s.place t = .outside ret)
    {call : MutexCall} {mutex : Option Mtx} (rules : FollowsRules s (.enter t call mutex)) :
    LocksInv prio (s.enter t call mutex) locks := by
  cases mutex with
  | none => exact inv.outside here
  | some m =>
    obtain ⟨phase, unlocks, destroys⟩ := rules
    have inUse : s.phase m ≠ .raw := by rw [phase]; exact MutexPhase.noConfusion
    suffices now : LocksInv prio (s.enter t call (some m)) (Function.update locks m (locks m)) by
      rw [Function.update_eq_self] at now
      exact now
    obtain ⟨l, lock, shows, queue, calls⟩ := (inv.ok m).of_ready phase
    have away : t ∉ l.queue := by
      intro waits
      cases here.symm.trans ((shows.waits t _).mpr ⟨waits, rfl⟩)
    have outside : (s.place t).AtMost m := .inl (by rw [here]; rfl)
    rw [lock]
    by_cases gone : call = .destroy
    · obtain ⟨holders, idle⟩ := destroys gone
      have free : l = .free := by
        cases l with
        | free => rfl
        | held owner queue => cases holders.symm.trans shows.holders
      have eq : s.enter t call (some m) = (s.setPhase m .dying).move t (.called .destroy m (s.vxMutex m)) := by
        rw [gone, Mutexes.enter, if_pos rfl]
      rw [free] at shows ⊢
      rw [eq]
      refine inv.only ((OnlyAt.setPhase _).trans (.move outside (.inr rfl))) inUse
        (.dying t (Function.update_self _ _ _) ⟨shows.sem, shows.holders, ?_⟩ (Function.update_self _ _ _) ?_)
      · exact shows.waits_move List.not_mem_nil fun _ => by simp
      · intro u now
        by_contra other
        rw [Mutexes.move_place, Function.update_of_ne other] at now
        exact idle u now
    · have eq : s.enter t call (some m) = s.move t (.called call m (s.vxMutex m)) := by
        rw [Mutexes.enter, if_neg gone]
      rw [eq]
      refine inv.only (.move outside (.inr rfl)) inUse
        (.ready l phase ⟨shows.sem, shows.holders, shows.waits_move away fun _ => by simp⟩ queue ?_)
      intro u c id now
      rw [Mutexes.move_place] at now
      by_cases mine : u = t
      · rw [mine, Function.update_self] at now
        obtain ⟨rfl, -, rfl⟩ := MutexPlace.called.inj now
        rw [mine]
        exact ⟨rfl, gone, unlocks⟩
      · rw [Function.update_of_ne mine] at now
        exact calls u c id now

omit [DecidableEq Mtx] [DecidableEq Thread] in
/-- What a thread is about that has read the semaphore of a mutex. -/
theorem calling (inv : LocksInv prio s locks) {call : MutexCall} {id : SemId}
    (here : s.place t = .called call m id) : ∃ l, locks m = some l ∧ id = s.vxMutex m ∧
      ((call ≠ .destroy ∧ Calling prio s m t call l) ∨
        (call = .destroy ∧ l = .free ∧ Shows s m .free ∧ ∀ u, (s.place u).mutex = some m → u = t)) := by
  have ok := inv.ok m
  generalize locks m = lock at ok ⊢
  cases ok with
  | raw _ _ idle => exact absurd (by rw [here]; rfl) (idle t)
  | ready l phase shows queue calls =>
    obtain ⟨rfl, alive, -⟩ := calls t call id here
    exact ⟨l, rfl, rfl, .inl ⟨alive, phase, shows, queue, calls, here⟩⟩
  | dying u _ shows destroys alone =>
    obtain rfl := alone t (by rw [here]; rfl)
    obtain ⟨rfl, -, rfl⟩ := MutexPlace.called.inj (here.symm.trans destroys)
    exact ⟨.free, rfl, rfl, .inr ⟨rfl, rfl, shows, alone⟩⟩

/-- **The kernel calls.** -/
theorem kernel (inv : LocksInv prio s locks) {call : MutexCall} {id : SemId}
    (here : s.place t = .called call m id) :
    ∃ l, locks m = some l ∧ id = s.vxMutex m ∧ Acts prio s (s.kernel prio t m id call) m t call l := by
  obtain ⟨l, lock, rfl, ⟨alive, calling⟩ | ⟨rfl, rfl, shows, alone⟩⟩ := inv.calling here
  · refine ⟨l, lock, rfl, ?_⟩
    cases call with
    | lock => exact kernel_lock calling
    | trylock => exact kernel_trylock calling
    | unlock => exact kernel_unlock calling
    | destroy => exact absurd rfl alive
  · exact ⟨.free, lock, rfl, kernel_destroy shows here alone⟩

/-- **One step.** -/
theorem step (inv : LocksInv prio s locks) (rules : FollowsRules s event)
    (runs : mutexExec prio s event = some s') : LocksInv prio s' (locksStep prio locks event) := by
  cases event with
  | init t m created =>
    simp only [mutexExec] at runs
    split at runs
    case h_1 ret here => exact inv.init here rules runs
    case h_2 => cases runs
  | enter t call mutex =>
    simp only [mutexExec] at runs
    split at runs
    case h_1 ret here =>
      rw [← Option.some.inj runs]
      exact inv.enter here rules
    case h_2 => cases runs
  | kernel t call m =>
    obtain ⟨id, here, rfl⟩ := kernel_cases runs
    obtain ⟨l, lock, -, acts⟩ := inv.kernel here
    rw [locksStep, lock]
    refine inv.only acts.only (fun raw => ?_) acts.ok
    cases ((inv.ok _).of_raw raw).1.symm.trans lock

omit [DecidableEq Mtx] [DecidableEq Thread] in
/-- A mutex that is a lock. -/
theorem view (inv : LocksInv prio s locks) (lock : locks m = some l) :
    s.phase m ≠ .raw ∧ Shows s m l ∧ l.QueueOk prio := by
  have inUse : s.phase m ≠ .raw := by
    intro raw
    cases ((inv.ok m).of_raw raw).1.symm.trans lock
  obtain ⟨l', lock', shows, queue⟩ := (inv.ok m).has_sem inUse
  obtain rfl := Option.some.inj (lock'.symm.trans lock)
  exact ⟨inUse, shows, queue⟩

omit [DecidableEq Mtx] [DecidableEq Thread] in
/-- A mutex is not in use, or it is a lock. -/
theorem idle_or_lock (inv : LocksInv prio s locks) (m : Mtx) :
    (s.holders m = [] ∧ ∀ u, (s.place u).mutex ≠ some m) ∨ ∃ l, locks m = some l ∧ Shows s m l := by
  by_cases raw : s.phase m = .raw
  · exact .inl ((inv.ok m).of_raw raw).2
  · obtain ⟨l, lock, shows, -⟩ := (inv.ok m).has_sem raw
    exact .inr ⟨l, lock, shows⟩

/-- An unlock lets the first that waits return. -/
theorem wakes (inv : LocksInv prio s locks) {id : SemId} (here : s.place t = .called .unlock m id)
    {owner next : Thread} {others : List Thread} (lock : locks m = some (.held owner (next :: others))) :
    owner = t ∧ (s.kernel prio t m id .unlock).place next = .outside .ok := by
  obtain ⟨l, lock', rfl, ⟨-, calling⟩ | ⟨gone, -⟩⟩ := inv.calling here
  · obtain rfl := Option.some.inj (lock.symm.trans lock')
    refine ⟨(List.cons.inj (calling.shows.holders.symm.trans calling.alone)).1, ?_⟩
    rw [Mutexes.kernel, calling.unlock_next]
    exact Function.update_self _ _ _
  · cases gone

end LocksInv

/-- The locks that the events make, when nothing was initialised before them. -/
def locksOf (prio : Thread → ℕ) (events : List (MutexEvent Mtx Thread)) :
    Mtx → Option (PriorityLock Thread) :=
  events.foldl (locksStep prio) fun _ => none

/-- **Every run** whose callers follow the rules. -/
theorem locksInv_of_run {events : List (MutexEvent Mtx Thread)} {vxMutex : Mtx → SemId}
    (run : RunBy (mutexSystem Mtx prio) FollowsRules (.blank vxMutex) events s) :
    LocksInv prio s (locksOf prio events) := by
  refine run.invariant (fun events s => LocksInv prio s (locksOf prio events)) ?_ ?_
  · refine ⟨rfl, fun m m' used => absurd rfl used, fun m => .raw rfl rfl fun t now => ?_⟩
    cases now
  · intro done event middle next inv rules runs
    rw [locksOf, List.foldl_append]
    exact inv.step rules runs

/-- **The mutexes are locks that are handed on by priority.** In every interleaving of the calls of any
threads on any mutexes, where a mutex is locked, unlocked and destroyed between its `init` and its
`destroy`, and unlocked by a thread that has it: the lock that the events make of a mutex tells who has
it and who waits for it; at most one thread has it, and nobody waits for a mutex that nobody has; and
every kernel call answers as the lock does, so that no call fails, `pthread_mutex_trylock` says `EBUSY`
if and only if somebody has the mutex, and an unlock lets the most urgent of the waiting threads return,
among equals the one that came first. -/
theorem mutexes_are_locks {events : List (MutexEvent Mtx Thread)} {vxMutex : Mtx → SemId}
    (run : RunBy (mutexSystem Mtx prio) FollowsRules (.blank vxMutex) events s) (m : Mtx) :
    (∀ l, locksOf prio events m = some l → s.holders m = l.owners ∧ l.QueueOk prio ∧
      ∀ t id, s.place t = .pended m id ↔ t ∈ l.queue ∧ id = s.vxMutex m) ∧
    (s.holders m).length ≤ 1 ∧
    (∀ t id, s.place t = .pended m id → s.holders m ≠ []) ∧
    (∀ t call after, mutexExec prio s (.kernel t call m) = some after → ∃ l,
      locksOf prio events m = some l ∧ after.place t = call.answer m (s.vxMutex m) l) ∧
    ∀ t after owner next others, mutexExec prio s (.kernel t .unlock m) = some after →
      locksOf prio events m = some (.held owner (next :: others)) →
      owner = t ∧ after.place next = .outside .ok := by
  have inv := locksInv_of_run run
  refine ⟨fun l lock => ?_, ?_, fun t id waits => ?_, fun t call after runs => ?_, ?_⟩
  · obtain ⟨-, shows, queue⟩ := inv.view lock
    exact ⟨shows.holders, queue, shows.waits⟩
  · rcases inv.idle_or_lock m with ⟨none, -⟩ | ⟨l, -, shows⟩
    · rw [none]
      exact Nat.zero_le 1
    · rw [shows.holders]
      exact l.owners_length_le
  · rcases inv.idle_or_lock m with ⟨-, idle⟩ | ⟨l, -, shows⟩
    · exact absurd (by rw [waits]; rfl) (idle t)
    · rw [shows.holders]
      exact PriorityLock.owners_of_waits ((shows.waits t id).mp waits).1
  · obtain ⟨id, here, rfl⟩ := kernel_cases runs
    obtain ⟨l, lock, -, acts⟩ := inv.kernel here
    exact ⟨l, lock, acts.answer⟩
  · intro t after owner next others runs lock
    obtain ⟨id, here, rfl⟩ := kernel_cases runs
    exact inv.wakes here lock

/-! ### Waiting -/

/-- The thread of an event. -/
def MutexEvent.thread : MutexEvent Mtx Thread → Thread
  | .init thread _ _ => thread
  | .enter thread _ _ => thread
  | .kernel thread _ _ => thread

/-- An unlock of the mutex. -/
def MutexEvent.unlocks (m : Mtx) (event : MutexEvent Mtx Thread) : ℕ :=
  match event with
  | .kernel _ .unlock m' => if m' = m then 1 else 0
  | _ => 0

/-- A lock of the mutex, by a thread that is more urgent than `t`. -/
def MutexEvent.passes (prio : Thread → ℕ) (m : Mtx) (t : Thread) (event : MutexEvent Mtx Thread) : ℕ :=
  match event with
  | .kernel u .lock m' => if m' = m ∧ prio u < prio t then 1 else 0
  | _ => 0

/-- The number of threads in front of one that waits, itself included. -/
def InLine (prio : Thread → ℕ) (m : Mtx) (t : Thread) (s : Mutexes Mtx Thread) (n : ℕ) : Prop :=
  ∃ locks l, LocksInv prio s locks ∧ locks m = some l ∧ t ∈ l.queue ∧ n = l.queue.idxOf t + 1

/-- The lock of the thread has returned 0, and it has the mutex. -/
def HasGot (prio : Thread → ℕ) (m : Mtx) (t : Thread) (s : Mutexes Mtx Thread) : Prop :=
  (∃ locks, LocksInv prio s locks) ∧ s.place t = .outside .ok ∧ s.holders m = [t]

/-- The others follow the rules, and the thread makes no other call. -/
def Others (t : Thread) (s : Mutexes Mtx Thread) (event : MutexEvent Mtx Thread) : Prop :=
  FollowsRules s event ∧ event.thread ≠ t

/-- What an event by other threads makes of a lock. -/
inductive LockMoves (prio : Thread → ℕ) (m : Mtx) (l : PriorityLock Thread) :
    MutexEvent Mtx Thread → Option (PriorityLock Thread) → Prop
  | stays (event : MutexEvent Mtx Thread) : (∀ u call, event ≠ .kernel u call m) →
      LockMoves prio m l event (some l)
  | lock (u : Thread) : LockMoves prio m l (.kernel u .lock m) (some (l.acquire prio u))
  | trylock (u : Thread) : LockMoves prio m l (.kernel u .trylock m) (some (l.tryAcquire u))
  | unlock (u : Thread) : l.owners = [u] → LockMoves prio m l (.kernel u .unlock m) (some l.release)
  | destroy (u : Thread) : l = .free → LockMoves prio m l (.kernel u .destroy m) none

theorem LocksInv.moves (inv : LocksInv prio s locks) (rules : FollowsRules s event)
    (runs : mutexExec prio s event = some s') (lock : locks m = some l) :
    LockMoves prio m l event (locksStep prio locks event m) := by
  cases event with
  | init t m' created =>
    have same : locksStep prio locks (.init t m' created) m = locks m := by
      rw [locksStep]
      split
      · rfl
      · refine Function.update_of_ne ?_ _ _
        rintro rfl
        exact (inv.view lock).1 rules
    rw [same, lock]
    exact .stays _ fun u call => by simp
  | enter t call mutex =>
    rw [locksStep, lock]
    exact .stays _ fun u call => by simp
  | kernel t call m' =>
    rw [locksStep]
    by_cases here : m' = m
    · obtain ⟨id, called, -⟩ := kernel_cases runs
      rw [here] at called ⊢
      rw [Function.update_self, lock]
      obtain ⟨l', lock', -, ⟨alive, calling⟩ | ⟨rfl, free, -⟩⟩ := inv.calling called
      · obtain rfl := Option.some.inj (lock'.symm.trans lock)
        cases call with
        | lock => exact .lock t
        | trylock => exact .trylock t
        | unlock => exact .unlock t (calling.shows.holders.symm.trans calling.alone)
        | destroy => exact absurd rfl alive
      · exact .destroy t ((Option.some.inj (lock'.symm.trans lock)).symm.trans free)
    · rw [Function.update_of_ne (Ne.symm here), lock]
      refine .stays _ fun u call same => here ?_
      exact (MutexEvent.kernel.inj same).2.2

/-- A thread that makes no call stays outside. -/
theorem outside_step {ret : MutexErrno} (out : s.place t = .outside ret) (other : event.thread ≠ t)
    (runs : mutexExec prio s event = some s') : s'.place t = .outside ret := by
  cases event with
  | init u m' created =>
    simp only [mutexExec] at runs
    split at runs
    case h_1 =>
      unfold Mutexes.pthreadMutexInit at runs
      split at runs
      · rw [← Option.some.inj runs]
        exact (Function.update_of_ne (Ne.symm other) _ _).trans out
      · obtain ⟨-, runs⟩ := Option.ite_none_right_eq_some.mp runs
        rw [← Option.some.inj runs]
        exact (Function.update_of_ne (Ne.symm other) _ _).trans out
    case h_2 => cases runs
  | enter u call mutex =>
    simp only [mutexExec] at runs
    split at runs
    case h_1 =>
      rw [← Option.some.inj runs]
      cases mutex with
      | none => exact (Function.update_of_ne (Ne.symm other) _ _).trans out
      | some m' =>
        rw [Mutexes.enter]
        split
        · exact (Function.update_of_ne (Ne.symm other) _ _).trans out
        · exact (Function.update_of_ne (Ne.symm other) _ _).trans out
    case h_2 => cases runs
  | kernel u call m' =>
    obtain ⟨id, -, rfl⟩ := kernel_cases runs
    exact kernel_outside out other id call

/-- Who has got the mutex keeps it. -/
theorem HasGot.step (got : HasGot prio m t s) (others : Others t s event)
    (runs : mutexExec prio s event = some s') : HasGot prio m t s' := by
  obtain ⟨⟨locks, inv⟩, out, holders⟩ := got
  have next := inv.step others.1 runs
  refine ⟨⟨_, next⟩, ?_, ?_⟩
  · exact outside_step out others.2 runs
  · rcases inv.idle_or_lock m with ⟨none, -⟩ | ⟨l, lock, shows⟩
    · cases none.symm.trans holders
    · have owners : l.owners = [t] := shows.holders.symm.trans holders
      have moves := inv.moves others.1 runs lock
      suffices keeps : ∃ l', locksStep prio locks event m = some l' ∧ l'.owners = [t] by
        obtain ⟨l', lock', same⟩ := keeps
        exact (next.view lock').2.1.holders.trans same
      cases l with
      | free => cases owners
      | held owner queue =>
        generalize locksStep prio locks event m = lock' at moves ⊢
        cases moves with
        | stays => exact ⟨_, rfl, owners⟩
        | lock u => exact ⟨_, rfl, owners⟩
        | trylock u => exact ⟨_, rfl, owners⟩
        | unlock u own =>
          have same : u = t := (List.cons.inj (own.symm.trans owners)).1
          exact absurd same others.2
        | destroy u free => cases free

/-- **One step in the line.** -/
theorem inLine_pays : Pays (mutexSystem Mtx prio) (Others t) (InLine prio m t) (HasGot prio m t)
    (MutexEvent.unlocks m) (MutexEvent.passes prio m t) := by
  rintro s event after n ⟨locks, l, inv, lock, waits, rfl⟩ ⟨rules, other⟩ runs
  have next := inv.step rules runs
  have moves := inv.moves rules runs lock
  generalize now : locksStep prio locks event m = lock' at moves
  cases moves with
  | stays _ away =>
    refine .inr ⟨_, ⟨_, l, next, now, waits, rfl⟩, ?_⟩
    have none : event.unlocks m = 0 := by
      unfold MutexEvent.unlocks
      split
      case h_1 u m' => exact if_neg fun same => away u .unlock (by rw [same])
      case h_2 => rfl
    omega
  | lock u =>
    have member : t ∈ (l.acquire prio u).queue := by
      cases l with
      | free => cases waits
      | held owner queue => exact mem_enqueue.mpr (.inr waits)
    refine .inr ⟨_, ⟨_, _, next, now, member, rfl⟩, ?_⟩
    have shifted := PriorityLock.idxOf_acquire (u := u) (inv.view lock).2.2 waits other
    have none : (MutexEvent.kernel u .lock m).unlocks m = 0 := rfl
    rw [shifted, none, MutexEvent.passes]
    simp only [true_and]
    omega
  | trylock u =>
    rw [PriorityLock.tryAcquire_waits waits] at now
    exact .inr ⟨_, ⟨_, l, next, now, waits, rfl⟩, Nat.le_of_eq (Nat.zero_add _)⟩
  | unlock u own =>
    obtain ⟨id, here, rfl⟩ := kernel_cases runs
    rcases PriorityLock.release_waits waits with ⟨owner, others, rfl⟩ | ⟨still, less⟩
    · refine .inl ⟨⟨_, next⟩, (inv.wakes here lock).2, ?_⟩
      exact (next.view now).2.1.holders
    · refine .inr ⟨_, ⟨_, _, next, now, still, rfl⟩, ?_⟩
      rw [MutexEvent.unlocks, if_pos rfl]
      omega
  | destroy u free =>
    rw [free] at waits
    cases waits

/-- **Waiting is bounded.** A thread that waits for a mutex gets it, and its `pthread_mutex_lock` returns
0, in every run of the others in which the mutex is unlocked more often than there are threads in front
of it when the run begins, and more urgent ones that come in it. -/
theorem lock_waits_bounded {before events : List (MutexEvent Mtx Thread)} {vxMutex : Mtx → SemId}
    {after : Mutexes Mtx Thread} {id : SemId}
    (reached : RunBy (mutexSystem Mtx prio) FollowsRules (.blank vxMutex) before s)
    (waits : s.place t = .pended m id)
    (run : RunBy (mutexSystem Mtx prio) (Others t) s events after)
    (often : ∀ l, locksOf prio before m = some l →
      l.queue.idxOf t + (events.map (MutexEvent.passes prio m t)).sum <
        (events.map (MutexEvent.unlocks m)).sum) :
    after.place t = .outside .ok ∧ after.holders m = [t] := by
  have inv := locksInv_of_run reached
  rcases inv.idle_or_lock m with ⟨-, idle⟩ | ⟨l, lock, shows⟩
  · exact absurd (by rw [waits]; rfl) (idle t)
  · have start : InLine prio m t s (l.queue.idxOf t + 1) :=
      ⟨_, l, inv, lock, ((shows.waits t id).mp waits).1, rfl⟩
    have got : HasGot prio m t after := by
      refine run.reaches inLine_pays (fun _ _ _ got others runs => got.step others runs) start ?_ ?_
      · rintro s n ⟨_, l', -, -, -, rfl⟩
        exact Nat.succ_pos _
      · have := often l lock
        omega
    exact got.2

end Invariant

/-! ### Two threads -/

/-- The first thread locks a mutex, the second one waits for it, and the first one is about to unlock. -/
def oneWaits : List (MutexEvent Unit Bool) :=
  [.init false () 7, .enter false .lock (some ()), .kernel false .lock (), .enter true .lock (some ()),
    .kernel true .lock (), .enter false .unlock (some ())]

theorem oneWaits_run : ∃ s : Mutexes Unit Bool,
    RunBy (mutexSystem Unit fun _ => 20) FollowsRules (.blank fun _ => 0) oneWaits s ∧
      s.place false = .called .unlock () 7 ∧ s.place true = .pended () 7 := by
  refine ⟨_, .go rfl rfl (.go ⟨rfl, ?_, ?_⟩ rfl (.go trivial rfl (.go ⟨rfl, ?_, ?_⟩ rfl (.go trivial rfl
    (.go ⟨rfl, ?_, ?_⟩ rfl (.stop _)))))), rfl, rfl⟩
  · intro unlocks
    cases unlocks
  · intro destroys
    cases destroys
  · intro unlocks
    cases unlocks
  · intro destroys
    cases destroys
  · intro
    exact List.mem_singleton.mpr rfl
  · intro destroys
    cases destroys

theorem mutexes_are_locks_two : ∃ s : Mutexes Unit Bool,
    locksOf (fun _ => 20) oneWaits () = some (.held false [true]) ∧ s.holders () = [false] := by
  obtain ⟨s, run, -, -⟩ := oneWaits_run
  have lock : locksOf (fun _ => 20) oneWaits () = some (.held false [true]) := by decide
  exact ⟨s, lock, ((mutexes_are_locks run ()).1 _ lock).1⟩

theorem lock_waits_bounded_two : ∃ s after : Mutexes Unit Bool, s.place true = .pended () 7 ∧
    mutexExec (fun _ => 20) s (.kernel false .unlock ()) = some after ∧
    after.place true = .outside .ok ∧ after.holders () = [true] := by
  obtain ⟨s, run, called, waits⟩ := oneWaits_run
  have runs : mutexExec (fun _ => 20) s (.kernel false .unlock ()) =
      some (s.kernel (fun _ => 20) false () 7 .unlock) := by
    simp only [mutexExec, called, and_self, if_true]
  have unlock : RunBy (mutexSystem Unit fun _ => 20) (Others true) s [.kernel false .unlock ()]
      (s.kernel (fun _ => 20) false () 7 .unlock) :=
    .go ⟨trivial, Bool.false_ne_true⟩ runs (.stop _)
  refine ⟨s, _, waits, runs, lock_waits_bounded run waits unlock ?_⟩
  intro l lock
  have same : locksOf (fun _ => 20) oneWaits () = some (.held false [true]) := by decide
  rw [same] at lock
  rw [← Option.some.inj lock]
  decide

end Aple.Pthread
