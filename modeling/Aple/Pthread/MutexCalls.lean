/-
**The calls on one mutex, as a lock.**

* `MutexCall.act`, `MutexCall.answer` — what a call makes of a lock, and what it answers.
* `Shows` — the semaphore, the holders and the pended threads of a mutex are those of a lock.
* `MutexOk` — by the phase of a mutex, which lock it is and which calls on it are under way;
  `MutexOk.same`, `OnlyAt` — what a call leaves as it is.
* **`kernel_lock`**, **`kernel_trylock`**, **`kernel_unlock`**, **`kernel_destroy`** — one lemma for
  each kernel call.
-/

import Aple.Pthread.Mutex

namespace Aple.Pthread

open Aple.Lib

variable {Mtx Thread : Type} [DecidableEq Mtx] [DecidableEq Thread] {prio : Thread → ℕ}
  {s s' : Mutexes Mtx Thread} {m : Mtx} {t : Thread} {l : PriorityLock Thread}

/-! ### The locks -/

/-- What a call makes of the lock. -/
def MutexCall.act (prio : Thread → ℕ) (thread : Thread) :
    MutexCall → PriorityLock Thread → Option (PriorityLock Thread)
  | .lock, l => some (l.acquire prio thread)
  | .trylock, l => some (l.tryAcquire thread)
  | .unlock, l => some l.release
  | .destroy, _ => none

/-- What a call answers. -/
def MutexCall.answer (mutex : Mtx) (sem : SemId) : MutexCall → PriorityLock Thread → MutexPlace Mtx
  | .lock, .held _ _ => .pended mutex sem
  | .trylock, .held _ _ => .outside .ebusy
  | _, _ => .outside .ok

/-- The semaphore of a lock. -/
def semOf : PriorityLock Thread → BinarySem Thread
  | .free => ⟨true, []⟩
  | .held _ queue => ⟨false, queue⟩

/-- A mutex is a lock. -/
structure Shows (s : Mutexes Mtx Thread) (m : Mtx) (l : PriorityLock Thread) : Prop where
  sem : s.sems (s.vxMutex m) = some (semOf l)
  holders : s.holders m = l.owners
  waits : ∀ t id, s.place t = .pended m id ↔ t ∈ l.queue ∧ id = s.vxMutex m

/-- **A mutex in its phase.** Nobody is in a call on one that is not in use; one that is given up is
free, and only the thread that destroys it is in a call on it. -/
inductive MutexOk (prio : Thread → ℕ) (s : Mutexes Mtx Thread) (m : Mtx) :
    Option (PriorityLock Thread) → Prop
  | raw : s.phase m = .raw → s.holders m = [] → (∀ t, (s.place t).mutex ≠ some m) → MutexOk prio s m none
  | ready (l : PriorityLock Thread) : s.phase m = .ready → Shows s m l → l.QueueOk prio →
      (∀ t call id, s.place t = .called call m id →
        id = s.vxMutex m ∧ call ≠ .destroy ∧ (call = .unlock → t ∈ s.holders m)) →
      MutexOk prio s m (some l)
  | dying (t : Thread) : s.phase m = .dying → Shows s m .free →
      s.place t = .called .destroy m (s.vxMutex m) → (∀ u, (s.place u).mutex = some m → u = t) →
      MutexOk prio s m (some .free)

/-! ### What a call leaves -/

/-- Everything about a mutex is as it was. -/
structure SameAt (m : Mtx) (s s' : Mutexes Mtx Thread) : Prop where
  vxMutex : s'.vxMutex m = s.vxMutex m
  sem : s.phase m ≠ .raw → s'.sems (s.vxMutex m) = s.sems (s.vxMutex m)
  holders : s'.holders m = s.holders m
  phase : s'.phase m = s.phase m
  place : ∀ t, (s.place t).mutex = some m ∨ (s'.place t).mutex = some m → s'.place t = s.place t

omit [DecidableEq Mtx] [DecidableEq Thread] in
theorem Shows.same (shows : Shows s m l) (same : SameAt m s s') (inUse : s.phase m ≠ .raw) :
    Shows s' m l where
  sem := by
    rw [same.vxMutex, same.sem inUse]
    exact shows.sem
  holders := same.holders.trans shows.holders
  waits t id := by
    rw [same.vxMutex, ← shows.waits]
    constructor
    · intro now
      rw [← same.place t (.inr (by rw [now]; rfl))]
      exact now
    · intro before
      rw [same.place t (.inl (by rw [before]; rfl))]
      exact before

omit [DecidableEq Mtx] [DecidableEq Thread] in
/-- **The frame.** -/
theorem MutexOk.same {lock : Option (PriorityLock Thread)} (ok : MutexOk prio s m lock)
    (same : SameAt m s s') : MutexOk prio s' m lock := by
  cases ok with
  | raw phase holders idle =>
    refine .raw (same.phase.trans phase) (same.holders.trans holders) fun t now => ?_
    exact idle t (by rw [← same.place t (.inr now)]; exact now)
  | ready l phase shows queue calls =>
    refine .ready l (same.phase.trans phase) (shows.same same (by rw [phase]; exact MutexPhase.noConfusion))
      queue fun t call id now => ?_
    rw [same.place t (.inr (by rw [now]; rfl))] at now
    rw [same.vxMutex, same.holders]
    exact calls t call id now
  | dying t phase shows destroys alone =>
    refine .dying t (same.phase.trans phase) (shows.same same (by rw [phase]; exact MutexPhase.noConfusion))
      ?_ fun u now => alone u (by rw [← same.place u (.inr now)]; exact now)
    rw [same.place t (.inl (by rw [destroys]; rfl)), same.vxMutex]
    exact destroys

/-- Outside, or in a call on the mutex. -/
def MutexPlace.AtMost (m : Mtx) (place : MutexPlace Mtx) : Prop :=
  place.mutex = none ∨ place.mutex = some m

/-- Only one mutex has changed, and the threads in calls on it. -/
structure OnlyAt (m : Mtx) (s s' : Mutexes Mtx Thread) : Prop where
  vxMutex : s'.vxMutex = s.vxMutex
  sems : ∀ id, id ≠ s.vxMutex m → s'.sems id = s.sems id
  holders : ∀ other, other ≠ m → s'.holders other = s.holders other
  phase : ∀ other, other ≠ m → s'.phase other = s.phase other
  place : ∀ t, s'.place t = s.place t ∨ (s.place t).AtMost m ∧ (s'.place t).AtMost m

namespace OnlyAt

variable {s'' : Mutexes Mtx Thread}

omit [DecidableEq Mtx] [DecidableEq Thread] in
theorem trans (first : OnlyAt m s s') (second : OnlyAt m s' s'') : OnlyAt m s s'' where
  vxMutex := second.vxMutex.trans first.vxMutex
  sems id other := (second.sems id (by rw [first.vxMutex]; exact other)).trans (first.sems id other)
  holders other differs := (second.holders other differs).trans (first.holders other differs)
  phase other differs := (second.phase other differs).trans (first.phase other differs)
  place t := by
    rcases first.place t with same | ⟨before, between⟩
    · rcases second.place t with same' | ⟨between, after⟩
      · exact .inl (same'.trans same)
      · exact .inr ⟨by rw [← same]; exact between, after⟩
    · rcases second.place t with same' | ⟨-, after⟩
      · exact .inr ⟨before, by rw [same']; exact between⟩
      · exact .inr ⟨before, after⟩

omit [DecidableEq Mtx] in
theorem move {place : MutexPlace Mtx} (before : (s.place t).AtMost m) (after : place.AtMost m) :
    OnlyAt m s (s.move t place) where
  vxMutex := rfl
  sems _ _ := rfl
  holders _ _ := rfl
  phase _ _ := rfl
  place u := by
    by_cases here : u = t
    · rw [here]
      refine .inr ⟨before, ?_⟩
      rw [Mutexes.move_place, Function.update_self]
      exact after
    · exact .inl (Function.update_of_ne here _ _)

omit [DecidableEq Mtx] [DecidableEq Thread] in
theorem setSem {now : Option (BinarySem Thread)} {sem : SemId} (own : sem = s.vxMutex m) :
    OnlyAt m s (s.setSem sem now) where
  vxMutex := rfl
  sems _ other := Function.update_of_ne (by rw [own]; exact other) _ _
  holders _ _ := rfl
  phase _ _ := rfl
  place _ := .inl rfl

omit [DecidableEq Thread] in
theorem setHolders (threads : List Thread) : OnlyAt m s (s.setHolders m threads) where
  vxMutex := rfl
  sems _ _ := rfl
  holders _ differs := Function.update_of_ne differs _ _
  phase _ _ := rfl
  place _ := .inl rfl

omit [DecidableEq Thread] in
theorem setPhase (phase : MutexPhase) : OnlyAt m s (s.setPhase m phase) where
  vxMutex := rfl
  sems _ _ := rfl
  holders _ _ := rfl
  phase _ differs := Function.update_of_ne differs _ _
  place _ := .inl rfl

theorem gets (before : (s.place t).AtMost m) : OnlyAt m s (s.gets t m) :=
  (setHolders _).trans (move before (.inl rfl))

omit [DecidableEq Mtx] [DecidableEq Thread] in
/-- Another mutex is as it was. -/
theorem same {other : Mtx} (only : OnlyAt m s s') (differs : other ≠ m)
    (apart : s.phase other ≠ .raw → s.vxMutex other ≠ s.vxMutex m) : SameAt other s s' where
  vxMutex := congrFun only.vxMutex other
  sem inUse := only.sems _ (apart inUse)
  holders := only.holders other differs
  phase := only.phase other differs
  place t about := by
    rcases only.place t with same | ⟨before, after⟩
    · exact same
    · rcases about with about | about
      · rcases before with none | mine
        · cases none.symm.trans about
        · exact absurd (Option.some.inj (about.symm.trans mine)) differs
      · rcases after with none | mine
        · cases none.symm.trans about
        · exact absurd (Option.some.inj (about.symm.trans mine)) differs

end OnlyAt

/-! ### The kernel calls -/

section Kernel

variable {place : MutexPlace Mtx} {q : List Thread} {id : SemId}

omit [DecidableEq Mtx] in
/-- The waiting threads, when one gets another place that is not among them. -/
theorem waits_leave {places : Thread → MutexPlace Mtx} {x : SemId}
    (waits : ∀ u id, places u = .pended m id ↔ u ∈ q ∧ id = x) (other : ∀ id, place ≠ .pended m id)
    (u : Thread) (id : SemId) :
    Function.update places t place u = .pended m id ↔ (u ∈ q ∧ u ≠ t) ∧ id = x := by
  by_cases here : u = t
  · rw [here, Function.update_self]
    exact ⟨fun now => absurd now (other id), fun now => absurd rfl now.1.2⟩
  · rw [Function.update_of_ne here, waits]
    exact and_congr_left fun _ => (and_iff_left here).symm

omit [DecidableEq Mtx] in
/-- The waiting threads, when one that does not wait gets such a place. -/
theorem Shows.waits_move (shows : Shows s m l) (away : t ∉ l.queue) (other : ∀ id, place ≠ .pended m id)
    (u : Thread) (id : SemId) : Function.update s.place t place u = .pended m id ↔
      u ∈ l.queue ∧ id = s.vxMutex m := by
  rw [waits_leave shows.waits other]
  refine and_congr_left fun _ => and_iff_left_of_imp ?_
  rintro waits rfl
  exact away waits

omit [DecidableEq Mtx] in
/-- The waiting threads, when one more waits. -/
theorem waits_join {places : Thread → MutexPlace Mtx} {x : SemId}
    (waits : ∀ u id, places u = .pended m id ↔ u ∈ q ∧ id = x) (u : Thread) (id : SemId) :
    Function.update places t (.pended m x) u = .pended m id ↔ u ∈ enqueue prio t q ∧ id = x := by
  rw [mem_enqueue]
  by_cases here : u = t
  · rw [here, Function.update_self, MutexPlace.pended.injEq]
    exact ⟨fun now => ⟨.inl rfl, now.2.symm⟩, fun now => ⟨rfl, now.2.symm⟩⟩
  · rw [Function.update_of_ne here, waits]
    exact and_congr_left fun _ => (or_iff_right here).symm

/-- **A call on a mutex in use**, before its kernel call. -/
structure Calling (prio : Thread → ℕ) (s : Mutexes Mtx Thread) (m : Mtx) (t : Thread) (call : MutexCall)
    (l : PriorityLock Thread) : Prop where
  phase : s.phase m = .ready
  shows : Shows s m l
  queue : l.QueueOk prio
  calls : ∀ u c id, s.place u = .called c m id →
    id = s.vxMutex m ∧ c ≠ .destroy ∧ (c = .unlock → u ∈ s.holders m)
  here : s.place t = .called call m (s.vxMutex m)

/-- What the kernel call of a call does. -/
structure Acts (prio : Thread → ℕ) (s s' : Mutexes Mtx Thread) (m : Mtx) (t : Thread) (call : MutexCall)
    (l : PriorityLock Thread) : Prop where
  only : OnlyAt m s s'
  ok : MutexOk prio s' m (call.act prio t l)
  answer : s'.place t = call.answer m (s.vxMutex m) l

namespace Calling

variable {call : MutexCall}

omit [DecidableEq Mtx] [DecidableEq Thread] in
theorem atMost (calling : Calling prio s m t call l) : (s.place t).AtMost m :=
  .inr (by rw [calling.here]; rfl)

omit [DecidableEq Mtx] [DecidableEq Thread] in
theorem not_waits (calling : Calling prio s m t call l) : t ∉ l.queue := by
  intro waits
  have pended := (calling.shows.waits t _).mpr ⟨waits, rfl⟩
  cases calling.here.symm.trans pended

omit [DecidableEq Mtx] in
/-- The calls under way, when a thread leaves its call. -/
theorem calls_move (calling : Calling prio s m t call l) {threads : List Thread}
    (other : ∀ c id, place ≠ .called c m id) (kept : ∀ u, u ≠ t → u ∈ s.holders m → u ∈ threads)
    {u : Thread} {c : MutexCall} {id : SemId}
    (now : Function.update s.place t place u = .called c m id) :
    id = s.vxMutex m ∧ c ≠ .destroy ∧ (c = .unlock → u ∈ threads) := by
  by_cases here : u = t
  · rw [here, Function.update_self] at now
    exact absurd now (other c id)
  · rw [Function.update_of_ne here] at now
    obtain ⟨same, alive, holds⟩ := calling.calls u c id now
    exact ⟨same, alive, fun unlocks => kept u here (holds unlocks)⟩

/-- **The mutex was free**: the caller has it. -/
theorem takes (calling : Calling prio s m t call .free) :
    OnlyAt m s ((s.setSem (s.vxMutex m) (some ⟨false, []⟩)).gets t m) ∧
      MutexOk prio ((s.setSem (s.vxMutex m) (some ⟨false, []⟩)).gets t m) m (some (.held t [])) := by
  refine ⟨(OnlyAt.setSem rfl).trans (.gets calling.atMost),
    .ready _ calling.phase ⟨?_, ?_, ?_⟩ ⟨.nil, .nil⟩ ?_⟩
  · exact Function.update_self _ _ _
  · rw [Mutexes.gets, Mutexes.move_holders, Mutexes.setHolders_holders, Function.update_self,
      Mutexes.setSem_holders, calling.shows.holders]
    rfl
  · exact calling.shows.waits_move calling.not_waits fun _ => by simp
  · intro u c id now
    refine calling.calls_move (fun _ _ => by simp) (fun u _ holds => ?_) now
    rw [Mutexes.gets, Mutexes.move_holders, Mutexes.setHolders_holders, Function.update_self]
    exact List.mem_cons_of_mem t holds

end Calling

/-- `pthread_mutex_lock`. -/
theorem kernel_lock (calling : Calling prio s m t .lock l) :
    Acts prio s (s.pthreadMutexLock prio t m (s.vxMutex m)) m t .lock l := by
  cases l with
  | free =>
    have eq : s.pthreadMutexLock prio t m (s.vxMutex m) =
        (s.setSem (s.vxMutex m) (some ⟨false, []⟩)).gets t m := by
      simp only [Mutexes.pthreadMutexLock, calling.shows.sem, semOf]
    rw [eq]
    exact ⟨calling.takes.1, calling.takes.2, Function.update_self _ _ _⟩
  | held owner queue =>
    have eq : s.pthreadMutexLock prio t m (s.vxMutex m) =
        (s.setSem (s.vxMutex m) (some ⟨false, enqueue prio t queue⟩)).move t
          (.pended m (s.vxMutex m)) := by
      simp only [Mutexes.pthreadMutexLock, calling.shows.sem, semOf]
    rw [eq]
    refine ⟨(OnlyAt.setSem rfl).trans (.move calling.atMost (.inr rfl)), ?_, Function.update_self _ _ _⟩
    refine .ready _ calling.phase ⟨?_, calling.shows.holders, ?_⟩
      (calling.queue.acquire calling.not_waits) ?_
    · exact Function.update_self _ _ _
    · exact waits_join calling.shows.waits
    · intro u c id now
      exact calling.calls_move (fun _ _ => by simp) (fun _ _ holds => holds) now

/-- `pthread_mutex_trylock`. -/
theorem kernel_trylock (calling : Calling prio s m t .trylock l) :
    Acts prio s (s.pthreadMutexTrylock t m (s.vxMutex m)) m t .trylock l := by
  cases l with
  | free =>
    have eq : s.pthreadMutexTrylock t m (s.vxMutex m) =
        (s.setSem (s.vxMutex m) (some ⟨false, []⟩)).gets t m := by
      simp only [Mutexes.pthreadMutexTrylock, calling.shows.sem, semOf]
    rw [eq]
    exact ⟨calling.takes.1, calling.takes.2, Function.update_self _ _ _⟩
  | held owner queue =>
    have eq : s.pthreadMutexTrylock t m (s.vxMutex m) = s.move t (.outside .ebusy) := by
      simp only [Mutexes.pthreadMutexTrylock, calling.shows.sem, semOf, Mutexes.trylockErrno]
    rw [eq]
    refine ⟨.move calling.atMost (.inl rfl), ?_, Function.update_self _ _ _⟩
    refine .ready _ calling.phase ⟨calling.shows.sem, calling.shows.holders, ?_⟩ calling.queue ?_
    · exact calling.shows.waits_move calling.not_waits fun _ => by simp
    · intro u c id now
      exact calling.calls_move (fun _ _ => by simp) (fun _ _ holds => holds) now

namespace Calling

variable {owner next : Thread} {others : List Thread}

omit [DecidableEq Mtx] [DecidableEq Thread] in
/-- A thread that unlocks is the one that has it. -/
theorem alone (calling : Calling prio s m t .unlock l) : s.holders m = [t] := by
  have holds := (calling.calls t _ _ calling.here).2.2 rfl
  rw [calling.shows.holders] at holds ⊢
  cases l with
  | free => cases holds
  | held owner queue =>
    rw [List.mem_singleton.mp holds]
    exact rfl

omit [DecidableEq Mtx] [DecidableEq Thread] in
theorem no_other (calling : Calling prio s m t .unlock l) {u : Thread} (differs : u ≠ t) :
    u ∉ s.holders m := by
  intro member
  rw [calling.alone] at member
  exact differs (List.mem_singleton.mp member)

omit [DecidableEq Mtx] in
theorem erased (calling : Calling prio s m t .unlock l) : (s.holders m).erase t = [] := by
  rw [calling.alone]
  exact List.erase_cons_head t []

/-- Nobody waits: the semaphore is full again. -/
theorem unlock_last (calling : Calling prio s m t .unlock (.held owner [])) :
    s.pthreadMutexUnlock t m (s.vxMutex m) =
      ((s.setHolders m []).move t (.outside .ok)).setSem (s.vxMutex m) (some ⟨true, []⟩) := by
  simp only [Mutexes.pthreadMutexUnlock, calling.shows.sem, semOf, calling.erased]

omit [DecidableEq Mtx] [DecidableEq Thread] in
theorem next_waits (calling : Calling prio s m t .unlock (.held owner (next :: others))) :
    next ≠ t ∧ s.place next = .pended m (s.vxMutex m) := by
  refine ⟨?_, (calling.shows.waits next _).mpr ⟨List.mem_cons_self, rfl⟩⟩
  rintro rfl
  exact calling.not_waits List.mem_cons_self

/-- The state in which the first thread that waits is resumed. -/
theorem next_there (calling : Calling prio s m t .unlock (.held owner (next :: others))) :
    (((s.setHolders m []).move t (.outside .ok)).setSem (s.vxMutex m)
      (some ⟨false, others⟩)).place next = .pended m (s.vxMutex m) := by
  rw [Mutexes.setSem_place, Mutexes.move_place, Function.update_of_ne calling.next_waits.1]
  exact calling.next_waits.2

/-- The first thread that waits gets the mutex. -/
theorem unlock_next (calling : Calling prio s m t .unlock (.held owner (next :: others))) :
    s.pthreadMutexUnlock t m (s.vxMutex m) = (((s.setHolders m []).move t (.outside .ok)).setSem
      (s.vxMutex m) (some ⟨false, others⟩)).gets next m := by
  simp only [Mutexes.pthreadMutexUnlock, calling.shows.sem, semOf, calling.erased, Mutexes.resume,
    calling.next_there, if_true]

end Calling

/-- `pthread_mutex_unlock`. -/
theorem kernel_unlock (calling : Calling prio s m t .unlock l) :
    Acts prio s (s.pthreadMutexUnlock t m (s.vxMutex m)) m t .unlock l := by
  cases l with
  | free => cases calling.alone.symm.trans calling.shows.holders
  | held owner queue =>
    cases queue with
    | nil =>
      rw [calling.unlock_last]
      refine ⟨((OnlyAt.setHolders _).trans (.move calling.atMost (.inl rfl))).trans (.setSem rfl),
        .ready _ calling.phase ⟨?_, ?_, ?_⟩ ⟨.nil, .nil⟩ ?_, Function.update_self _ _ _⟩
      · exact Function.update_self _ _ _
      · exact Function.update_self _ _ _
      · exact calling.shows.waits_move calling.not_waits fun _ => by simp
      · intro u c id now
        exact calling.calls_move (fun _ _ => by simp)
          (fun u differs member => absurd member (calling.no_other differs)) now
    | cons next others =>
      rw [calling.unlock_next]
      have gives : OnlyAt m s (((s.setHolders m []).move t (.outside .ok)).setSem (s.vxMutex m)
          (some ⟨false, others⟩)) :=
        ((OnlyAt.setHolders _).trans (.move calling.atMost (.inl rfl))).trans (.setSem rfl)
      refine ⟨gives.trans (.gets (.inr (by rw [calling.next_there]; rfl))),
        .ready _ calling.phase ⟨?_, ?_, ?_⟩ calling.queue.release ?_, ?_⟩
      · exact Function.update_self _ _ _
      · rw [Mutexes.gets, Mutexes.move_holders, Mutexes.setHolders_holders, Function.update_self,
          Mutexes.setSem_holders, Mutexes.move_holders, Mutexes.setHolders_holders, Function.update_self]
        rfl
      · intro u id
        have waits : ∀ u id, Function.update s.place t (.outside .ok) u = .pended m id ↔ _ :=
          calling.shows.waits_move calling.not_waits fun _ => by simp
        apply (waits_leave waits (fun _ => by simp) u id).trans
        refine and_congr_left fun _ => ?_
        rw [PriorityLock.queue, PriorityLock.release, List.mem_cons]
        refine ⟨fun still => still.1.resolve_left still.2, fun later => ⟨.inr later, ?_⟩⟩
        rintro rfl
        exact (List.nodup_cons.mp calling.queue.nodup).1 later
      · intro u c id now
        by_cases first : u = next
        · rw [first] at now
          cases (Function.update_self _ _ _).symm.trans now
        · exact calling.calls_move (fun _ _ => by simp)
            (fun u differs member => absurd member (calling.no_other differs))
            ((Function.update_of_ne first _ _).symm.trans now)
      · exact (Function.update_of_ne (Ne.symm calling.next_waits.1) _ _).trans (Function.update_self _ _ _)

/-- `pthread_mutex_destroy`: nobody waits for a mutex that is given up. -/
theorem kernel_destroy (shows : Shows s m .free) (here : s.place t = .called .destroy m (s.vxMutex m))
    (alone : ∀ u, (s.place u).mutex = some m → u = t) :
    Acts prio s (s.pthreadMutexDestroy t m (s.vxMutex m)) m t .destroy .free := by
  have eq : s.pthreadMutexDestroy t m (s.vxMutex m) =
      ((s.setPhase m .raw).setSem (s.vxMutex m) none).move t (.outside .ok) := by
    simp only [Mutexes.pthreadMutexDestroy, shows.sem, semOf, List.foldl_nil]
  rw [eq]
  have own : (s.place t).AtMost m := .inr (by rw [here]; rfl)
  refine ⟨((OnlyAt.setPhase _).trans (.setSem rfl)).trans (.move own (.inl rfl)),
    .raw (Function.update_self _ _ _) shows.holders fun u now => ?_, Function.update_self _ _ _⟩
  rw [Mutexes.move_place] at now
  by_cases mine : u = t
  · rw [mine, Function.update_self] at now
    cases now
  · rw [Function.update_of_ne mine] at now
    exact mine (alone u now)

end Kernel

omit [DecidableEq Mtx] in
/-- A thread that stays outside is in no call. -/
theorem outside_same {ret ret' : MutexErrno} (here : s.place t = .outside ret) (u : Thread)
    (about : (s.place u).mutex = some m ∨ (Function.update s.place t (.outside ret') u).mutex = some m) :
    Function.update s.place t (.outside ret') u = s.place u := by
  refine Function.update_of_ne ?_ _ _
  rintro rfl
  rw [here, Function.update_self] at about
  rcases about with about | about <;> cases about

/-- What a kernel call of a thread is about. -/
theorem kernel_cases {call : MutexCall} (runs : mutexExec prio s (.kernel t call m) = some s') :
    ∃ id, s.place t = .called call m id ∧ s' = s.kernel prio t m id call := by
  simp only [mutexExec] at runs
  split at runs
  case h_1 call' m' id here =>
    obtain ⟨⟨rfl, rfl⟩, runs⟩ := Option.ite_none_right_eq_some.mp runs
    exact ⟨id, here, (Option.some.inj runs).symm⟩
  case h_2 => cases runs

/-- A resumed task is not one that is outside. -/
theorem resume_outside {ret : MutexErrno} (out : s.place t = .outside ret) (u : Thread) (taken : Bool) :
    (s.resume u taken).place t = .outside ret := by
  unfold Mutexes.resume
  split
  case h_1 mutex sem here =>
    have other : t ≠ u := by
      rintro rfl
      cases here.symm.trans out
    split
    · exact (Function.update_of_ne other _ _).trans out
    · exact (Function.update_of_ne other _ _).trans out
  case h_2 => exact out

theorem resumes_outside {ret : MutexErrno} (threads : List Thread) (out : s.place t = .outside ret) :
    (threads.foldl (fun s thread => s.resume thread false) s).place t = .outside ret := by
  induction threads generalizing s with
  | nil => exact out
  | cons thread rest ih => exact ih (resume_outside out thread false)

/-- A thread that is outside stays there while others are in the kernel. -/
theorem kernel_outside {ret : MutexErrno} (out : s.place t = .outside ret) {u : Thread} (other : u ≠ t)
    (id : SemId) (call : MutexCall) : (s.kernel prio u m id call).place t = .outside ret := by
  have moved : ∀ place, Function.update s.place u place t = .outside ret := fun place =>
    (Function.update_of_ne (Ne.symm other) place s.place).trans out
  cases call with
  | lock =>
    rw [Mutexes.kernel, Mutexes.pthreadMutexLock]
    split <;> exact moved _
  | trylock =>
    rw [Mutexes.kernel, Mutexes.pthreadMutexTrylock]
    split <;> exact moved _
  | unlock =>
    rw [Mutexes.kernel, Mutexes.pthreadMutexUnlock]
    split
    · exact moved _
    · split
      · exact moved _
      · exact resume_outside (moved _) _ true
  | destroy =>
    rw [Mutexes.kernel, Mutexes.pthreadMutexDestroy]
    split
    · exact moved _
    · exact resumes_outside _ (moved _)

end Aple.Pthread
