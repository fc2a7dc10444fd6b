/-
**The package mutex is never taken twice.**

* One lemma for each function: it is disciplined, whatever states it reads.
* `CancelsAsync` — the one call that is not: a `pthread_cancel` that finds its thread with
  cancellation enabled and asynchronous runs `vxpth_pthread_exit` while it holds the mutex.
* **`lock_disciplined_iff`** — for every call and every sequence of states it reads.
-/

import Aple.Pthread.Calls

namespace Aple.Pthread

open Aple.Lib

variable {cfg : TsdConfig}

/-- The call has returned without the mutex. -/
def Free {Result : Type} (_ : Result) (held : Bool) : Prop := held = false

/-! ### The functions -/

@[simp] theorem wp_callAll {Result : Type} {post : Result → Bool → Prop} {callbacks : List Routine}
    {next : LayerProg cfg Result} {held : Bool} :
    wp post (callAll callbacks next) held ↔ wp post next held := by
  induction callbacks with
  | nil => exact Iff.rfl
  | cons routine rest ih => exact ih

theorem wp_exit {Result : Type} {post : Result → Bool → Prop} {callbacks : List Routine}
    {thread : Addr} {retval : BitVec 64} :
    wp post (vxpthPthreadExit callbacks thread retval : LayerProg cfg Result) false := by
  rw [vxpthPthreadExit, wp_callAll]
  exact ⟨rfl, fun _ => ⟨rfl, trivial⟩⟩

theorem wp_testcancel {callbacks : List Routine} {self : Addr} :
    wp Free (pthreadTestcancel callbacks self : LayerProg cfg Unit) false := by
  intro s
  show wp Free (if _ then _ else _) false
  split
  · exact wp_exit
  · rfl

theorem wp_create (args : CreateArgs cfg) : wp Free (pthreadCreateCall args) false := by
  rw [pthreadCreateCall]
  split
  · rfl
  split
  · rfl
  split
  · rfl
  refine ⟨rfl, fun s => ?_⟩
  beta_reduce
  split
  · trivial
  · exact ⟨rfl, rfl⟩
  · rw [wp_bind]
    show wp Free (if _ then _ else _) true
    split
    · exact ⟨rfl, rfl⟩
    · exact ⟨rfl, rfl⟩

theorem wp_joinWait (self joinee : Addr) (waits : List (Bool × TaskStatus)) :
    wp Free (joinWait self joinee waits : LayerProg cfg Errno) false := by
  induction waits with
  | nil => trivial
  | cons first rest ih =>
    refine ⟨rfl, fun s => ?_⟩
    beta_reduce
    split
    · trivial
    · exact ⟨rfl, ih⟩
    · exact ⟨rfl, rfl⟩

theorem wp_join (callbacks : List Routine) (reaps : TaskStatus × TaskStatus)
    (waits : List (Bool × TaskStatus)) (self : Addr) (thread : PthreadT) :
    wp Free (pthreadJoinCall callbacks reaps waits self thread : LayerProg cfg Errno) false := by
  have last : ∀ err : Errno, wp Free ((pthreadTestcancel callbacks self : LayerProg cfg Unit).bind
      fun _ => .ret err) false := by
    intro err
    rw [wp_bind]
    exact wp_mono wp_testcancel fun _ _ free => free
  rw [pthreadJoinCall, wp_bind]
  refine wp_mono wp_testcancel fun _ held free => ?_
  rw [wp_bind, free]
  refine ⟨rfl, fun s => ?_⟩
  beta_reduce
  split
  · trivial
  · refine ⟨rfl, wp_mono (wp_joinWait _ _ _) fun err held free => ?_⟩
    rw [free]
    exact last err
  · exact ⟨rfl, last _⟩

theorem wp_detach (status : TaskStatus) (thread : PthreadT) :
    wp Free (pthreadDetachCall status thread : LayerProg cfg Errno) false := by
  refine ⟨rfl, fun s => ?_⟩
  beta_reduce
  split
  · trivial
  · exact ⟨rfl, rfl⟩

theorem wp_setschedparam (threadId : PthreadT) (policy : SchedPolicy) (param : Option SchedParam) :
    wp Free (pthreadSetschedparam threadId policy param : LayerProg cfg Errno) false := by
  rw [pthreadSetschedparam.eq_def]
  split
  · rfl
  split
  · rfl
  refine ⟨rfl, fun s => ?_⟩
  beta_reduce
  split
  · exact ⟨rfl, rfl⟩
  · exact ⟨rfl, rfl⟩

theorem wp_getschedparam (threadId : PthreadT) :
    wp Free (pthreadGetschedparam threadId : LayerProg cfg Errno) false := by
  refine ⟨rfl, fun s => ?_⟩
  beta_reduce
  split
  · exact ⟨rfl, rfl⟩
  · exact ⟨rfl, rfl⟩

theorem wp_once (onceControl : Option ℕ) (initRoutine : Option Routine) :
    wp Free (pthreadOnce onceControl initRoutine : LayerProg cfg Errno) false := by
  rw [pthreadOnce.eq_def]
  split
  · rfl
  · rfl
  refine ⟨rfl, fun s => ⟨rfl, ?_⟩⟩
  split
  · rfl
  · rfl

theorem wp_keyCreate (destructor : Pointer cfg) :
    wp Free (pthreadKeyCreateCall destructor) false := by
  refine ⟨rfl, fun s => ⟨rfl, ?_⟩⟩
  split
  · rfl
  · rfl

theorem wp_keyDelete (key : ℕ) : wp Free (pthreadKeyDeleteCall key : LayerProg cfg Errno) false :=
  ⟨rfl, fun _ => ⟨rfl, rfl⟩⟩

theorem wp_setcancelstate (self : Addr) (state : CancelState) :
    wp Free (pthreadSetcancelstate self state : LayerProg cfg Errno) false := by
  rw [pthreadSetcancelstate]
  split
  · rfl
  · exact ⟨rfl, fun _ => ⟨rfl, rfl⟩⟩

theorem wp_setcanceltype (self : Addr) (type : CancelType) :
    wp Free (pthreadSetcanceltype self type : LayerProg cfg Errno) false := by
  rw [pthreadSetcanceltype]
  split
  · rfl
  · exact ⟨rfl, fun _ => ⟨rfl, rfl⟩⟩

/-! ### pthread_cancel -/

/-- The thread that a `pthread_cancel` finds has cancellation enabled and asynchronous. -/
def FindsAsync (thread : PthreadT) (s : LayerState cfg) : Prop :=
  ∃ th, pthreadInfoId thread s.table = some th ∧ (s.cancel th).cancelstate = .enable ∧
    (s.cancel th).canceltype = .asynchronous

/-- The call that takes the mutex twice; the state is the one read after its `semTake`. -/
def CancelsAsync (call : LayerCall cfg) (states : List (LayerState cfg)) : Prop :=
  ∃ callbacks thread s rest, call = .cancel callbacks thread ∧ states = s :: rest ∧
    FindsAsync thread s

/-- Routines of the user do not touch the mutex. -/
theorem heldAfter_callAll {Result : Type} (callbacks : List Routine) (next : LayerProg cfg Result)
    (held : Bool) (states : List (LayerState cfg)) :
    heldAfter held ((callAll callbacks next).observe states).1 =
      heldAfter held (next.observe states).1 := by
  induction callbacks with
  | nil => rfl
  | cons routine rest ih =>
    rw [← ih]
    cases held <;> rfl

theorem bind_callAll {Result Other : Type} (callbacks : List Routine) (next : LayerProg cfg Result)
    (after : Result → LayerProg cfg Other) :
    (callAll callbacks next).bind after = callAll callbacks (next.bind after) := by
  induction callbacks with
  | nil => rfl
  | cons routine rest ih => exact congrArg (LockProg.callback routine) ih

theorem cancel_disciplined_iff (callbacks : List Routine) (thread : PthreadT) (s : LayerState cfg)
    (rest : List (LayerState cfg)) :
    Disciplined ((pthreadCancel callbacks thread).observe (s :: rest)) ↔ ¬ FindsAsync thread s := by
  constructor
  · rintro ⟨held, acts, -⟩ ⟨th, found, enabled, asynchronous⟩
    -- the second take
    have twice :
        heldAfter false ((pthreadCancel callbacks thread).observe (s :: rest)).1 = none := by
      simp only [pthreadCancel, LockProg.observe, found, enabled, asynchronous, and_self, if_true]
      rw [vxpthPthreadExit, bind_callAll, heldAfter, heldAfter_callAll]
      rfl
    rw [twice] at acts
    cases acts
  · intro notAsync
    cases found : pthreadInfoId thread s.table with
    | none =>
      have ok : wp Free (.take <| .give <| .ret .esrch : LayerProg cfg Errno) false :=
        ⟨rfl, rfl, rfl⟩
      have runs := wp_disciplined ok (s :: rest)
      simp only [LockProg.observe] at runs
      simp only [pthreadCancel, LockProg.observe, found]
      exact runs
    | some th =>
      have calm :
          ¬ ((s.cancel th).cancelstate = .enable ∧ (s.cancel th).canceltype = .asynchronous) :=
        fun both => notAsync ⟨th, found, both⟩
      have ok : wp Free (.take <| .give <| .ret .ok : LayerProg cfg Errno) false := ⟨rfl, rfl, rfl⟩
      have runs := wp_disciplined ok (s :: rest)
      simp only [LockProg.observe] at runs
      simp only [pthreadCancel, LockProg.observe, found, if_neg calm]
      exact runs

/-! ### Every call -/

/-- Every other call is disciplined. -/
theorem wp_call (call : LayerCall cfg) (other : ∀ callbacks thread, call ≠ .cancel callbacks thread) :
    wp Free call.prog false := by
  cases call with
  | create args => exact wp_create args
  | join callbacks reaps waits self thread => exact wp_join callbacks reaps waits self thread
  | detach status thread => exact wp_detach status thread
  | cancel callbacks thread => exact absurd rfl (other callbacks thread)
  | exit callbacks self retval => exact wp_exit
  | setschedparam threadId policy param => exact wp_setschedparam threadId policy param
  | getschedparam threadId => exact wp_getschedparam threadId
  | once onceControl initRoutine => exact wp_once onceControl initRoutine
  | keyCreate destructor => exact wp_keyCreate destructor
  | keyDelete key => exact wp_keyDelete key
  | setcancelstate self state => exact wp_setcancelstate self state
  | setcanceltype self type => exact wp_setcanceltype self type

/-- **A call keeps to the discipline of the mutex, whatever states it reads, if and only if** it is
not a `pthread_cancel` that finds asynchronous cancellation enabled. -/
theorem lock_disciplined_iff (call : LayerCall cfg) (states : List (LayerState cfg)) :
    Disciplined (call.prog.observe states) ↔ ¬ CancelsAsync call states := by
  by_cases isCancel : ∃ callbacks thread, call = .cancel callbacks thread
  · obtain ⟨callbacks, thread, rfl⟩ := isCancel
    cases states with
    | nil =>
      refine iff_of_true ⟨true, rfl, nofun⟩ ?_
      rintro ⟨_, _, _, _, -, none, -⟩
      cases none
    | cons s rest =>
      refine (cancel_disciplined_iff callbacks thread s rest).trans (not_congr ?_)
      constructor
      · exact fun finds => ⟨callbacks, thread, s, rest, rfl, rfl, finds⟩
      · rintro ⟨callbacks', thread', s', rest', call_eq, states_eq, finds⟩
        cases call_eq
        cases states_eq
        exact finds
  · refine iff_of_true (wp_disciplined (wp_call call fun callbacks thread same =>
      isCancel ⟨callbacks, thread, same⟩) states) ?_
    rintro ⟨callbacks, thread, _, _, same, -⟩
    exact isCancel ⟨callbacks, thread, same⟩

/-- Nothing has happened. -/
def LayerState.blank : LayerState smallConfig where
  tsd := TsdState.blank
  cancel _ := ⟨.unknown, .unknown, false⟩
  sched _ := (.unknown, ⟨0, 0, 0⟩)
  once _ := 0

/-- The creation of a thread whose block comes to lie at `nthread`. -/
def plainCreate (nthread : Addr) : LayerCall smallConfig :=
  .create ⟨true, true, true, fun _ => none, true, true, nthread, true, fun _ => null, (.fifo, ⟨20, 20, 10⟩)⟩

/-- **A thread that takes the mutex twice**: it cancels a thread with asynchronous cancellation. -/
theorem async_cancel_takes_twice : ∃ s : LayerState smallConfig,
    runEvents layerExec LayerState.blank
      [plainCreate 16, plainCreate 32, .setcanceltype 32 .asynchronous] = some s ∧
    (layerSystem smallConfig).Reachable s ∧
    (LayerCall.cancel [] 0xC01).prog.observe [s] = ([.take, .take], .cut) ∧
    ¬ Disciplined ((LayerCall.cancel [] 0xC01).prog.observe [s]) := by
  have start : (layerSystem smallConfig).Reachable LayerState.blank := .start blank_init
  obtain ⟨s, runs⟩ : ∃ s, runEvents layerExec LayerState.blank
      [plainCreate 16, plainCreate 32, .setcanceltype 32 .asynchronous] = some s := ⟨_, rfl⟩
  have acts : (LayerCall.cancel [] 0xC01).prog.observe [s] = ([.take, .take], .cut) := by
    obtain rfl := Option.some.inj runs
    rfl
  refine ⟨s, runs, start.run (fun _ _ _ ran => ⟨trivial, ran⟩) runs, acts, ?_⟩
  rw [acts]
  rintro ⟨held, after, -⟩
  cases after

end Aple.Pthread
