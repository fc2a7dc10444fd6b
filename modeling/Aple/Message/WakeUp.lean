/-
**No wake-up of the owner of a queue is lost.**

The queue with its semaphore `wait`, any number of threads that fill it, and the owner that waits in
`PeekMessageEx` without an idle handler.

* `Producer`, `Owner` — where a thread stands between two of its steps; `POST_MSGQ` is two of them,
  the read of the semaphore value and the post that depends on it.
* `WakeState`, `WakeEvent`, `wakeSystem` — every interleaving. The queue inside is the one of
  `queueSystem`: what a producer runs under the lock is one of its events.
* `Producer.owesPost` — a producer whose post is still to come, whatever the others do.
* `WakeInv` — when the owner waits, the value is zero and nobody owes a post, nothing is pending.
* **`no_lost_wake_up`** — in every state of every run.
-/

import Aple.Message.Flags

namespace Aple.Message

open Aple.Lib

/-! ### The threads -/

/-- Where a producer stands. `refused` is the branch of `kernel_QueueMessage` for a full ring, which
returns without `POST_MSGQ`; `sawValue` is `POST_MSGQ` after `sem_getvalue`. -/
inductive Producer
  | idle | locked | filled | refused | unlocked
  | sawValue (semValue : ℕ)
deriving DecidableEq, Repr

namespace Producer

/-- Between `LOCK_MSGQ` and `UNLOCK_MSGQ`. -/
def holdsLock : Producer → Bool
  | locked | filled | refused => true
  | _ => false

/-- Between the enqueue and the end of `POST_MSGQ`. -/
def signalling : Producer → Bool
  | filled | unlocked | sawValue _ => true
  | _ => false

/-- Signalling, and not with a positive value read, which ends `POST_MSGQ` without a post. -/
def owesPost : Producer → Bool
  | filled | unlocked => true
  | sawValue semValue => decide (semValue ≤ 0)
  | _ => false

theorem signalling_of_owesPost {p : Producer} (owes : p.owesPost = true) : p.signalling = true := by
  cases p with
  | idle | locked | refused => cases owes
  | filled | unlocked | sawValue _ => rfl

end Producer

/-- Where the owner stands: outside `PeekMessageEx` or at `checkagain`, in the locked pass before
and after the sources were looked at, in `sem_wait`. -/
inductive Owner
  | outside | locked | found | foundNothing | waiting
deriving DecidableEq, Repr

/-- Between `LOCK_MSGQ` and `UNLOCK_MSGQ`. -/
def Owner.holdsLock : Owner → Bool
  | locked | found | foundNothing => true
  | _ => false

/-- Who holds the queue lock. -/
inductive Holder (Thread : Type)
  | owner
  | producer (thread : Thread)
deriving DecidableEq

/-- The queue, its semaphore and lock, and where every thread stands. -/
structure WakeState (Thread : Type) where
  state : State
  wait : ℕ
  lock : Option (Holder Thread)
  owner : Owner
  producer : Thread → Producer

/-- One step of one thread. -/
inductive WakeEvent (Thread : Type)
  | lock (thread : Thread)
  | enqueue (thread : Thread) (event : Event)
  | unlock (thread : Thread)
  | getValue (thread : Thread)
  | post (thread : Thread)
  | ownerLock
  | ownerCheck (env : PeekEnv) (hWnd : Hwnd) (pMsg : Msg)
  | ownerUnlock
  | semWait
  | own (event : Event)

/-! ### The steps -/

/-- Whether a call that queues something goes on to `POST_MSGQ`; `none` for everything else. -/
def signals (w : World) : Event → Option Bool
  | .queueMessage fuel tick msg => (kernelQueueMessage fuel tick msg w.queue).map Prod.fst
  | .post fuel tick pad hWnd nMsg wParam lParam =>
    (postMessage fuel tick pad hWnd nMsg wParam lParam w.queue).map Prod.fst
  | .postQuit => some true
  | .sendNotify .. | .notify .. | .sendPriorNotify .. | .sendSync .. => some true
  | _ => none

/-- The arguments of a call that takes whatever comes: filter (0, 0) and `PM_REMOVE`. -/
def anyMessage (hWnd : Hwnd) : PeekArgs := ⟨hWnd, 0, 0, pmRemove⟩

/-- Move one producer. -/
def WakeState.setProducer {Thread : Type} [DecidableEq Thread] (s : WakeState Thread)
    (thread : Thread) (pc : Producer) : WakeState Thread :=
  { s with producer := Function.update s.producer thread pc }

/-- Run one step; `none` when the thread is not there, or has to wait for the lock or the
semaphore. -/
def wakeExec {Thread : Type} [DecidableEq Thread] (s : WakeState Thread) :
    WakeEvent Thread → Option (WakeState Thread)
  | .lock thread =>
    if s.producer thread = .idle ∧ s.lock = none then
      some { s.setProducer thread .locked with lock := some (.producer thread) }
    else none
  | .enqueue thread event =>
    if s.producer thread = .locked then
      match signals s.state.world event, exec s.state event with
      | some done, some state =>
        some { s.setProducer thread (if done then .filled else .refused) with state := state }
      | _, _ => none
    else none
  | .unlock thread =>
    match s.producer thread with
    | .filled => some { s.setProducer thread .unlocked with lock := none }
    | .refused => some { s.setProducer thread .idle with lock := none }
    | _ => none
  | .getValue thread =>
    if s.producer thread = .unlocked then some (s.setProducer thread (.sawValue s.wait)) else none
  | .post thread =>
    match s.producer thread with
    | .sawValue semValue =>
      some { s.setProducer thread .idle with wait := if semValue ≤ 0 then s.wait + 1 else s.wait }
    | _ => none
  | .ownerLock =>
    if s.owner = .outside ∧ s.lock = none then some { s with owner := .locked, lock := some .owner }
    else none
  | .ownerCheck env hWnd pMsg =>
    if s.owner = .locked then
      (execPeek s.state env (anyMessage hWnd) pMsg).map fun state => { s with
        state := state
        owner := if (peekPass env (anyMessage hWnd) ⟨s.state.world, pMsg⟩).1 = .nothing
          then .foundNothing else .found }
    else none
  | .ownerUnlock =>
    match s.owner with
    | .found => some { s with owner := .outside, lock := none }
    | .foundNothing => some { s with owner := .waiting, lock := none }
    | _ => none
  | .semWait =>
    if s.owner = .waiting ∧ 0 < s.wait then some { s with owner := .outside, wait := s.wait - 1 }
    else none
  -- between two calls the owner uses its own queue, without `POST_MSGQ`
  | .own event =>
    if s.owner = .outside ∧ s.lock = none then
      (exec s.state event).map fun state => { s with state := state }
    else none

/-- A fresh queue; nobody is anywhere yet. -/
def WakeState.initial (Thread : Type) (state : State) : WakeState Thread :=
  ⟨state, 0, none, .outside, fun _ => .idle⟩

/-- Every interleaving, from every fresh queue. -/
def wakeSystem (Thread : Type) [DecidableEq Thread] :
    System (WakeState Thread) (WakeEvent Thread) where
  init s := ∃ state, queueSystem.init state ∧ s = WakeState.initial Thread state
  step s event after := wakeExec s event = some after

/-! ### The invariant -/

/-- All three containers are empty. -/
structure World.Drained (w : World) : Prop where
  sync : w.queue.pFirstSyncMsg = none
  notify : w.queue.pFirstNotifyMsg = none
  posted : w.queue.readpos = w.queue.writepos

theorem Tidied.drained {w w' : World} (tidied : Tidied w w') (drained : w.Drained) :
    w'.Drained := by
  obtain ⟨_, _, _, eq⟩ := tidied.queue
  refine ⟨?_, ?_, ?_⟩
  · rw [eq]
    exact drained.sync
  · rw [eq]
    exact drained.notify
  · rw [eq]
    exact drained.posted

/-- A queue state of `queueSystem`, mutual exclusion, and the two promises to the owner. -/
structure WakeInv {Thread : Type} (s : WakeState Thread) : Prop where
  reached : queueSystem.Reachable s.state
  producerLock : ∀ thread, (s.producer thread).holdsLock = true → s.lock = some (.producer thread)
  ownerLock : s.owner.holdsLock = true → s.lock = some .owner
  foundNothing : s.owner = .foundNothing → s.state.world.Drained
  waiting : s.owner = .waiting → s.wait = 0 → (∀ thread, (s.producer thread).owesPost = false) →
    s.state.world.Drained

theorem wakeInv_initial (Thread : Type) {state : State} (initial : queueSystem.init state) :
    WakeInv (WakeState.initial Thread state) where
  reached := .start initial
  producerLock thread holds := by cases holds
  ownerLock holds := by cases holds
  foundNothing stands := by cases stands
  waiting stands := by cases stands

namespace WakeInv

variable {Thread : Type} {s : WakeState Thread} {thread : Thread}

/-- Under the lock of a producer the owner does not hold it. -/
theorem owner_excluded (inv : WakeInv s) (holds : (s.producer thread).holdsLock = true) :
    s.owner.holdsLock = false := by
  rw [Bool.eq_false_iff]
  intro owner
  cases (inv.producerLock thread holds).symm.trans (inv.ownerLock owner)

/-- Under the lock of a producer no other one holds it. -/
theorem producer_excluded (inv : WakeInv s) (holds : (s.producer thread).holdsLock = true)
    {other : Thread} (differs : other ≠ thread) : (s.producer other).holdsLock = false := by
  rw [Bool.eq_false_iff]
  intro both
  cases (inv.producerLock thread holds).symm.trans (inv.producerLock other both)
  exact differs rfl

/-- A free lock is held by nobody. -/
theorem free (inv : WakeInv s) (free : s.lock = none) :
    s.owner.holdsLock = false ∧ ∀ thread, (s.producer thread).holdsLock = false := by
  refine ⟨?_, fun thread => ?_⟩
  · rw [Bool.eq_false_iff]
    intro holds
    cases free.symm.trans (inv.ownerLock holds)
  · rw [Bool.eq_false_iff]
    intro holds
    cases free.symm.trans (inv.producerLock thread holds)

/-- The owner moves to a place where it may stand. -/
theorem ownerMoved {owner : Owner} {lock : Option (Holder Thread)} {state : State} {wait : ℕ}
    (reached : queueSystem.Reachable state)
    (others : ∀ thread, (s.producer thread).holdsLock = true → lock = some (.producer thread))
    (mine : owner.holdsLock = true → lock = some .owner)
    (drained : owner = .foundNothing ∨ owner = .waiting → state.world.Drained) :
    WakeInv { s with owner := owner, lock := lock, state := state, wait := wait } where
  reached := reached
  producerLock := others
  ownerLock := mine
  foundNothing stands := drained (.inl stands)
  waiting stands _ _ := drained (.inr stands)

end WakeInv

/-! ### A locked pass -/

/-- A refused message leaves the queue as it was. -/
theorem refused_unchanged {s after : State} {event : Event}
    (refused : signals s.world event = some false) (runs : exec s event = some after) :
    after.world = s.world := by
  have unchanged : ∀ {r : Bool × MsgQueue}, PostFrame s.world.queue r → r.1 = false →
      (s.setQueue r.2).world = s.world := by
    intro r frame failed
    cases frame with
    | refused => rfl
    | written | painted => cases failed
  cases event with
  | queueMessage fuel tick msg =>
    obtain ⟨r, returns, rfl⟩ := Option.map_eq_some_iff.mp runs
    obtain ⟨r', returns', failed⟩ := Option.map_eq_some_iff.mp refused
    obtain rfl : r = r' := Option.some.inj (returns.symm.trans returns')
    exact unchanged (kernelQueueMessage_frame returns) failed
  | post fuel tick pad hWnd nMsg wParam lParam =>
    obtain ⟨r, returns, rfl⟩ := Option.map_eq_some_iff.mp runs
    obtain ⟨r', returns', failed⟩ := Option.map_eq_some_iff.mp refused
    obtain rfl : r = r' := Option.some.inj (returns.symm.trans returns')
    exact unchanged (postMessage_frame returns) failed
  | _ => cases refused

/-- **A pass that finds nothing has seen all three containers empty.** -/
theorem peek_nothing_drained {s after : State} {env : PeekEnv} {hWnd : Hwnd} {pMsg : Msg}
    (reached : queueSystem.Reachable s)
    (runs : execPeek s env (anyMessage hWnd) pMsg = some after)
    (nothing : (peekPass env (anyMessage hWnd) ⟨s.world, pMsg⟩).1 = .nothing) :
    after.world.Drained := by
  obtain ⟨outcome, afterPass, pass, effect, -, rfl⟩ := execPeek_inv runs
  rw [pass] at nothing
  obtain rfl : outcome = .nothing := nothing
  obtain ⟨msgs, nodes, list, -⟩ := reachable_notify reached
  have live :
      ∀ head, s.world.queue.pFirstNotifyMsg = some head → s.world.heap.cells head ≠ none := by
    intro head atHead
    refine (list.owned.live head).mpr (List.mem_of_mem_head? ?_)
    rw [← list.first_eq, atHead]
    rfl
  have wanted : ∀ message, isMsgWanted (anyMessage hWnd) message = true := fun _ => rfl
  obtain ⟨noSync, noNotify, noPosted⟩ := empty_of_skipped wanted (reachable_flags reached) live
  rw [State.world_hold]
  cases effect with
  | nothing _ _ skipsSync skipsNotify skipsPosted tidied =>
    exact tidied.drained ⟨noSync skipsSync, noNotify skipsNotify, noPosted skipsPosted⟩
  | timer _ _ _ _ _ _ _ _ _ _ _ _ ended =>
    rcases ended with ended | ⟨ended, -⟩ <;> cases ended

/-! ### Step by step -/

section Step

variable {Thread : Type} [DecidableEq Thread] {s after : WakeState Thread} {thread : Thread}

@[simp] theorem setProducer_self (s : WakeState Thread) (thread : Thread) (pc : Producer) :
    (s.setProducer thread pc).producer thread = pc := Function.update_self ..

theorem setProducer_of_ne {other : Thread} (differs : other ≠ thread) (pc : Producer) :
    (s.setProducer thread pc).producer other = s.producer other := Function.update_of_ne differs ..

/-- When nobody owes a post after a producer moved and its own debt did not go away, nobody owed one
before. -/
theorem setProducer_debts {pc : Producer}
    (keeps : (s.producer thread).owesPost = true → pc.owesPost = true)
    (settled : ∀ other, ((s.setProducer thread pc).producer other).owesPost = false)
    (other : Thread) : (s.producer other).owesPost = false := by
  by_cases same : other = thread
  · have mine := settled thread
    rw [setProducer_self] at mine
    rw [same, Bool.eq_false_iff]
    intro owes
    exact Bool.eq_false_iff.mp mine (keeps owes)
  · have before := settled other
    rwa [setProducer_of_ne same] at before

namespace WakeInv

/-- A producer takes the lock. -/
theorem lock (inv : WakeInv s) (runs : wakeExec s (.lock thread) = some after) : WakeInv after := by
  obtain ⟨⟨idle, free⟩, moved⟩ := Option.ite_none_right_eq_some.mp runs
  obtain ⟨noOwner, noProducer⟩ := inv.free free
  rw [← Option.some.inj moved]
  constructor
  case reached => exact inv.reached
  case producerLock =>
    intro other holds
    by_cases same : other = thread
    · rw [same]
    · change ((s.setProducer thread .locked).producer other).holdsLock = true at holds
      rw [setProducer_of_ne same, noProducer other] at holds
      cases holds
  case ownerLock =>
    intro holds
    exact absurd holds (Bool.eq_false_iff.mp noOwner)
  case foundNothing => exact inv.foundNothing
  case waiting =>
    intro waits zero settled
    refine inv.waiting waits zero (setProducer_debts (fun owes => ?_) settled)
    rw [idle] at owes
    cases owes

/-- A producer works under the lock: afterwards it owes a post, or the queue is as before. -/
theorem enqueue (inv : WakeInv s) {event : Event}
    (runs : wakeExec s (.enqueue thread event) = some after) : WakeInv after := by
  obtain ⟨locked, moved⟩ := Option.ite_none_right_eq_some.mp runs
  have holds : (s.producer thread).holdsLock = true := by rw [locked]; rfl
  have noOwner := inv.owner_excluded holds
  split at moved
  case h_2 => cases moved
  rename_i done state signalled ran
  rw [← Option.some.inj moved]
  constructor
  case reached => exact inv.reached.then_step ran
  case producerLock =>
    intro other holds'
    by_cases same : other = thread
    · rw [same]
      exact inv.producerLock thread holds
    · change ((s.setProducer thread _).producer other).holdsLock = true at holds'
      rw [setProducer_of_ne same] at holds'
      exact inv.producerLock other holds'
  case ownerLock => exact inv.ownerLock
  case foundNothing =>
    intro stands
    change s.owner = .foundNothing at stands
    rw [stands] at noOwner
    cases noOwner
  case waiting =>
    intro waits zero settled
    cases done with
    | true =>
      have mine := settled thread
      change ((s.setProducer thread .filled).producer thread).owesPost = false at mine
      rw [setProducer_self] at mine
      cases mine
    | false =>
      change state.world.Drained
      rw [refused_unchanged signalled ran]
      refine inv.waiting waits zero (setProducer_debts (fun owes => ?_) settled)
      rw [locked] at owes
      cases owes

/-- A producer leaves the lock; what it owes it still owes. -/
theorem unlocked (inv : WakeInv s) {pc : Producer}
    (holds : (s.producer thread).holdsLock = true) (outside : pc.holdsLock = false)
    (keeps : (s.producer thread).owesPost = true → pc.owesPost = true) :
    WakeInv { s.setProducer thread pc with lock := none } := by
  have noOwner := inv.owner_excluded holds
  constructor
  case reached => exact inv.reached
  case producerLock =>
    intro other holds'
    change ((s.setProducer thread pc).producer other).holdsLock = true at holds'
    by_cases same : other = thread
    · rw [same, setProducer_self, outside] at holds'
      cases holds'
    · rw [setProducer_of_ne same, inv.producer_excluded holds same] at holds'
      cases holds'
  case ownerLock =>
    intro holds'
    exact absurd holds' (Bool.eq_false_iff.mp noOwner)
  case foundNothing => exact inv.foundNothing
  case waiting =>
    intro waits zero settled
    exact inv.waiting waits zero (setProducer_debts keeps settled)

theorem unlock (inv : WakeInv s) (runs : wakeExec s (.unlock thread) = some after) :
    WakeInv after := by
  simp only [wakeExec] at runs
  split at runs
  · rename_i filled
    rw [← Option.some.inj runs]
    exact inv.unlocked (by rw [filled]; rfl) rfl (fun _ => rfl)
  · rename_i refused
    rw [← Option.some.inj runs]
    refine inv.unlocked (by rw [refused]; rfl) rfl (fun owes => ?_)
    rw [refused] at owes
    cases owes
  · cases runs

/-- A producer moves on outside the lock, and the semaphore may have been posted. -/
theorem moved (inv : WakeInv s) {pc : Producer} {wait : ℕ}
    (outside : pc.holdsLock = false)
    (pays : wait = 0 → s.wait = 0 ∧ ((s.producer thread).owesPost = true → pc.owesPost = true)) :
    WakeInv { s.setProducer thread pc with wait := wait } := by
  constructor
  case reached => exact inv.reached
  case producerLock =>
    intro other holds
    change ((s.setProducer thread pc).producer other).holdsLock = true at holds
    by_cases same : other = thread
    · rw [same, setProducer_self, outside] at holds
      cases holds
    · rw [setProducer_of_ne same] at holds
      exact inv.producerLock other holds
  case ownerLock => exact inv.ownerLock
  case foundNothing => exact inv.foundNothing
  case waiting =>
    intro waits zero settled
    obtain ⟨before, keeps⟩ := pays zero
    exact inv.waiting waits before (setProducer_debts keeps settled)

/-- A producer that reads zero owes the post; one that reads more has nothing left to do. -/
theorem getValue (inv : WakeInv s) (runs : wakeExec s (.getValue thread) = some after) :
    WakeInv after := by
  obtain ⟨-, read⟩ := Option.ite_none_right_eq_some.mp runs
  rw [← Option.some.inj read]
  refine inv.moved rfl fun zero => ⟨zero, fun _ => ?_⟩
  simp [Producer.owesPost, zero]

theorem post (inv : WakeInv s) (runs : wakeExec s (.post thread) = some after) : WakeInv after := by
  simp only [wakeExec] at runs
  split at runs
  case h_2 => cases runs
  rename_i semValue saw
  rw [← Option.some.inj runs]
  refine inv.moved rfl fun zero => ?_
  by_cases posts : semValue ≤ 0
  · rw [if_pos posts] at zero
    cases zero
  · rw [if_neg posts] at zero
    refine ⟨zero, fun owes => ?_⟩
    rw [saw] at owes
    exact absurd (of_decide_eq_true owes) posts

theorem ownerLock_step (inv : WakeInv s) (runs : wakeExec s .ownerLock = some after) :
    WakeInv after := by
  obtain ⟨⟨-, free⟩, moved⟩ := Option.ite_none_right_eq_some.mp runs
  rw [← Option.some.inj moved]
  refine ownerMoved inv.reached (fun thread holds => ?_) (fun _ => rfl) ?_
  · rw [(inv.free free).2 thread] at holds
    cases holds
  · rintro (stands | stands) <;> cases stands

/-- The locked pass. -/
theorem ownerCheck (inv : WakeInv s) {env : PeekEnv} {hWnd : Hwnd} {pMsg : Msg}
    (runs : wakeExec s (.ownerCheck env hWnd pMsg) = some after) : WakeInv after := by
  obtain ⟨locked, passed⟩ := Option.ite_none_right_eq_some.mp runs
  obtain ⟨state, ran, rfl⟩ := Option.map_eq_some_iff.mp passed
  have holds : s.lock = some .owner := inv.ownerLock (by rw [locked]; rfl)
  have peeked : exec s.state (.peek env (anyMessage hWnd) pMsg) = some state := ran
  refine ownerMoved (inv.reached.then_step peeked) inv.producerLock (fun _ => holds) ?_
  split
  · rename_i nothing
    intro _
    exact peek_nothing_drained inv.reached ran nothing
  · rintro (stands | stands) <;> cases stands

theorem ownerUnlock (inv : WakeInv s) (runs : wakeExec s .ownerUnlock = some after) :
    WakeInv after := by
  have others : s.owner.holdsLock = true → ∀ thread, (s.producer thread).holdsLock = true →
      (none : Option (Holder Thread)) = some (.producer thread) := by
    intro mine thread holds
    rw [inv.owner_excluded holds] at mine
    cases mine
  simp only [wakeExec] at runs
  split at runs
  · rename_i found
    rw [← Option.some.inj runs]
    refine ownerMoved inv.reached (others (by rw [found]; rfl)) (fun mine => by cases mine) ?_
    rintro (stands | stands) <;> cases stands
  · rename_i nothing
    rw [← Option.some.inj runs]
    exact ownerMoved inv.reached (others (by rw [nothing]; rfl)) (fun mine => by cases mine)
      (fun _ => inv.foundNothing nothing)
  · cases runs

/-- The owner wakes up and goes to `checkagain`. -/
theorem semWait (inv : WakeInv s) (runs : wakeExec s .semWait = some after) : WakeInv after := by
  obtain ⟨-, woken⟩ := Option.ite_none_right_eq_some.mp runs
  rw [← Option.some.inj woken]
  refine ownerMoved inv.reached inv.producerLock (fun mine => by cases mine) ?_
  rintro (stands | stands) <;> cases stands

/-- The owner uses its own queue while it does not wait. -/
theorem own (inv : WakeInv s) {event : Event} (runs : wakeExec s (.own event) = some after) :
    WakeInv after := by
  obtain ⟨⟨outside, -⟩, used⟩ := Option.ite_none_right_eq_some.mp runs
  obtain ⟨state, ran, rfl⟩ := Option.map_eq_some_iff.mp used
  refine ownerMoved (inv.reached.then_step ran) inv.producerLock inv.ownerLock ?_
  rw [outside]
  rintro (stands | stands) <;> cases stands

/-- **Every step of every thread keeps the invariant.** -/
theorem step (inv : WakeInv s) {event : WakeEvent Thread} (runs : wakeExec s event = some after) :
    WakeInv after := by
  cases event with
  | lock thread => exact inv.lock runs
  | enqueue thread event => exact inv.enqueue runs
  | unlock thread => exact inv.unlock runs
  | getValue thread => exact inv.getValue runs
  | post thread => exact inv.post runs
  | ownerLock => exact inv.ownerLock_step runs
  | ownerCheck env hWnd pMsg => exact inv.ownerCheck runs
  | ownerUnlock => exact inv.ownerUnlock runs
  | semWait => exact inv.semWait runs
  | own event => exact inv.own runs

end WakeInv

end Step

/-! ### Runs -/

variable {Thread : Type} [DecidableEq Thread]

theorem reachable_wakeInv {s : WakeState Thread} (reached : (wakeSystem Thread).Reachable s) :
    WakeInv s := by
  refine reached.invariant WakeInv ?_ ?_
  · rintro _ ⟨state, initial, rfl⟩
    exact wakeInv_initial Thread initial
  · rintro s event after - inv - runs
    exact inv.step runs

/-- **No wake-up is lost**: when the owner is blocked in `sem_wait` and no producer is between its
enqueue and the end of its `POST_MSGQ`, the three containers are empty. -/
theorem no_lost_wake_up {s : WakeState Thread} (reached : (wakeSystem Thread).Reachable s)
    (waits : s.owner = .waiting) (blocked : s.wait = 0)
    (quiet : ∀ thread, (s.producer thread).signalling = false) :
    s.state.world.queue.pFirstSyncMsg = none ∧ s.state.world.queue.pFirstNotifyMsg = none ∧
      s.state.world.queue.readpos = s.state.world.queue.writepos := by
  have settled : ∀ thread, (s.producer thread).owesPost = false := by
    intro thread
    rw [Bool.eq_false_iff]
    intro owes
    exact Bool.eq_false_iff.mp (quiet thread) (Producer.signalling_of_owesPost owes)
  have drained := (reachable_wakeInv reached).waiting waits blocked settled
  exact ⟨drained.sync, drained.notify, drained.posted⟩

/-- An environment without timers, capture or desktop. -/
def plainEnv : PeekEnv := ⟨4, 0, 0, 0, 0, false, fun _ lParam => lParam, fun _ => 0⟩

/-- A pass of the owner from lock to unlock. -/
def ownerPass : List (WakeEvent (Fin 2)) :=
  [.ownerLock, .ownerCheck plainEnv 0 Msg.zero, .ownerUnlock]

/-- Two producers read the value zero and both post; the owner takes both messages, goes through the
loop once more for the second post and blocks. -/
def twoProducers : List (WakeEvent (Fin 2)) :=
  ownerPass ++
    [.lock 0, .enqueue 0 (.sendNotify 5 0 none 1 0x0800 0 0), .unlock 0, .lock 1, .getValue 0,
      .enqueue 1 (.queueMessage 4 0 ⟨1, 0x0801, 0, 0, 0, none⟩), .unlock 1, .getValue 1, .post 1,
      .post 0, .semWait] ++
    ownerPass ++ ownerPass ++ ownerPass ++ [.semWait] ++ ownerPass

theorem no_lost_wake_up_two :
    ∃ s, runEvents wakeExec (WakeState.initial (Fin 2) State.blank) twoProducers = some s ∧ s.owner = .waiting ∧
      s.wait = 0 ∧ s.state.world.queue.pFirstSyncMsg = none ∧
      s.state.world.queue.pFirstNotifyMsg = none ∧
      s.state.world.queue.readpos = s.state.world.queue.writepos := by
  have start : (wakeSystem (Fin 2)).Reachable (WakeState.initial (Fin 2) State.blank) :=
    .start ⟨_, blank_init, rfl⟩
  have runs : runEvents wakeExec (WakeState.initial (Fin 2) State.blank) twoProducers = some _ :=
    rfl
  exact ⟨_, runs, rfl, rfl, no_lost_wake_up (start.run (fun _ _ _ ran => ⟨trivial, ran⟩) runs) rfl rfl
    (by decide)⟩

end Aple.Message
