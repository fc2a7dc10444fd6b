/-
**The ticks an idle handler hands to the timers.**

* `stdIdleHandler`, `stdIdleHandlerPlain` — `std_idle_handler` with `select` and without it.
* `OnIdle` — the idle handler of a queue: one of these, or the one of a client.
* `call_ticks` — a call is one timer check of the tick count, or leaves it as it is.
* **`ticks_kept_iff`** — the intervals of a run add up to the ticks that elapsed exactly when the
  counter stands still, in sum, between the two reads of a check; and after every call exactly when
  it stands still between the two reads of each.
-/

import Aple.ClientServer.IdleHandler
import Aple.ClientServer.ReplyDemux
import Mathlib.Data.BitVec

namespace Aple.Message

open Aple.Lib Aple.ClientServer

/-! ### The handlers -/

/-- What `std_idle_handler` calls and reads of the queue. -/
structure StdIdleOps (σ : Type) (sizeT : ℕ) where
  nrRfds : σ → ℕ
  nrWfds : σ → ℕ
  nrEfds : σ → ℕ
  select : FdSets → ℕ → σ → ℤ × σ
  errno : σ → ℕ
  warn : σ → σ
  osTimeDelay : ℕ → σ → σ
  checkExpiredTimers : Ticks sizeT → σ → ℤ × σ
  checkListenFds : FdSets → σ → ℤ × σ

section Handlers

variable {σ : Type} {sizeT : ℕ} (ops : StdIdleOps σ sizeT) (counter : ℕ → Reads (Ticks sizeT))

/-- `std_idle_handler` where `HAVE_SELECT` is defined. -/
def stdIdleHandler (eintr : ℕ) : IdleCall σ sizeT := fun wait meter s =>
  let sets : FdSets := ⟨ops.nrRfds s != 0, ops.nrWfds s != 0, ops.nrEfds s != 0⟩
  let (retval, s) := ops.select sets (if wait then usec10ms else 0) s
  if retval < 0 then (meter, some (false, if ops.errno s ≠ eintr then ops.warn s else s))
  else
    let (meter, n, s) := checkTimers ops.checkExpiredTimers counter meter s
    let (found, s) :=
      if sets.rset ∨ sets.wset ∨ sets.eset then ops.checkListenFds sets s else (0, s)
    (meter, some (decide (n + found > 0), s))

/-- `std_idle_handler` where it is not. -/
def stdIdleHandlerPlain : IdleCall σ sizeT := fun wait meter s =>
  let timeoutMs := if wait then 10 else 0
  let s := if timeoutMs > 0 then ops.osTimeDelay timeoutMs s else s
  let (meter, n, s) := checkTimers ops.checkExpiredTimers counter meter s
  (meter, some (decide (n > 0), s))

end Handlers

/-- The field `OnIdle` of a queue. -/
inductive OnIdle (σ : Type) (sizeT : ℕ)
  | std (eintr : ℕ) (ops : StdIdleOps σ sizeT)
  | stdPlain (ops : StdIdleOps σ sizeT)
  | client (cfg : ClientConfig sizeT) (eintr : ℕ) (ops : IdleOps σ sizeT)

variable {σ : Type} {sizeT : ℕ}

/-- A call through the field. -/
def OnIdle.call (counter : ℕ → Reads (Ticks sizeT)) : OnIdle σ sizeT → IdleCall σ sizeT
  | .std eintr ops => stdIdleHandler ops counter eintr
  | .stdPlain ops => stdIdleHandlerPlain ops counter
  | .client cfg eintr ops => clientIdleHandler4Client cfg eintr ops counter

/-! ### Runs -/

/-- One more call, as long as the process is there. -/
def nextIdle (call : IdleCall σ sizeT) (state : Meter (Ticks sizeT) × Option σ) (wait : Bool) :
    Meter (Ticks sizeT) × Option σ :=
  match state with
  | (meter, none) => (meter, none)
  | (meter, some s) =>
    let (meter, result) := call wait meter s
    (meter, result.map Prod.snd)

/-- The tick count after a run of calls, and the intervals they handed to the timers. -/
def idleTicks (onIdle : OnIdle σ sizeT) (counter : ℕ → Reads (Ticks sizeT)) (initial : Ticks sizeT)
    (s : σ) (waits : List Bool) : Meter (Ticks sizeT) :=
  (waits.foldl (nextIdle (onIdle.call counter)) (.start initial, some s)).1

variable (onIdle : OnIdle σ sizeT) (counter : ℕ → Reads (Ticks sizeT))

theorem clientIdle_ticks (cfg : ClientConfig sizeT) (eintr : ℕ) (ops : IdleOps σ sizeT) (wait : Bool)
    (meter : Meter (Ticks sizeT)) (s : σ) :
    (clientIdleHandler4Client cfg eintr ops counter wait meter s).1 = meter ∨
      (clientIdleHandler4Client cfg eintr ops counter wait meter s).1 = meter.turn counter := by
  unfold clientIdleHandler4Client
  rcases pollClient cfg eintr ops wait s with ⟨sets, exits | s | ⟨n, s⟩⟩
  · exact .inl rfl
  · exact .inl rfl
  · exact .inr rfl

theorem stdIdle_ticks (eintr : ℕ) (ops : StdIdleOps σ sizeT) (wait : Bool)
    (meter : Meter (Ticks sizeT)) (s : σ) :
    (stdIdleHandler ops counter eintr wait meter s).1 = meter ∨
      (stdIdleHandler ops counter eintr wait meter s).1 = meter.turn counter := by
  rcases selected : ops.select ⟨ops.nrRfds s != 0, ops.nrWfds s != 0, ops.nrEfds s != 0⟩
    (if wait then usec10ms else 0) s with ⟨retval, after⟩
  by_cases failed : retval < 0
  · left
    simp only [stdIdleHandler, selected, if_pos failed]
  · right
    simp only [stdIdleHandler, selected, if_neg failed]
    rfl

/-- **One call** checks the timers once, or leaves the tick count as it is. -/
theorem call_ticks (wait : Bool) (meter : Meter (Ticks sizeT)) (s : σ) :
    (onIdle.call counter wait meter s).1 = meter ∨
      (onIdle.call counter wait meter s).1 = meter.turn counter := by
  cases onIdle with
  | std eintr ops => exact stdIdle_ticks counter eintr ops wait meter s
  | stdPlain ops => exact .inr rfl
  | client cfg eintr ops => exact clientIdle_ticks counter cfg eintr ops wait meter s

theorem nextIdle_ticks (state : Meter (Ticks sizeT) × Option σ) (wait : Bool) :
    (nextIdle (onIdle.call counter) state wait).1 = state.1 ∨
      (nextIdle (onIdle.call counter) state wait).1 = state.1.turn counter := by
  rcases state with ⟨meter, exited | s⟩
  · exact .inl rfl
  · exact call_ticks onIdle counter wait meter s

/-- **A run** is a sequence of checks and of calls that check nothing. -/
theorem idleTicks_ticking (initial : Ticks sizeT) (s : σ) (waits : List Bool) :
    Meter.Ticking counter initial fun n => idleTicks onIdle counter initial s (waits.take n) where
  starts := rfl
  step n := by
    unfold idleTicks
    rw [List.take_add_one, List.foldl_append]
    cases waits[n]? with
    | none => exact .inl rfl
    | some wait => exact nextIdle_ticks onIdle counter _ wait

/-- **No ticks are lost** over a run exactly when the advances of the counter between the two reads of
a timer check cancel out; and after every call of a run exactly when there is none. -/
theorem ticks_kept_iff (initial : Ticks sizeT) (s : σ) (waits : List Bool) :
    (Kept initial (idleTicks onIdle counter initial s waits) ↔
        lostIn counter (idleTicks onIdle counter initial s waits).intervals.length = 0) ∧
      ((∀ n ≤ waits.length, Kept initial (idleTicks onIdle counter initial s (waits.take n))) ↔
        ∀ k < (idleTicks onIdle counter initial s waits).intervals.length,
          (counter k).second = (counter k).first) := by
  have ticking := idleTicks_ticking onIdle counter initial s waits
  have whole := ticking.metered waits.length
  have always := ticking.kept_iff waits.length
  simp only [List.take_length] at whole always
  refine ⟨whole.kept_iff, always.trans ?_⟩
  simp only [Reads.lost_eq_zero]

/-! ### A tick between the two reads -/

/-- A queue without descriptors or timers. -/
def quietStd : StdIdleOps Unit 4 where
  nrRfds _ := 0
  nrWfds _ := 0
  nrEfds _ := 0
  select _ _ s := (0, s)
  errno _ := 0
  warn := id
  osTimeDelay _ := id
  checkExpiredTimers _ s := (0, s)
  checkListenFds _ s := (0, s)

/-- A client to which nothing happens. -/
def quietClient : IdleOps (Wire 4 (List (ClientServer.Msg 4))) 4 where
  toReplyOps := replyOps (fun _ => true) queueing
  nrWfds _ := 0
  nrEfds _ := 0
  select _ _ s := (0, s)
  errno _ := 0
  errSys := some
  statics _ := ⟨0, 30, -1, -1, -1, 0xdeadbeef⟩
  setStatics _ := id
  lockMouseMoveSem := id
  unlockMouseMoveSem := id
  sharedMouse _ := ⟨0, 0, 0, 0, 0⟩
  queueMouseMove _ _ _ _ := id
  checkExpiredTimers _ s := (0, s)
  connIsSet _ := false
  tryLock := none
  unlock := id
  close := id
  checkListenFds _ s := (0, s)

/-- The counter goes from 5 to 7 within the first check. -/
def advancing (k : ℕ) : Reads (Ticks 4) := if k = 0 then ⟨5, 7⟩ else ⟨7, 7⟩

/-- Of the seven ticks that are recorded, the timers are told five. -/
theorem ticks_lost :
    idleTicks (.std 4 quietStd) advancing 0 () [true] = ⟨7, [5]⟩ ∧
      idleTicks (.stdPlain quietStd) advancing 0 () [true] = ⟨7, [5]⟩ ∧
      idleTicks (.client smallClient 4 quietClient) advancing 0 ⟨[], [], 0, []⟩ [true] = ⟨7, [5]⟩ ∧
      ¬ Kept 0 (⟨7, [5]⟩ : Meter (Ticks 4)) := by
  refine ⟨by decide, by decide, by decide, ?_⟩
  unfold Kept
  decide

end Aple.Message
