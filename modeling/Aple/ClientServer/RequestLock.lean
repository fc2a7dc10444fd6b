/-
**The lock of the client's requests.**

* `ClientLock` — a lock that is not recursive, and how often it was locked and unlocked; a thread that
  locks it again is stuck.
* `Script` — what each operation on the socket of one request gives; `guarded` runs the client over
  it with the lock.
* `Settled` — a failing operation gives one of the two codes whose exits unlock; `TurnSafe` — reading
  a message neither leaves the lock locked nor locks it again.
* `turn_ends` — the turns of the loop that waits, by what is read.
* **`request_lock_iff`** — a request takes the lock once and releases it exactly when no operation it
  gets to fails in another way, and no message it gets to is a wake-up.
-/

import Aple.ClientServer.ReplyDemux

namespace Aple.ClientServer

open Aple.Lib

variable {ω : Type} {sizeT : ℕ}

/-! ### The lock -/

/-- A lock that is not recursive, as its one thread sees it. -/
structure ClientLock where
  held : Bool
  stuck : Bool
  locks : ℕ
  unlocks : ℕ
deriving DecidableEq, Repr

/-- `OnLockClientReq`: a thread that holds the lock waits for itself. -/
def ClientLock.lock (l : ClientLock) : ClientLock :=
  if l.held then { l with stuck := true } else { l with held := true, locks := l.locks + 1 }

/-- `OnUnlockClientReq`. -/
def ClientLock.unlock (l : ClientLock) : ClientLock :=
  { l with held := false, unlocks := l.unlocks + 1 }

/-- Never locked twice, not locked, and unlocked as often as locked. -/
structure ClientLock.Released (l : ClientLock) : Prop where
  free : l.held = false
  live : l.stuck = false
  balanced : l.locks = l.unlocks

/-! ### One request with its operations -/

/-- What the operations of a request give: the writes and the `sock_sendmsg`, the reads of the loop,
and the `sock_recvmsg`. -/
structure Script where
  sends : ℕ → Code
  reads : ℕ → Code × List Byte
  received : Code × Option Fd × List Byte

/-- The state of a request: the lock, the operations so far, and what the other functions use. -/
structure Guarded (ω : Type) where
  lock : ClientLock
  sends : ℕ
  reads : ℕ
  world : ω

/-- The client over a script; the functions of `base` that are neither the lock's nor the socket's
leave both alone. A stuck thread does nothing any more: in its place every operation fails, so that
a call that gets stuck returns with the stuck lock. -/
def guarded (base : ReplyOps ω sizeT) (script : Script) : ReplyOps (Guarded ω) sizeT where
  sockWrite _ s :=
    if s.lock.stuck then (.other (-1), s) else (script.sends s.sends, { s with sends := s.sends + 1 })
  sockSendmsg _ _ s :=
    if s.lock.stuck then (.other (-1), s) else (script.sends s.sends, { s with sends := s.sends + 1 })
  sockRead _ s :=
    if s.lock.stuck then ((.other (-1), []), s)
    else (script.reads s.reads, { s with reads := s.reads + 1 })
  sockRecvmsg _ s := (script.received, s)
  onLock s := { s with lock := s.lock.lock }
  onUnlock s := { s with lock := s.lock.unlock }
  updateTickCount s := { s with world := base.updateTickCount s.world }
  tickCounter s := base.tickCounter s.world
  lastTicks s := base.lastTicks s.world
  setLastTicks ticks s := { s with world := base.setLastTicks ticks s.world }
  checkHwnd hwnd s := base.checkHwnd hwnd s.world
  updateWindow hwnd left top right bottom s :=
    { s with world := base.updateWindow hwnd left top right bottom s.world }
  queueDeskMessage msg s := { s with world := base.queueDeskMessage msg s.world }

/-- A request begins with the lock free. -/
def Guarded.start (w : ω) : Guarded ω := ⟨⟨false, false, 0, 0⟩, 0, 0, w⟩

/-- A request that waits for its reply, with the next message to read. -/
def Guarded.waiting (sends k : ℕ) (w : ω) : Guarded ω := ⟨⟨true, false, 1, 0⟩, sends, k, w⟩

/-- **The lock discipline** of a call: if it returns, the lock is released. A call that locks twice
is one that returns stuck. -/
def ClientResult.Releases : ClientResult (Guarded ω) → Prop
  | .exits => True
  | .fails s => s.lock.Released
  | .ok _ s => s.lock.Released

/-! ### The condition -/

/-- The call goes on, or ends at an exit that unlocks. -/
def Settled (n : Code) : Prop := n.negative → n = .io ∨ n = .closed

instance (n : Code) : Decidable (Settled n) := inferInstanceAs (Decidable (_ → _))

/-- The code of the first operation that fails to send the request, or of the last one. -/
def Script.sent (script : Script) : Code :=
  if (script.sends 0).negative then script.sends 0
  else if (script.sends 1).negative then script.sends 1
  else if (script.sends 2).negative then script.sends 2
  else script.sends 3

section Request

variable (cfg : ClientConfig sizeT) (script : Script)

/-- The `k`-th message. -/
def Script.msg (k : ℕ) : Msg sizeT := cfg.layout.decode (script.reads k).2

/-- The `k`-th message is handled, and the loop goes on. -/
structure PassedOn (k : ℕ) : Prop where
  reads : ¬ (script.reads k).1.negative
  async : (script.msg cfg k).hwnd ≠ cfg.hwndInvalid
  awake : (script.msg cfg k).message ≠ cfg.msgWakeupClient

/-- The `k`-th turn is left by an exit that unlocks, or its message is no wake-up; a wake-up does no
harm when the client exits because it has not joined a layer. -/
structure TurnSafe (k : ℕ) : Prop where
  reads : Settled (script.reads k).1
  reply : ¬ (script.reads k).1.negative → (script.msg cfg k).hwnd = cfg.hwndInvalid →
    Settled script.received.1
  awake : ¬ (script.reads k).1.negative → (script.msg cfg k).hwnd ≠ cfg.hwndInvalid →
    (script.msg cfg k).message = cfg.msgWakeupClient → ¬ Permitted cfg cfg.reqidIamlive

/-- The client talks to the server about this request. -/
def Talks (request : Request) : Prop := cfg.mgIsServer = false ∧ Permitted cfg request.id

/-- No operation of the request fails with another code, and no message of it is a wake-up. -/
structure LockSafe (request : Request) (lenRslt : ℕ) : Prop where
  sent : Talks cfg request → Settled script.sent
  waited : Talks cfg request → ¬ script.sent.negative → lenRslt ≠ 0 →
    ∀ k, (∀ j < k, PassedOn cfg script j) → TurnSafe cfg script k

end Request

/-! ### The exits -/

section Exits

variable (cfg : ClientConfig sizeT) (base : ReplyOps ω sizeT) (script : Script)

theorem stuck_not_released {l : ClientLock} (stuck : l.stuck = true) : ¬ l.Released :=
  fun released => absurd (stuck.symm.trans released.live) (by decide)

theorem waiting_not_released (sends k : ℕ) (w : ω) : ¬ (Guarded.waiting sends k w).lock.Released :=
  fun released => Bool.noConfusion released.free

theorem unlock_released (sends k : ℕ) (w : ω) :
    (Guarded.waiting sends k w).lock.unlock.Released :=
  ⟨rfl, rfl, rfl⟩

/-- **`sock_error`**, with the lock held. -/
theorem sockError_releases {n : Code} (failed : n.negative) (sends k : ℕ) (w : ω) :
    (sockError (guarded base script) n (.waiting sends k w)).Releases ↔ Settled n := by
  cases n with
  | io => exact iff_of_true (unlock_released sends k w) fun _ => .inl rfl
  | closed => exact iff_of_true trivial fun _ => .inr rfl
  | invarg | other n =>
    refine iff_of_false (waiting_not_released sends k w) fun settled => ?_
    rcases settled failed with is_io | is_closed <;> contradiction

/-- **Sending** ends with the code of the script. -/
theorem sendRequest_guarded (request : Request) (w : ω) :
    ∃ sends, sendRequest (guarded base script).toClientOps sizeT request
      ((guarded base script).onLock (.start w)) = (script.sent, .waiting sends 0 w) := by
  by_cases first : (script.sends 0).negative
  · refine ⟨1, ?_⟩
    simp [sendRequest, guarded, Guarded.start, ClientLock.lock, Guarded.waiting, Script.sent, first]
  by_cases second : (script.sends 1).negative
  · refine ⟨2, ?_⟩
    simp [sendRequest, guarded, Guarded.start, ClientLock.lock, Guarded.waiting, Script.sent, first,
      second]
  by_cases third : (script.sends 2).negative
  · refine ⟨3, ?_⟩
    simp [sendRequest, guarded, Guarded.start, ClientLock.lock, Guarded.waiting, Script.sent, first,
      second, third]
  · refine ⟨4, ?_⟩
    simp [sendRequest, guarded, Guarded.start, ClientLock.lock, Guarded.waiting, Script.sent, first,
      second, third]

/-- **The head** of a request that talks to the server. -/
theorem requestHead_guarded {request : Request} (talks : Talks cfg request) (w : ω) :
    ∃ sends, requestHead cfg (guarded base script) request (.start w) =
      if script.sent.negative then sockError (guarded base script) script.sent (.waiting sends 0 w)
      else .ok none (.waiting sends 0 w) := by
  obtain ⟨client, permitted⟩ := talks
  obtain ⟨sends, sent⟩ := sendRequest_guarded base script request w
  refine ⟨sends, ?_⟩
  simp only [requestHead, client, Bool.false_eq_true, if_false,
    if_neg (permitted_iff.mp permitted), sent]

/-- A request that does not is over before the lock. -/
theorem requestHead_silent {request : Request} (silent : ¬ Talks cfg request) (s : Guarded ω) :
    requestHead cfg (guarded base script) request s = .fails s ∨
      requestHead cfg (guarded base script) request s = .exits := by
  unfold requestHead
  cases server : cfg.mgIsServer with
  | true => exact .inl rfl
  | false =>
    have leaves := not_not.mp fun stays => silent ⟨server, permitted_iff.mpr stays⟩
    rw [if_neg (by decide), if_pos leaves]
    exact .inr rfl

end Exits

/-! ### The turns -/

section Turns

variable (cfg : ClientConfig sizeT) (base : ReplyOps ω sizeT) (script : Script)

/-- **A request from inside one that waits** locks again. -/
theorem request_nested (client : cfg.mgIsServer = false) {request : Request}
    (permitted : Permitted cfg request.id) (sends k : ℕ) (w : ω) :
    clientRequestNoReply cfg (guarded base script) request (.waiting sends k w) =
      .fails ⟨⟨true, true, 1, 0⟩, sends, k, w⟩ := by
  simp only [clientRequestNoReply, requestHead, client, Bool.false_eq_true, if_false,
    if_neg (permitted_iff.mp permitted)]
  rfl

/-- The client exits instead when it has not joined the layer that the request needs. -/
theorem request_forbidden (client : cfg.mgIsServer = false) {request : Request}
    (forbidden : ¬ Permitted cfg request.id) (s : Guarded ω) :
    clientRequestNoReply cfg (guarded base script) request s = .exits := by
  have leaves := not_not.mp fun stays => forbidden (permitted_iff.mpr stays)
  rw [clientRequestNoReply, requestHead, client, if_neg (by decide), if_pos leaves]

/-- What a turn does, by what it reads. -/
inductive TurnEnds (cfg : ClientConfig sizeT) (script : Script) (sends k : ℕ) :
    Option (Guarded ω ⊕ Waited (Guarded ω)) → Prop
  | fails (w : ω) (negative : (script.reads k).1.negative) :
      TurnEnds cfg script sends k
        (some (.inr (.error (script.reads k).1 (.waiting sends (k + 1) w))))
  | marker (w : ω) (reads : ¬ (script.reads k).1.negative)
      (invalid : (script.msg cfg k).hwnd = cfg.hwndInvalid) :
      TurnEnds cfg script sends k (some (.inr (.marker (.waiting sends (k + 1) w))))
  | sticks (s : Guarded ω) (reads : ¬ (script.reads k).1.negative)
      (async : (script.msg cfg k).hwnd ≠ cfg.hwndInvalid)
      (wakes : (script.msg cfg k).message = cfg.msgWakeupClient)
      (permitted : Permitted cfg cfg.reqidIamlive) (stuck : s.lock.stuck = true) :
      TurnEnds cfg script sends k (some (.inl s))
  | exits (reads : ¬ (script.reads k).1.negative)
      (async : (script.msg cfg k).hwnd ≠ cfg.hwndInvalid)
      (wakes : (script.msg cfg k).message = cfg.msgWakeupClient)
      (forbidden : ¬ Permitted cfg cfg.reqidIamlive) :
      TurnEnds cfg script sends k (some (.inr .exits))
  | passes (w : ω) (passed : PassedOn cfg script k) :
      TurnEnds cfg script sends k (some (.inl (.waiting sends (k + 1) w)))

/-- The state that a call leaves, unless the client exits. -/
def ClientResult.after {σ : Type} : ClientResult σ → Option σ
  | .exits => none
  | .fails s => some s
  | .ok _ s => some s

/-- A wake-up sends a request of its own. -/
theorem wakeup_request {σ : Type} (ops : ReplyOps σ sizeT) {msg : Msg sizeT}
    (wakes : msg.message = cfg.msgWakeupClient) (s : σ) :
    processSocketMessage cfg ops msg s =
      (clientRequestNoReply cfg ops (iamlive cfg (ops.tickCounter (ops.updateTickCount s)))
        (ops.setLastTicks (ops.tickCounter (ops.updateTickCount s)) (ops.updateTickCount s))).after := by
  rw [processSocketMessage, if_pos wakes, checkLive, if_pos (.inl rfl), iamlive]
  dsimp only
  generalize clientRequestNoReply cfg ops _ _ = result
  cases result <;> rfl

/-- Any other message leaves the lock alone. -/
theorem processSocketMessage_passes {msg : Msg sizeT} (awake : msg.message ≠ cfg.msgWakeupClient)
    (sends k : ℕ) (w : ω) :
    ∃ w', processSocketMessage cfg (guarded base script) msg (.waiting sends k w) =
      some (.waiting sends k w') := by
  unfold processSocketMessage
  rw [if_neg awake]
  split
  · exact ⟨_, rfl⟩
  split
  · exact ⟨_, rfl⟩
  split
  · exact ⟨_, rfl⟩
  · exact ⟨w, rfl⟩

/-- **One turn.** -/
theorem turn_ends (client : cfg.mgIsServer = false) (sends k : ℕ) (w : ω) :
    TurnEnds cfg script sends k (waitTurn cfg (guarded base script) (.waiting sends k w)) := by
  have read : (guarded base script).sockRead cfg.layout.size (.waiting sends k w) =
      (script.reads k, .waiting sends (k + 1) w) := rfl
  have decoded : cfg.layout.decode (script.reads k).2 = script.msg cfg k := rfl
  simp only [waitTurn, read, decoded]
  by_cases negative : (script.reads k).1.negative
  · rw [if_pos negative]
    exact .fails w negative
  rw [if_neg negative]
  by_cases invalid : (script.msg cfg k).hwnd = cfg.hwndInvalid
  · rw [if_pos invalid]
    exact .marker w negative invalid
  rw [if_neg invalid]
  by_cases wakes : (script.msg cfg k).message = cfg.msgWakeupClient
  · have sent := wakeup_request cfg (guarded base script) wakes (.waiting sends (k + 1) w)
    by_cases permitted : Permitted cfg cfg.reqidIamlive
    · rw [sent.trans (congrArg ClientResult.after
        (request_nested cfg base script client permitted sends (k + 1) _))]
      exact .sticks _ negative invalid wakes permitted rfl
    · rw [sent.trans (congrArg ClientResult.after
        (request_forbidden cfg base script client permitted _))]
      exact .exits negative invalid wakes permitted
  · obtain ⟨w', passes⟩ := processSocketMessage_passes cfg base script wakes sends (k + 1) w
    rw [passes]
    exact .passes w' ⟨negative, invalid, wakes⟩

/-- A thread that is stuck comes back stuck. -/
theorem turn_stuck {s : Guarded ω} (stuck : s.lock.stuck = true) :
    waitTurn cfg (guarded base script) s = some (.inr (.error (.other (-1)) s)) := by
  have read : (guarded base script).sockRead cfg.layout.size s = ((.other (-1), []), s) :=
    if_pos stuck
  simp only [waitTurn, read]
  rfl

end Turns

/-! ### The loop -/

section Waiting

variable (cfg : ClientConfig sizeT) (base : ReplyOps ω sizeT) (script : Script) (lenRslt : ℕ)
  (wantsFd : Bool)

/-- Every return from a loop that goes on here releases the lock. -/
def Releasing (s : Guarded ω) : Prop :=
  Always (waitTurn cfg (guarded base script))
    (fun waited => (receiveReply (guarded base script) lenRslt wantsFd waited).Releases) s

/-- **The reply** behind the marker. -/
theorem reply_releases (sends k : ℕ) (w : ω) :
    (receiveReply (guarded base script) lenRslt wantsFd (.marker (.waiting sends k w))).Releases ↔
      Settled script.received.1 := by
  have received : (guarded base script).sockRecvmsg lenRslt (.waiting sends k w) =
      (script.received, .waiting sends k w) := rfl
  simp only [receiveReply, received]
  by_cases failed : script.received.1.negative
  · rw [if_pos failed]
    exact sockError_releases base script failed sends k w
  · rw [if_neg failed]
    exact iff_of_true (unlock_released sends k w) fun negative => absurd negative failed

/-- A loop that releases the lock survives its first turn. -/
theorem Releasing.turnSafe (client : cfg.mgIsServer = false) {sends k : ℕ} {w : ω}
    (releasing : Releasing cfg base script lenRslt wantsFd (.waiting sends k w)) :
    TurnSafe cfg script k := by
  have ends := turn_ends cfg base script client sends k w
  generalize turned : waitTurn cfg (guarded base script) (.waiting sends k w) = turn at ends
  cases ends with
  | fails w' negative =>
    have settled := (sockError_releases base script negative sends (k + 1) w').mp
      ((always_exit turned).mp releasing)
    exact ⟨settled, fun reads => absurd negative reads, fun reads => absurd negative reads⟩
  | marker w' reads invalid =>
    have settled := (reply_releases base script lenRslt wantsFd sends (k + 1) w').mp
      ((always_exit turned).mp releasing)
    exact ⟨fun negative => absurd negative reads, fun _ _ => settled,
      fun _ async => absurd invalid async⟩
  | sticks s reads async wakes permitted stuck =>
    have later := (always_again turned).mp releasing
    exact absurd ((always_exit (turn_stuck cfg base script stuck)).mp later)
      (stuck_not_released stuck)
  | exits reads async wakes forbidden =>
    exact ⟨fun negative => absurd negative reads, fun _ invalid => absurd invalid async,
      fun _ _ _ => forbidden⟩
  | passes w' passed =>
    exact ⟨fun negative => absurd negative passed.reads,
      fun _ invalid => absurd invalid passed.async, fun _ _ wakes => absurd wakes passed.awake⟩

/-- A message that is passed on leaves the loop at the next one. -/
theorem Releasing.next (client : cfg.mgIsServer = false) {sends k : ℕ} {w : ω}
    (releasing : Releasing cfg base script lenRslt wantsFd (.waiting sends k w))
    (passed : PassedOn cfg script k) :
    ∃ w', Releasing cfg base script lenRslt wantsFd (.waiting sends (k + 1) w') := by
  have ends := turn_ends cfg base script client sends k w
  generalize turned : waitTurn cfg (guarded base script) (.waiting sends k w) = turn at ends
  cases ends with
  | fails w' negative => exact absurd negative passed.reads
  | marker w' reads invalid => exact absurd invalid passed.async
  | sticks s reads async wakes => exact absurd wakes passed.awake
  | exits reads async wakes => exact absurd wakes passed.awake
  | passes w' => exact ⟨w', (always_again turned).mp releasing⟩

/-- It survives every turn it gets to. -/
theorem Releasing.turnSafe_at (client : cfg.mgIsServer = false) {sends : ℕ} (later : ℕ) {k : ℕ} {w : ω}
    (releasing : Releasing cfg base script lenRslt wantsFd (.waiting sends k w))
    (passed : ∀ j, k ≤ j → j < k + later → PassedOn cfg script j) :
    TurnSafe cfg script (k + later) := by
  induction later generalizing k w with
  | zero => exact releasing.turnSafe cfg base script lenRslt wantsFd client
  | succ later ih =>
    obtain ⟨w', next⟩ :=
      releasing.next cfg base script lenRslt wantsFd client (passed k le_rfl (by omega))
    rw [← Nat.add_assoc, Nat.add_right_comm]
    exact ih next fun j behind before => passed j (by omega) (by omega)

/-- A loop whose turns are safe, as far as it gets, releases the lock. -/
theorem releasing_of_turnSafe (client : cfg.mgIsServer = false) {sends : ℕ} {w : ω}
    (safe : ∀ k, (∀ j < k, PassedOn cfg script j) → TurnSafe cfg script k) :
    Releasing cfg base script lenRslt wantsFd (.waiting sends 0 w) := by
  intro fuel waited returns
  -- the loop is at the `k`-th message, and has passed on those before it
  let Inv : Guarded ω → Prop := fun s =>
    ∃ k w, s = .waiting sends k w ∧ ∀ j < k, PassedOn cfg script j
  refine loop_partial Inv
    (fun waited => (receiveReply (guarded base script) lenRslt wantsFd waited).Releases) ?_
    ⟨0, w, rfl, by simp⟩ returns
  rintro s out ⟨k, w, rfl, passed⟩ turned
  have now := safe k passed
  have ends := turn_ends cfg base script client sends k w
  rw [turned] at ends
  cases ends with
  | fails w' negative =>
    exact (sockError_releases base script negative sends (k + 1) w').mpr now.reads
  | marker w' reads invalid =>
    exact (reply_releases base script lenRslt wantsFd sends (k + 1) w').mpr (now.reply reads invalid)
  | sticks s reads async wakes permitted => exact absurd permitted (now.awake reads async wakes)
  | exits => trivial
  | passes w' here =>
    exact ⟨k + 1, w', rfl, fun j early => (Nat.lt_succ_iff_lt_or_eq.mp early).elim (passed j)
      fun same => same ▸ here⟩

/-- **The loop** releases the lock exactly when the turns it gets to are safe. -/
theorem releasing_iff (client : cfg.mgIsServer = false) {sends : ℕ} {w : ω} :
    Releasing cfg base script lenRslt wantsFd (.waiting sends 0 w) ↔
      ∀ k, (∀ j < k, PassedOn cfg script j) → TurnSafe cfg script k := by
  refine ⟨fun releasing k passed => ?_, releasing_of_turnSafe cfg base script lenRslt wantsFd client⟩
  rw [← Nat.zero_add k]
  exact releasing.turnSafe_at cfg base script lenRslt wantsFd client k fun j _ before =>
    passed j (by omega)

end Waiting

/-! ### The request -/

section Whole

variable (cfg : ClientConfig sizeT) (base : ReplyOps ω sizeT) (script : Script)

/-- A request whose head is left early ends there. -/
theorem clientRequestEx2_early {fuel lenRslt : ℕ} {request : Request} {wantsFd : Bool}
    {s : Guarded ω} {result : ClientResult (Guarded ω)}
    (head : requestHead cfg (guarded base script) request s = result)
    (early : ∀ reply s', result ≠ .ok reply s') :
    clientRequestEx2 cfg (guarded base script) fuel request lenRslt wantsFd s = some result := by
  have whole : clientRequestNoReply cfg (guarded base script) request s = result := by
    rw [clientRequestNoReply, head]
    cases result with
    | exits | fails s' => rfl
    | ok reply s' => exact absurd rfl (early reply s')
  unfold clientRequestEx2
  rw [whole, head]
  split
  · rfl
  · cases result with
    | exits | fails s' => rfl
    | ok reply s' => exact absurd rfl (early reply s')

/-- Otherwise it waits for the reply if it wants one. -/
theorem clientRequestEx2_late {fuel lenRslt : ℕ} {request : Request} {wantsFd : Bool}
    {s s' : Guarded ω} (head : requestHead cfg (guarded base script) request s = .ok none s') :
    clientRequestEx2 cfg (guarded base script) fuel request lenRslt wantsFd s =
      if lenRslt = 0 then some (.ok none { s' with lock := s'.lock.unlock })
      else (loop (waitTurn cfg (guarded base script)) fuel s').map
        (receiveReply (guarded base script) lenRslt wantsFd) := by
  rw [clientRequestEx2, clientRequestNoReply, head]
  rfl

theorem sockError_early (n : Code) (s : Guarded ω) (reply : Option Reply) (s' : Guarded ω) :
    sockError (guarded base script) n s ≠ .ok reply s' := by
  cases n <;> nofun

/-- **The lock of a request.** Whatever the operations of one request give and whatever messages it
reads, every return of `ClientRequestEx2` leaves the lock released after one unlock for its one lock,
and it never locked while the lock was held, exactly when it is safe. -/
theorem request_lock_iff (request : Request) (lenRslt : ℕ) (wantsFd : Bool) (w : ω) :
    (∀ fuel result, clientRequestEx2 cfg (guarded base script) fuel request lenRslt wantsFd
        (.start w) = some result → result.Releases) ↔ LockSafe cfg script request lenRslt := by
  by_cases talks : Talks cfg request
  · obtain ⟨sends, head⟩ := requestHead_guarded cfg base script talks w
    by_cases failed : script.sent.negative
    · rw [if_pos failed] at head
      have ends : ∀ fuel, clientRequestEx2 cfg (guarded base script) fuel request lenRslt wantsFd
          (.start w) = some (sockError (guarded base script) script.sent (.waiting sends 0 w)) :=
        fun fuel => clientRequestEx2_early cfg base script head (sockError_early base script _ _)
      have settled := sockError_releases base script failed sends 0 w
      constructor
      · intro released
        exact ⟨fun _ => settled.mp (released 0 _ (ends 0)), fun _ reached => absurd failed reached⟩
      · intro safe fuel result returns
        obtain rfl := Option.some.inj ((ends fuel).symm.trans returns)
        exact settled.mpr (safe.sent talks)
    · rw [if_neg failed] at head
      have ends : ∀ fuel, clientRequestEx2 cfg (guarded base script) fuel request lenRslt wantsFd
          (.start w) = if lenRslt = 0 then some (.ok none ⟨_, sends, 0, w⟩)
            else (loop (waitTurn cfg (guarded base script)) fuel (.waiting sends 0 w)).map
              (receiveReply (guarded base script) lenRslt wantsFd) :=
        fun fuel => clientRequestEx2_late cfg base script head
      simp only [ends]
      have sent : Settled script.sent := fun negative => absurd negative failed
      by_cases silent : lenRslt = 0
      · simp only [if_pos silent, Option.some.injEq]
        refine iff_of_true (fun fuel result returns => ?_)
          ⟨fun _ => sent, fun _ _ wanted => absurd silent wanted⟩
        rw [← returns]
        exact unlock_released sends 0 w
      · simp only [if_neg silent, Option.map_eq_some_iff]
        have loops : Releasing cfg base script lenRslt wantsFd (.waiting sends 0 w) ↔ _ :=
          releasing_iff cfg base script lenRslt wantsFd talks.1
        constructor
        · intro released
          exact ⟨fun _ => sent, fun _ _ _ => loops.mp fun fuel waited returns =>
            released fuel _ ⟨waited, returns, rfl⟩⟩
        · rintro safe fuel result ⟨waited, returns, rfl⟩
          exact loops.mpr (safe.waited talks failed silent) fuel waited returns
  · refine iff_of_true (fun fuel result returns => ?_)
      ⟨fun talks' => absurd talks' talks, fun talks' => absurd talks' talks⟩
    rcases requestHead_silent cfg base script talks (.start w) with head | head
    · rw [clientRequestEx2_early cfg base script head (by nofun)] at returns
      obtain rfl := Option.some.inj returns
      exact ⟨rfl, rfl, rfl⟩
    · rw [clientRequestEx2_early cfg base script head (by nofun)] at returns
      obtain rfl := Option.some.inj returns
      trivial

end Whole

/-! ### A lock that is kept, and one that is taken twice -/

/-- The request is sent, and a wake-up is in front of its reply. -/
def wokenScript : Script where
  sends _ := .other 0
  reads _ := (.other 20, layout32.encode ⟨0, 7, 0, 0, 0⟩)
  received := (.other 4, none, [0, 0, 0, 0])

/-- The first write finds an argument invalid. -/
def invalidScript : Script := { wokenScript with sends _ := .invarg }

/-- The wake-up locks while the request holds the lock; the invalid argument leaves it locked. -/
theorem request_lock_lost :
    (∃ s, clientRequestEx2 smallClient (guarded (replyOps (fun _ => true) queueing) wokenScript) 2
        ⟨3, [], [], -1⟩ 4 false (.start repliedWire) = some (.fails s) ∧ s.lock.stuck = true) ∧
      ∃ s, clientRequestEx2 smallClient (guarded (replyOps (fun _ => true) queueing) invalidScript) 2
        ⟨3, [], [], -1⟩ 4 false (.start repliedWire) = some (.fails s) ∧
          s.lock = ⟨true, false, 1, 0⟩ :=
  ⟨⟨_, rfl, rfl⟩, ⟨_, rfl, rfl⟩⟩

end Aple.ClientServer
