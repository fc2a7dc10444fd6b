/-
**Replies and messages on one stream.**

* `Wire` — the two streams between a client and the server with the state of the client; `replyOps`
  runs the client over it.
* `processSocketMessage_wire` — handling a message, also one that sends a request, leaves what comes
  from the server as it is.
* `wait_marker` — the loop handles the messages in front of the marker, in order.
* **`reply_demultiplexed`** — a request gets its reply, and the stream is right behind it.
-/

import Aple.ClientServer.Framing
import Aple.ClientServer.Reply

namespace Aple.ClientServer

open Aple.Lib

variable {ω : Type} {sizeT : ℕ}

/-! ### The streams -/

/-- What the client and the server have written and the other has not read, and the client. -/
structure Wire (sizeT : ℕ) (ω : Type) where
  toServer : List (Cell Fd)
  toClient : List (Cell Fd)
  lastTicks : BitVec (8 * sizeT)
  world : ω

/-- The functions of the client that do not touch the socket. -/
structure ClientOutside (sizeT : ℕ) (ω : Type) where
  onLock : ω → ω
  onUnlock : ω → ω
  updateTickCount : ω → ω
  tickCounter : ω → BitVec (8 * sizeT)
  checkHwnd : BitVec (8 * sizeT) → ω → Bool
  updateWindow : BitVec (8 * sizeT) → ℤ → ℤ → ℤ → ℤ → ω → ω
  queueDeskMessage : Msg sizeT → ω → ω

/-- The client over the two streams. -/
def replyOps (attaches : ℕ → Bool) (out : ClientOutside sizeT ω) : ReplyOps (Wire sizeT ω) sizeT where
  sockWrite bytes s :=
    let (n, stream) := (clientOps attaches).sockWrite bytes s.toServer
    (n, { s with toServer := stream })
  sockSendmsg bytes fd s :=
    let (n, stream) := (clientOps attaches).sockSendmsg bytes fd s.toServer
    (n, { s with toServer := stream })
  sockRead count s :=
    match readBytes count s.toClient with
    | none => ((.closed, []), s)
    | some (bytes, rest) => ((.other count, bytes), { s with toClient := rest })
  sockRecvmsg count s :=
    match receiveMsg count s.toClient with
    | none => ((.closed, none, []), s)
    | some (fd, bytes, rest) => ((.other count, fd, bytes), { s with toClient := rest })
  onLock s := { s with world := out.onLock s.world }
  onUnlock s := { s with world := out.onUnlock s.world }
  updateTickCount s := { s with world := out.updateTickCount s.world }
  tickCounter s := out.tickCounter s.world
  lastTicks s := s.lastTicks
  setLastTicks ticks s := { s with lastTicks := ticks }
  checkHwnd hwnd s := out.checkHwnd hwnd s.world
  updateWindow hwnd left top right bottom s :=
    { s with world := out.updateWindow hwnd left top right bottom s.world }
  queueDeskMessage msg s := { s with world := out.queueDeskMessage msg s.world }

/-- The messages are handled one after the other. -/
def processAll {σ : Type} (cfg : ClientConfig sizeT) (ops : ReplyOps σ sizeT) (msgs : List (Msg sizeT))
    (s : σ) : Option σ :=
  msgs.foldlM (fun s msg => processSocketMessage cfg ops msg s) s

/-- The client does not exit because of a missing layer when it sends this request. -/
def Permitted (cfg : ClientConfig sizeT) (id : BitVec 32) : Prop :=
  cfg.mgClientId ≠ 0 ∨ id &&& cfg.reqmaskJoinlayerfirst = 0

theorem permitted_iff {cfg : ClientConfig sizeT} {id : BitVec 32} :
    Permitted cfg id ↔ ¬ (cfg.mgClientId = 0 ∧ id &&& cfg.reqmaskJoinlayerfirst ≠ 0) := by
  rw [Permitted, not_and_or, not_ne_iff]

/-! ### Sending -/

section Client

variable (cfg : ClientConfig sizeT) (attaches : ℕ → Bool) (out : ClientOutside sizeT ω)

/-- What a request writes. -/
theorem sendRequest_wire (request : Request) (s : Wire sizeT ω) :
    sendRequest (replyOps attaches out).toClientOps sizeT request s =
      (.other request.payload.length,
        { s with toServer := s.toServer ++ frame attaches sizeT request }) := by
  simp only [sendRequest, replyOps, clientOps, negative_count, Bool.false_eq_true, if_false, frame,
    Request.payload, Request.control, List.append_assoc]

variable {cfg}

/-- A request that is permitted is sent. -/
theorem requestHead_wire (client : cfg.mgIsServer = false) (request : Request)
    (permitted : Permitted cfg request.id) (s : Wire sizeT ω) :
    requestHead cfg (replyOps attaches out) request s = .ok none
      { s with
        toServer := s.toServer ++ frame attaches sizeT request
        world := out.onLock s.world } := by
  simp only [requestHead, client, Bool.false_eq_true, if_false, if_neg (permitted_iff.mp permitted),
    sendRequest_wire, negative_count]
  rfl

/-- The request that tells the server that the client is alive. -/
def iamlive (cfg : ClientConfig sizeT) (ticks : BitVec (8 * sizeT)) : Request :=
  ⟨cfg.reqidIamlive, toBytes 4 ticks.toNat, [], -1⟩

/-- **A wake-up** sends one request from inside the one that waits, and waits for nothing itself. -/
theorem processSocketMessage_wakeup (client : cfg.mgIsServer = false)
    (live : Permitted cfg cfg.reqidIamlive) {msg : Msg sizeT}
    (wakes : msg.message = cfg.msgWakeupClient)
    (s : Wire sizeT ω) :
    processSocketMessage cfg (replyOps attaches out) msg s =
      let world := out.updateTickCount s.world
      let ticks := out.tickCounter world
      some
        { toServer := s.toServer ++ frame attaches sizeT (iamlive cfg ticks)
          toClient := s.toClient
          lastTicks := ticks
          world := out.onUnlock (out.onLock world) } := by
  simp only [processSocketMessage, if_pos wakes, checkLive, true_or, if_true, clientRequestNoReply]
  rw [requestHead_wire attaches out client _ live]
  rfl

/-- **Handling a message** succeeds, and neither reads nor changes what comes from the server. -/
theorem processSocketMessage_wire (client : cfg.mgIsServer = false)
    (live : Permitted cfg cfg.reqidIamlive) (msg : Msg sizeT) (s : Wire sizeT ω) :
    ∃ toServer lastTicks world, ∀ toClient,
      processSocketMessage cfg (replyOps attaches out) msg { s with toClient := toClient } =
        some ⟨toServer, toClient, lastTicks, world⟩ := by
  by_cases wakes : msg.message = cfg.msgWakeupClient
  · let ticks := out.tickCounter (out.updateTickCount s.world)
    exact ⟨s.toServer ++ frame attaches sizeT (iamlive cfg ticks), ticks,
      out.onUnlock (out.onLock (out.updateTickCount s.world)), fun toClient =>
        processSocketMessage_wakeup attaches out client live wakes { s with toClient := toClient }⟩
  · by_cases updates : msg.message = cfg.msgUpdatecliwin ∧ out.checkHwnd msg.hwnd s.world = true
    · refine ⟨s.toServer, s.lastTicks, out.updateWindow msg.hwnd (losword msg.wParam)
        (hisword msg.wParam) (losword msg.lParam) (hisword msg.lParam) s.world, fun toClient => ?_⟩
      exact (if_neg wakes).trans (if_pos updates)
    · by_cases isNull : msg.hwnd = cfg.hwndNull
      · refine ⟨s.toServer, s.lastTicks,
          out.queueDeskMessage { msg with hwnd := cfg.hwndDesktop } s.world, fun toClient => ?_⟩
        exact (if_neg wakes).trans ((if_neg updates).trans (if_pos isNull))
      · by_cases mine : out.checkHwnd msg.hwnd s.world = true
        · refine ⟨s.toServer, s.lastTicks, out.queueDeskMessage msg s.world, fun toClient => ?_⟩
          exact (if_neg wakes).trans ((if_neg updates).trans ((if_neg isNull).trans (if_pos mine)))
        · refine ⟨s.toServer, s.lastTicks, s.world, fun toClient => ?_⟩
          exact (if_neg wakes).trans ((if_neg updates).trans ((if_neg isNull).trans (if_neg mine)))

/-- Handling several messages likewise. -/
theorem processAll_wire (client : cfg.mgIsServer = false) (live : Permitted cfg cfg.reqidIamlive)
    (msgs : List (Msg sizeT)) (s : Wire sizeT ω) :
    ∃ toServer lastTicks world, ∀ toClient,
      processAll cfg (replyOps attaches out) msgs { s with toClient := toClient } =
        some ⟨toServer, toClient, lastTicks, world⟩ := by
  induction msgs generalizing s with
  | nil => exact ⟨s.toServer, s.lastTicks, s.world, fun _ => rfl⟩
  | cons msg rest ih =>
    obtain ⟨toServer, lastTicks, world, first⟩ :=
      processSocketMessage_wire attaches out client live msg s
    obtain ⟨toServer', lastTicks', world', others⟩ := ih ⟨toServer, s.toClient, lastTicks, world⟩
    refine ⟨toServer', lastTicks', world', fun toClient => ?_⟩
    rw [processAll, List.foldlM_cons, first toClient]
    exact others toClient

/-! ### Waiting for the marker -/

/-- A message is read from the front of the stream. -/
theorem sockRead_msg (msg : Msg sizeT) (rest : List (Cell Fd)) (s : Wire sizeT ω) :
    (replyOps attaches out).sockRead cfg.layout.size
        { s with toClient := cells (cfg.layout.encode msg) ++ rest } =
      ((.other cfg.layout.size, cfg.layout.encode msg), { s with toClient := rest }) := by
  have reads := readBytes_cells (cfg.layout.encode msg) rest
  rw [cfg.layout.length_encode] at reads
  simp only [replyOps, reads]

/-- The marker ends the loop. -/
theorem waitTurn_marker (rest : List (Cell Fd)) (s : Wire sizeT ω) :
    waitTurn cfg (replyOps attaches out)
        { s with toClient := cells (cfg.layout.encode cfg.marker) ++ rest } =
      some (.inr (.marker { s with toClient := rest })) := by
  simp only [waitTurn, sockRead_msg, negative_count, cfg.layout.decode_encode, Bool.false_eq_true,
    if_false]
  exact if_pos rfl

/-- Another message is handled, and the loop goes on behind it. -/
theorem waitTurn_msg {msg : Msg sizeT} (async : msg.hwnd ≠ cfg.hwndInvalid) (rest : List (Cell Fd))
    {s after : Wire sizeT ω}
    (handled : processSocketMessage cfg (replyOps attaches out) msg { s with toClient := rest } =
      some after) :
    waitTurn cfg (replyOps attaches out)
        { s with toClient := cells (cfg.layout.encode msg) ++ rest } = some (.inl after) := by
  simp only [waitTurn, sockRead_msg, negative_count, cfg.layout.decode_encode, Bool.false_eq_true,
    if_false, if_neg async, handled]

/-- **The loop** handles the messages in front of the marker in order, and stops behind it. -/
theorem wait_marker (client : cfg.mgIsServer = false) (live : Permitted cfg cfg.reqidIamlive)
    {msgs : List (Msg sizeT)} (async : ∀ msg ∈ msgs, msg.hwnd ≠ cfg.hwndInvalid)
    (rest : List (Cell Fd)) (s : Wire sizeT ω) :
    ∃ after, processAll cfg (replyOps attaches out) msgs { s with toClient := rest } = some after ∧
      after.toClient = rest ∧ ∀ fuel, msgs.length < fuel →
        loop (waitTurn cfg (replyOps attaches out)) fuel { s with
          toClient := msgs.flatMap (fun msg => cells (cfg.layout.encode msg)) ++
            (cells (cfg.layout.encode cfg.marker) ++ rest) } = some (.marker after) := by
  induction msgs generalizing s with
  | nil =>
    refine ⟨{ s with toClient := rest }, rfl, rfl, fun fuel enough => ?_⟩
    obtain ⟨fuel, rfl⟩ := Nat.exists_eq_add_of_lt enough
    exact loop_exit (waitTurn_marker attaches out rest s)
  | cons msg later ih =>
    obtain ⟨toServer, lastTicks, world, first⟩ :=
      processSocketMessage_wire attaches out client live msg s
    obtain ⟨after, handled, position, returns⟩ :=
      ih (fun other member => async other (List.mem_cons_of_mem _ member))
        ⟨toServer, rest, lastTicks, world⟩
    refine ⟨after, ?_, position, fun fuel enough => ?_⟩
    · rw [processAll, List.foldlM_cons, first rest]
      exact handled
    · obtain ⟨fuel, rfl⟩ : ∃ more, fuel = more + 1 := ⟨fuel - 1, by omega⟩
      rw [List.flatMap_cons, List.append_assoc,
        loop_again (waitTurn_msg attaches out (async msg List.mem_cons_self) _ (first _))]
      exact returns fuel (Nat.lt_of_succ_lt_succ enough)

/-! ### The reply -/

/-- The descriptor that arrives with a message. -/
def arriving (attaches : ℕ → Bool) (fdToSend : Fd) (len : ℕ) : Option Fd :=
  if attaches len ∧ fdToSend ≥ 0 then some fdToSend else none

/-- A reply that is not empty is received whole, with its descriptor if the stream carries it. -/
theorem receiveMsg_reply {reply : List Byte} (some_bytes : reply ≠ []) (fdToSend : Fd)
    (rest : List (Cell Fd)) :
    receiveMsg reply.length
        (message attaches (if fdToSend ≥ 0 then some fdToSend else none) reply ++ rest) =
      some (arriving attaches fdToSend reply.length, reply, rest) := by
  have bare :
      receiveMsg reply.length (cells reply ++ rest) = some ((none : Option Fd), reply, rest) := by
    cases reply with
    | nil => exact absurd rfl some_bytes
    | cons byte others =>
      show (readBytes (others.length + 1) (cells (byte :: others) ++ rest)).map _ = _
      rw [show others.length + 1 = (byte :: others).length from rfl, readBytes_cells]
      rfl
  unfold arriving
  by_cases some_fd : fdToSend ≥ 0
  · rw [if_pos some_fd]
    by_cases carried : attaches reply.length = true
    · rw [if_pos ⟨carried, some_fd⟩, message, if_pos carried]
      exact receiveMsg_attached fdToSend reply rest
    · rw [if_neg fun both => carried both.1, message, if_neg carried]
      exact bare
  · rw [if_neg some_fd, if_neg fun both => some_fd both.2]
    exact bare

end Client

/-! ### The server -/

section Server

variable (cfg : ClientConfig sizeT) (attaches : ℕ → Bool)

theorem sendMsgs_cells (msgs : List (Msg sizeT)) (stream : List (Cell Fd)) :
    sendMsgs cfg (clientOps attaches) msgs stream =
      stream ++ msgs.flatMap fun msg => cells (cfg.layout.encode msg) := by
  induction msgs generalizing stream with
  | nil => exact (List.append_nil stream).symm
  | cons msg rest ih =>
    show sendMsgs cfg (clientOps attaches) rest (stream ++ cells (cfg.layout.encode msg)) = _
    rw [ih, List.append_assoc, List.flatMap_cons]

/-- **What the server writes** for a reply. -/
theorem serverSendReplyEx_cells (reply : List Byte) (fdToSend : Fd) (stream : List (Cell Fd)) :
    serverSendReplyEx cfg (clientOps attaches) reply fdToSend stream =
      (.other reply.length, stream ++ (cells (cfg.layout.encode cfg.marker) ++
        message attaches (if fdToSend ≥ 0 then some fdToSend else none) reply)) := by
  simp only [serverSendReplyEx, clientOps, negative_count, Bool.false_eq_true, if_false,
    List.append_assoc]

end Server

/-! ### A request with a reply -/

/-- **Reply demultiplexing.** The server writes any messages, the reply of a request behind its
marker, and any messages again. `ClientRequestEx2` then returns 0 with the bytes of the reply; the
messages in front of the marker were handled one after the other, wake-ups with their requests
included; and what is left of the stream is what was written behind the reply. -/
theorem reply_demultiplexed (cfg : ClientConfig sizeT) (attaches : ℕ → Bool)
    (out : ClientOutside sizeT ω) (request : Request) (before after : List (Msg sizeT))
    (reply : List Byte) (fdToSend : Fd) (wantsFd : Bool) (s : Wire sizeT ω)
    (client : cfg.mgIsServer = false) (permitted : Permitted cfg request.id)
    (live : Permitted cfg cfg.reqidIamlive) (async : ∀ msg ∈ before, msg.hwnd ≠ cfg.hwndInvalid)
    (some_bytes : reply ≠ []) (arrived : s.toClient = sendMsgs cfg (clientOps attaches) after
      (serverSendReplyEx cfg (clientOps attaches) reply fdToSend
        (sendMsgs cfg (clientOps attaches) before [])).2) :
    ∃ handled : Wire sizeT ω,
      processAll cfg (replyOps attaches out) before
        { toServer := s.toServer ++ frame attaches sizeT request
          toClient := sendMsgs cfg (clientOps attaches) after []
          lastTicks := s.lastTicks
          world := out.onLock s.world } = some handled ∧
      handled.toClient = sendMsgs cfg (clientOps attaches) after [] ∧
      Yields (fun fuel => clientRequestEx2 cfg (replyOps attaches out) fuel request reply.length wantsFd s)
        before.length (.ok
          (some ⟨reply,
            if wantsFd then some ((arriving attaches fdToSend reply.length).getD (-1)) else none⟩)
          { handled with world := out.onUnlock handled.world }) := by
  rw [sendMsgs_cells, serverSendReplyEx_cells, sendMsgs_cells, List.nil_append, List.append_assoc,
    List.append_assoc] at arrived
  rw [sendMsgs_cells, List.nil_append]
  generalize after.flatMap (fun msg => cells (cfg.layout.encode msg)) = rest at arrived ⊢
  obtain ⟨waited, handled, position, returns⟩ := wait_marker attaches out client live async
    (message attaches (if fdToSend ≥ 0 then some fdToSend else none) reply ++ rest)
    { toServer := s.toServer ++ frame attaches sizeT request
      toClient := rest
      lastTicks := s.lastTicks
      world := out.onLock s.world }
  obtain ⟨toServer, lastTicks, world, processed⟩ := processAll_wire attaches out client live before
    { toServer := s.toServer ++ frame attaches sizeT request
      toClient := rest
      lastTicks := s.lastTicks
      world := out.onLock s.world }
  obtain rfl := Option.some.inj (handled.symm.trans (processed _))
  have not_empty : reply.length ≠ 0 := fun none_left => some_bytes (List.length_eq_zero_iff.mp none_left)
  have runs : ∀ fuel, clientRequestEx2 cfg (replyOps attaches out) fuel request reply.length wantsFd s =
      (loop (waitTurn cfg (replyOps attaches out)) fuel
        { toServer := s.toServer ++ frame attaches sizeT request
          toClient := s.toClient
          lastTicks := s.lastTicks
          world := out.onLock s.world }).map
        (receiveReply (replyOps attaches out) reply.length wantsFd) := by
    intro fuel
    rw [clientRequestEx2, if_neg not_empty, requestHead_wire attaches out client request permitted]
  have received : receiveReply (replyOps attaches out) reply.length wantsFd (.marker
      ⟨toServer, message attaches (if fdToSend ≥ 0 then some fdToSend else none) reply ++ rest,
        lastTicks, world⟩) = .ok
      (some ⟨reply,
        if wantsFd then some ((arriving attaches fdToSend reply.length).getD (-1)) else none⟩)
      ⟨toServer, rest, lastTicks, out.onUnlock world⟩ := by
    have bytes := receiveMsg_reply attaches some_bytes fdToSend rest
    simp only [receiveReply, replyOps, bytes, negative_count, Bool.false_eq_true, if_false]
  rw [arrived] at runs
  refine ⟨⟨toServer, rest, lastTicks, world⟩, processed rest, rfl, fun fuel enough => ?_,
    fun fuel other ends => ?_⟩
  · rw [runs, returns fuel enough, Option.map_some, received]
  · rw [runs] at ends
    obtain ⟨waited, leaves, rfl⟩ := Option.map_eq_some_iff.mp ends
    rw [← loop_agree (returns (before.length + 1) (Nat.lt_succ_self _)) leaves]
    exact received

/-! ### A run -/

/-- The fields in order on a machine of 32 bits, where nothing is padded. -/
def layout32 : MsgLayout 4 where
  size := 20
  encode msg := toBytes 4 msg.hwnd.toNat ++ (toBytes 4 msg.message.toNat ++
    (toBytes 4 msg.wParam.toNat ++ (toBytes 4 msg.lParam.toNat ++ toBytes 4 msg.time.toNat)))
  decode bytes :=
    { hwnd := sizeWord 4 (bytes.take 4)
      message := sizeWord 4 ((bytes.drop 4).take 4)
      wParam := sizeWord 4 ((bytes.drop 8).take 4)
      lParam := sizeWord 4 ((bytes.drop 12).take 4)
      time := sizeWord 4 (bytes.drop 16) }
  size_pos := by decide
  length_encode msg := by simp only [List.length_append, length_toBytes]
  decode_encode msg := by
    have fields : ∀ word : BitVec 32, sizeWord 4 (toBytes 4 word.toNat) = word :=
      fun word => sizeWord_toNat 4 word
    have behind : ∀ n k, 4 ≤ k → (toBytes 4 n).drop k = [] := fun n k far =>
      List.drop_eq_nil_of_le ((length_toBytes 4 n).trans_le far)
    obtain ⟨hwnd, message, wParam, lParam, time⟩ := msg
    simp [List.drop_append, fields, behind]

/-- A client with `HWND_INVALID = -1` that keeps the messages it queues. -/
def smallClient : ClientConfig 4 := ⟨layout32, false, 1, 0x80000000, 14, -1, 0, 1, 7, 8⟩

def queueing : ClientOutside 4 (List (Msg 4)) :=
  ⟨id, id, id, fun _ => 0, fun _ _ => true, fun _ _ _ _ _ => id, fun msg queue => queue ++ [msg]⟩

/-- A wake-up and a message in front of the reply, and a message behind it. -/
def repliedWire : Wire 4 (List (Msg 4)) where
  toServer := []
  toClient := sendMsgs smallClient (clientOps fun _ => true) [⟨5, 9, 0, 0, 0⟩]
    (serverSendReplyEx smallClient (clientOps fun _ => true) [1, 2, 3] 6
      (sendMsgs smallClient (clientOps fun _ => true) [⟨0, 7, 0, 0, 0⟩, ⟨0, 9, 0, 0, 0⟩] [])).2
  lastTicks := 0
  world := []

theorem reply_demultiplexed_two : ∃ handled : Wire 4 (List (Msg 4)),
    handled.world = [⟨1, 9, 0, 0, 0⟩] ∧
      handled.toServer = frame (fun _ => true) 4 ⟨3, [], [], -1⟩ ++
        frame (fun _ => true) 4 (iamlive smallClient 0) ∧
      handled.toClient = sendMsgs smallClient (clientOps fun _ => true) [⟨5, 9, 0, 0, 0⟩] [] ∧
      Yields (fun fuel => clientRequestEx2 smallClient (replyOps (fun _ => true) queueing) fuel
        ⟨3, [], [], -1⟩ 3 true repliedWire) 2 (.ok (some ⟨[1, 2, 3], some 6⟩) handled) := by
  obtain ⟨handled, processed, position, yields⟩ := reply_demultiplexed smallClient (fun _ => true)
    queueing ⟨3, [], [], -1⟩ [⟨0, 7, 0, 0, 0⟩, ⟨0, 9, 0, 0, 0⟩] [⟨5, 9, 0, 0, 0⟩] [1, 2, 3] 6 true
    repliedWire rfl (.inr (by decide)) (.inr (by decide)) (by decide) (by simp) rfl
  have state := Option.some.inj processed
  subst state
  exact ⟨_, rfl, rfl, position, yields⟩

end Aple.ClientServer
