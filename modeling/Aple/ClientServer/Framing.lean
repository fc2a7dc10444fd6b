/-
**Request framing.**

A client and the server on a reliable ordered stream.

* `Link` — the stream with the server's memory and the calls it made; `clientOps`, `serverOps` run
  the two functions over it. Whether a descriptor travels with a message of a given length is up to
  the stream (`attaches`): a Unix socket needs at least one byte.
* `frame` — the cells of one request, **`sendRequest_frame`**, **`serveRequest_frame`** — writing
  and handling one request.
* **`request_framing_round_trip`** — any number of requests, one after the other.
-/

import Aple.Lib.Channel
import Aple.ClientServer.Request

namespace Aple.ClientServer

open Aple.Lib

variable {H ω : Type}

/-! ### The stream -/

/-- A call of a handler, with the part of the buffer it may look at. -/
inductive Call (H : Type)
  | v1 (handler : H) (buff : List Byte) (len : ℕ) (fd : Fd)
  | v0 (handler : H) (buff : List Byte) (len : ℕ)
deriving DecidableEq, Repr

/-- The bytes under way, the memory of the server, the calls made and the rest of the world. -/
structure Link (H ω : Type) where
  stream : List (Cell Fd)
  mem : Buff → ℕ → Byte
  nextBlock : ℕ
  calls : List (Call H)
  world : ω

/-- The cells of one `sock_sendmsg`. -/
def message (attaches : ℕ → Bool) (fd : Option Fd) (bytes : List Byte) : List (Cell Fd) :=
  match fd with
  | some fd => if attaches bytes.length then .attached fd :: cells bytes else cells bytes
  | none => cells bytes

/-- The client writes to the end of the stream, and everything it writes arrives. -/
def clientOps (attaches : ℕ → Bool) : ClientOps (List (Cell Fd)) where
  sockWrite bytes stream := (.other bytes.length, stream ++ cells bytes)
  sockSendmsg bytes fd stream := (.other bytes.length, stream ++ message attaches fd bytes)

/-- Overwrite the start of a buffer. -/
def scatter (mem : Buff → ℕ → Byte) (buff : Buff) (bytes : List Byte) : Buff → ℕ → Byte :=
  Function.update mem buff fun i => bytes.getD i (mem buff i)

/-- The first bytes of a buffer. -/
def contents (mem : Buff → ℕ → Byte) (buff : Buff) (len : ℕ) : List Byte :=
  (List.range len).map (mem buff)

/-- What the handlers and the functions that do not touch the stream do to the rest of the world. -/
structure Outside (H ω : Type) where
  answer : Call H → ω → Code × ω
  close : Fd → ω → ω
  checkDirtyZnode : ω → ω
  mgRemoveClient : ω → ω

/-- Record a call and let the handler run. -/
def Link.called (out : Outside H ω) (call : Call H) (s : Link H ω) : Code × Link H ω :=
  let (n, world) := out.answer call s.world
  (n, { s with calls := s.calls ++ [call], world := world })

/-- The server reads from the front of the stream, and gets all the bytes it asks for. -/
def serverOps (out : Outside H ω) : ServerOps (Link H ω) H where
  sockRead count s :=
    match readBytes count s.stream with
    | none => ((.closed, []), s)
    | some (bytes, rest) => ((.other count, bytes), { s with stream := rest })
  malloc _ s := (some s.nextBlock, { s with nextBlock := s.nextBlock + 1 })
  sockRecvmsg buff reqDataLen exDataLen s :=
    match receiveMsg (reqDataLen + exDataLen) s.stream with
    | none => ((.closed, none), s)
    | some (fd, bytes, rest) =>
      ((.other bytes.length, fd), { s with stream := rest, mem := scatter s.mem buff bytes })
  callV1 handler buff len fd s := s.called out (.v1 handler (contents s.mem buff len) len fd)
  callV0 handler buff len s := s.called out (.v0 handler (contents s.mem buff len) len)
  close fd s := { s with world := out.close fd s.world }
  free _ s := s
  checkDirtyZnode s := { s with world := out.checkDirtyZnode s.world }
  mgRemoveClient s := { s with world := out.mgRemoveClient s.world }

/-- The caller of `__mg_handle_request` reads the id. -/
def serveRequest (out : Outside H ω) (registry : Registry H) (sizeT : ℕ) (s : Link H ω) : Link H ω :=
  let ((_, bytes), s) := (serverOps out).sockRead 4 s
  (mgHandleRequest (serverOps out) registry sizeT (BitVec.ofNat 32 (ofBytes bytes)) s).2

/-- Several requests, one after the other. -/
def serveRequests (out : Outside H ω) (registry : Registry H) (sizeT : ℕ) : ℕ → Link H ω → Link H ω
  | 0, s => s
  | count + 1, s => serveRequests out registry sizeT count (serveRequest out registry sizeT s)

/-- The stream after the client sent some requests. -/
def sendRequests (attaches : ℕ → Bool) (sizeT : ℕ) (requests : List Request)
    (stream : List (Cell Fd)) : List (Cell Fd) :=
  requests.foldl (fun stream request => (sendRequest (clientOps attaches) sizeT request stream).2)
    stream

/-! ### What a request should do -/

namespace Request

def payload (request : Request) : List Byte := request.data ++ request.exData

/-- The descriptor a version 1 handler should get. -/
def descriptor (request : Request) : Fd := if request.fdToSend ≥ 0 then request.fdToSend else -1

/-- The calls a request should lead to: one, or none when its id is not registered. -/
def expectedCalls (registry : Registry H) (request : Request) : List (Call H) :=
  match registry.lookup (request.id &&& ~~~registry.reqmaskFlags) with
  | none => []
  | some (handler, version) =>
    if version = 1 then
      [.v1 handler request.payload (request.data.length + request.exData.length) request.descriptor]
    else [.v0 handler request.payload (request.data.length + request.exData.length)]

end Request

/-- The control message: nothing for a negative descriptor. -/
def Request.control (request : Request) : Option Fd :=
  if request.fdToSend ≥ 0 then some request.fdToSend else none

/-- The cells of a request. -/
def frame (attaches : ℕ → Bool) (sizeT : ℕ) (request : Request) : List (Cell Fd) :=
  cells (toBytes 4 request.id.toNat) ++ (cells (toBytes sizeT request.data.length) ++
    (cells (toBytes sizeT request.exData.length) ++
      message attaches request.control request.payload))

/-- A count of bytes is no error. -/
theorem negative_count (n : ℕ) : Code.negative (.other n) = false :=
  decide_eq_false (Int.not_lt.mpr (Int.natCast_nonneg n))

/-- **What the client writes.** -/
theorem sendRequest_frame (attaches : ℕ → Bool) (sizeT : ℕ) (request : Request)
    (stream : List (Cell Fd)) :
    sendRequest (clientOps attaches) sizeT request stream =
      (.other request.payload.length, stream ++ frame attaches sizeT request) := by
  simp only [sendRequest, clientOps, negative_count, Bool.false_eq_true, if_false, frame, Request.payload,
    Request.control, List.append_assoc]

theorem plain_frame (attaches : ℕ → Bool) (sizeT : ℕ) (request : Request) (rest : List (Cell Fd)) :
    Plain (frame attaches sizeT request ++ rest) := by
  unfold frame
  rw [List.append_assoc]
  exact plain_cells (by simp [toBytes]) _

/-- The stream after sending is the old one with all the frames behind it. -/
theorem sendRequests_frames (attaches : ℕ → Bool) (sizeT : ℕ) (requests : List Request)
    (stream : List (Cell Fd)) :
    sendRequests attaches sizeT requests stream =
      stream ++ requests.flatMap (frame attaches sizeT) := by
  induction requests generalizing stream with
  | nil => exact (List.append_nil stream).symm
  | cons request rest ih =>
    show sendRequests attaches sizeT rest
      (sendRequest (clientOps attaches) sizeT request stream).2 = _
    rw [sendRequest_frame, ih, List.append_assoc, List.flatMap_cons]

theorem plain_frames (attaches : ℕ → Bool) (sizeT : ℕ) (requests : List Request) :
    Plain (requests.flatMap (frame attaches sizeT)) := by
  cases requests with
  | nil => exact plain_nil
  | cons request rest => exact plain_frame attaches sizeT request _

/-! ### Handling one request -/

/-- What was received is what the handler may look at. -/
theorem contents_scatter (mem : Buff → ℕ → Byte) (buff : Buff) (bytes : List Byte) :
    contents (scatter mem buff bytes) buff bytes.length = bytes := by
  unfold contents scatter
  rw [Function.update_self]
  apply List.ext_getElem
  · rw [List.length_map, List.length_range]
  · intro i low low'
    simp [low']

/-- The message of a request arrives with its descriptor, when the stream carries it. -/
theorem receiveMsg_message {attaches : ℕ → Bool} {fd : Option Fd} {bytes : List Byte}
    {rest : List (Cell Fd)} (carried : fd ≠ none → attaches bytes.length = true)
    (plain : Plain rest) :
    receiveMsg bytes.length (message attaches fd bytes ++ rest) = some (fd, bytes, rest) := by
  cases fd with
  | none => exact receiveMsg_cells bytes plain
  | some fd =>
    show receiveMsg bytes.length
      ((if attaches bytes.length then .attached fd :: cells bytes else cells bytes) ++ rest) = _
    rw [if_pos (carried (Option.some_ne_none fd))]
    exact receiveMsg_attached fd bytes rest

/-- What handling a request may change of the stream and the calls. -/
structure Handled (after : Link H ω) (stream : List (Cell Fd)) (calls : List (Call H)) : Prop where
  stream : after.stream = stream
  calls : after.calls = calls

section Handling

variable {out : Outside H ω} {registry : Registry H} {sizeT : ℕ} {request : Request} {s : Link H ω}

/-- The call itself: a version 0 handler gets the same bytes without the descriptor. -/
theorem callHandler_handled (out : Outside H ω) (handler : H) (version : ℤ) (fd : Fd) {buff : Buff}
    {payload : List Byte} (received : contents s.mem buff payload.length = payload) :
    Handled (callHandler (serverOps out) handler version buff payload.length fd s).2 s.stream
      (s.calls ++ (if version = 1 then [.v1 handler payload payload.length fd]
        else [.v0 handler payload payload.length])) := by
  unfold callHandler
  by_cases v1 : version = 1
  · rw [if_pos v1, if_pos v1]
    refine ⟨rfl, ?_⟩
    show s.calls ++ [Call.v1 handler (contents s.mem buff payload.length) payload.length fd] = _
    rw [received]
  · rw [if_neg v1, if_neg v1]
    by_cases some_fd : fd ≥ 0
    · simp only [if_pos some_fd]
      refine ⟨rfl, ?_⟩
      show s.calls ++ [Call.v0 handler (contents s.mem buff payload.length) payload.length] = _
      rw [received]
    · simp only [if_neg some_fd]
      refine ⟨rfl, ?_⟩
      show s.calls ++ [Call.v0 handler (contents s.mem buff payload.length) payload.length] = _
      rw [received]

/-- The part behind the receive: the calls made, and nothing read. -/
theorem runRequest_handled {buff : Buff}
    (received : contents s.mem buff request.payload.length = request.payload) :
    Handled (runRequest (serverOps out) registry request.id buff request.payload.length
      (request.control.getD (-1)) s).2 s.stream (s.calls ++ request.expectedCalls registry) := by
  have kept : ∀ (n : Code) (s : Link H ω), Handled
      (if n = .io then (Code.closed, (serverOps out).mgRemoveClient s)
        else (n, if request.id &&& ~~~registry.reqmaskFlags = registry.reqidIamlive
          then (serverOps out).checkDirtyZnode s else s)).2 s.stream s.calls := by
    intro n s
    split
    · exact ⟨rfl, rfl⟩
    · show Handled (if _ then (serverOps out).checkDirtyZnode s else s) s.stream s.calls
      split <;> exact ⟨rfl, rfl⟩
  have unfreed : ∀ s : Link H ω, freeBuff (serverOps out) buff s = s := by
    intro s
    cases buff <;> rfl
  have descriptor : request.control.getD (-1) = request.descriptor := by
    unfold Request.control Request.descriptor
    split <;> rfl
  have total : request.data.length + request.exData.length = request.payload.length :=
    List.length_append.symm
  unfold runRequest Request.expectedCalls
  rw [total, descriptor]
  cases found : registry.lookup (request.id &&& ~~~registry.reqmaskFlags) with
  | none =>
    simp only [found, List.append_nil]
    exact ⟨rfl, rfl⟩
  | some entry =>
    obtain ⟨handler, version⟩ := entry
    simp only [found, unfreed]
    obtain ⟨stream, calls⟩ := kept
      (callHandler (serverOps out) handler version buff request.payload.length request.descriptor s).1
      (callHandler (serverOps out) handler version buff request.payload.length request.descriptor s).2
    obtain ⟨stream', calls'⟩ := callHandler_handled out handler version request.descriptor received
    exact ⟨stream.trans stream', calls.trans calls'⟩

/-- Receiving into the buffer that was picked. -/
theorem receiveRequest_handled {attaches : ℕ → Bool} {rest : List (Cell Fd)} (buff : Buff)
    (arrived : s.stream = message attaches request.control request.payload ++ rest)
    (carried : request.control ≠ none → attaches request.payload.length = true)
    (plain : Plain rest) :
    Handled (receiveRequest (serverOps out) registry request.id buff request.data.length
      request.exData.length request.payload.length s).2 rest
      (s.calls ++ request.expectedCalls registry) := by
  have total : request.data.length + request.exData.length = request.payload.length :=
    List.length_append.symm
  have receives : (serverOps out).sockRecvmsg buff request.data.length request.exData.length s =
      ((.other request.payload.length, request.control),
        { s with stream := rest, mem := scatter s.mem buff request.payload }) := by
    simp only [serverOps]
    rw [total, arrived, receiveMsg_message carried plain]
  unfold receiveRequest
  rw [receives]
  have received := contents_scatter s.mem buff request.payload
  exact runRequest_handled
    (s := { s with stream := rest, mem := scatter s.mem buff request.payload }) received

/-- Reading a length. -/
theorem sockRead_word {rest : List (Cell Fd)} (count n : ℕ)
    (arrived : s.stream = cells (toBytes count n) ++ rest) :
    (serverOps out).sockRead count s = ((.other count, toBytes count n), { s with stream := rest }) := by
  have reads := readBytes_cells (toBytes count n) rest
  rw [length_toBytes] at reads
  simp only [serverOps]
  rw [arrived, reads]

theorem sizeWord_toBytes (sizeT n : ℕ) :
    sizeWord sizeT (toBytes sizeT n) = BitVec.ofNat (8 * sizeT) n := word_toBytes sizeT n

theorem sizeWord_toNat (sizeT : ℕ) (word : BitVec (8 * sizeT)) :
    sizeWord sizeT (toBytes sizeT word.toNat) = word := by
  rw [sizeWord_toBytes, BitVec.ofNat_toNat, BitVec.setWidth_eq]

/-- The two lengths are read, a buffer of the right size is picked, and the message is received. -/
theorem mgHandleRequest_handled {attaches : ℕ → Bool} {rest : List (Cell Fd)}
    (arrived : s.stream = cells (toBytes sizeT request.data.length) ++
      (cells (toBytes sizeT request.exData.length) ++
        (message attaches request.control request.payload ++ rest)))
    (fits : request.data.length + request.exData.length < 2 ^ (8 * sizeT))
    (carried : request.control ≠ none → attaches request.payload.length = true)
    (plain : Plain rest) :
    Handled (mgHandleRequest (serverOps out) registry sizeT request.id s).2 rest
      (s.calls ++ request.expectedCalls registry) := by
  have reqDataLen : (BitVec.ofNat (8 * sizeT) request.data.length).toNat = request.data.length := by
    rw [BitVec.toNat_ofNat]
    exact Nat.mod_eq_of_lt (by omega)
  have exDataLen :
      (BitVec.ofNat (8 * sizeT) request.exData.length).toNat = request.exData.length := by
    rw [BitVec.toNat_ofNat]
    exact Nat.mod_eq_of_lt (by omega)
  have lenData : (BitVec.ofNat (8 * sizeT) request.data.length +
      BitVec.ofNat (8 * sizeT) request.exData.length).toNat = request.payload.length := by
    rw [BitVec.toNat_add, reqDataLen, exDataLen, Nat.mod_eq_of_lt fits]
    exact List.length_append.symm
  unfold mgHandleRequest
  rw [sockRead_word sizeT _ arrived]
  simp only
  rw [sockRead_word (s := { s with stream := _ }) sizeT _ rfl]
  simp only [sizeWord_toBytes, reqDataLen, exDataLen, lenData]
  split
  · exact receiveRequest_handled (s := { s with stream := _ }) .requestDataBuff rfl carried plain
  · exact receiveRequest_handled (s := { s with stream := _, nextBlock := _ }) (.block s.nextBlock)
      rfl carried plain

/-- **Handling one request** consumes its frame and makes its calls. -/
theorem serveRequest_frame (out : Outside H ω) (registry : Registry H) {attaches : ℕ → Bool}
    {rest : List (Cell Fd)} (arrived : s.stream = frame attaches sizeT request ++ rest)
    (fits : request.data.length + request.exData.length < 2 ^ (8 * sizeT))
    (carried : request.control ≠ none → attaches request.payload.length = true)
    (plain : Plain rest) :
    Handled (serveRequest out registry sizeT s) rest (s.calls ++ request.expectedCalls registry) := by
  unfold frame at arrived
  simp only [List.append_assoc] at arrived
  have id : BitVec.ofNat 32 (ofBytes (toBytes 4 request.id.toNat)) = request.id := by
    refine (word_toBytes 4 request.id.toNat).trans ?_
    exact BitVec.ofNat_toNat 32 request.id |>.trans (BitVec.setWidth_eq request.id)
  unfold serveRequest
  rw [sockRead_word 4 _ arrived]
  simp only [id]
  exact mgHandleRequest_handled (s := { s with stream := _ }) rfl fits carried plain

end Handling

/-! ### Any number of requests -/

/-- **The framing round trip.** The client sends requests whose lengths have a sum that fits, over a
stream that carries their descriptors. Each call of `__mg_handle_request` then consumes exactly the
frame of one request, and the calls made are the ones the requests ask for, in order. -/
theorem request_framing_round_trip (sizeT : ℕ) (attaches : ℕ → Bool) (out : Outside H ω)
    (registry : Registry H) (requests : List Request) (s : Link H ω)
    (fits : ∀ request ∈ requests,
      request.data.length + request.exData.length < 2 ^ (8 * sizeT))
    (carried : ∀ request ∈ requests, request.fdToSend ≥ 0 →
      attaches (request.data.length + request.exData.length) = true)
    (sent : s.stream = sendRequests attaches sizeT requests []) :
    ∀ served ≤ requests.length,
      (serveRequests out registry sizeT served s).stream =
        sendRequests attaches sizeT (requests.drop served) [] ∧
      (serveRequests out registry sizeT served s).calls =
        s.calls ++ (requests.take served).flatMap (Request.expectedCalls registry) := by
  induction requests generalizing s with
  | nil =>
    intro served few
    obtain rfl : served = 0 := Nat.le_zero.mp few
    exact ⟨sent, (List.append_nil s.calls).symm⟩
  | cons request rest ih =>
    intro served few
    cases served with
    | zero => exact ⟨sent, (List.append_nil s.calls).symm⟩
    | succ served =>
      have first : request ∈ request :: rest := List.mem_cons_self
      rw [sendRequests_frames, List.nil_append, List.flatMap_cons] at sent
      have attached : request.control ≠ none → attaches request.payload.length = true := by
        intro some_fd
        have nonneg : request.fdToSend ≥ 0 := by
          by_contra negative
          exact some_fd (if_neg negative)
        have lengths : request.payload.length = request.data.length + request.exData.length :=
          List.length_append
        rw [lengths]
        exact carried request first nonneg
      obtain ⟨stream, calls⟩ := serveRequest_frame out registry sent (fits request first) attached
        (plain_frames attaches sizeT rest)
      have later := ih (serveRequest out registry sizeT s)
        (fun other member => fits other (List.mem_cons_of_mem _ member))
        (fun other member => carried other (List.mem_cons_of_mem _ member))
        (by rw [sendRequests_frames, List.nil_append]; exact stream) served
        (Nat.le_of_succ_le_succ few)
      refine ⟨later.1, ?_⟩
      rw [List.take_succ_cons, List.flatMap_cons, ← List.append_assoc, ← calls]
      exact later.2

/-- A handler of each version, at the ids 1 and 2. -/
def twoHandlers : Registry ℕ where
  reqmaskFlags := 0xC0000000
  maxReqid := 2
  reqidIamlive := 14
  handlers index := ⟨some index, if index = 0 then 1 else 0⟩

/-- A flagged id with a descriptor, an id that is not registered with nothing to send, and a request
that does not fit into the static buffer. -/
def threeRequests : List Request :=
  [⟨0x80000001, [1, 2], [3], 7⟩, ⟨99, [], [], -1⟩, ⟨2, List.replicate 1025 0, [4], -1⟩]

/-- A server over a Unix socket, where a descriptor travels with at least one byte. -/
def threeRequestsSent : Link ℕ Unit where
  stream := sendRequests (fun len => decide (0 < len)) 8 threeRequests []
  mem _ _ := 0
  nextBlock := 0
  calls := []
  world := ()

/-- Handlers that return zero. -/
def quiet : Outside ℕ Unit := ⟨fun _ world => (.other 0, world), fun _ => id, id, id⟩

theorem request_framing_round_trip_three :
    (serveRequests quiet twoHandlers 8 3 threeRequestsSent).stream = [] ∧
      (serveRequests quiet twoHandlers 8 3 threeRequestsSent).calls =
        [.v1 0 [1, 2, 3] 3 7, .v0 1 (List.replicate 1025 0 ++ [4]) 1026] := by
  have whole := request_framing_round_trip 8 (fun len => decide (0 < len)) quiet twoHandlers
    threeRequests threeRequestsSent (by simp [threeRequests, -List.reduceReplicate])
    (by simp [threeRequests, -List.reduceReplicate]) rfl 3 le_rfl
  refine ⟨whole.1, whole.2.trans ?_⟩
  simp [threeRequests, threeRequestsSent, Request.expectedCalls, Registry.lookup, twoHandlers,
    Request.payload, Request.descriptor, -List.reduceReplicate]

end Aple.ClientServer
