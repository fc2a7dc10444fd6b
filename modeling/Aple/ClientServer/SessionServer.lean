/-
**The server's side of a session.**

* `OpsKeep` — a property that every function of the server keeps; `mgHandleRequest_keeps` — so does a
  request.
* `Item`, `Item.cells` — what the server writes: a message, or a reply behind its marker.
* `Grown` — the calls, the answers and the replies that were written go together;
  **`serveRequest_grown`** — also when a request is served.
* **`receiveFrame_frame`**, **`receiveFrame_part`** — a request has arrived when its last cell is
  written, and not before.
-/

import Aple.ClientServer.Session

namespace Aple.ClientServer

open Aple.Lib

variable {H σ : Type} {sizeT : ℕ}

/-! ### What every function of the server keeps -/

/-- The functions that `__mg_handle_request` calls keep a property. -/
structure OpsKeep {ω : Type} (ops : ServerOps ω H) (Inv : ω → Prop) : Prop where
  sockRead : ∀ count s, Inv s → Inv (ops.sockRead count s).2
  malloc : ∀ size s, Inv s → Inv (ops.malloc size s).2
  sockRecvmsg : ∀ buff reqDataLen exDataLen s, Inv s →
    Inv (ops.sockRecvmsg buff reqDataLen exDataLen s).2
  callV1 : ∀ handler buff len fd s, Inv s → Inv (ops.callV1 handler buff len fd s).2
  callV0 : ∀ handler buff len s, Inv s → Inv (ops.callV0 handler buff len s).2
  close : ∀ fd s, Inv s → Inv (ops.close fd s)
  free : ∀ addr s, Inv s → Inv (ops.free addr s)
  checkDirtyZnode : ∀ s, Inv s → Inv (ops.checkDirtyZnode s)
  mgRemoveClient : ∀ s, Inv s → Inv (ops.mgRemoveClient s)

section OpsKeep

variable {ω : Type} {ops : ServerOps ω H} {Inv : ω → Prop}

theorem callHandler_keeps (kept : OpsKeep ops Inv) (handler : H) (version : ℤ) (buff : Buff) (len : ℕ)
    (fd : Fd) {s : ω} (holds : Inv s) : Inv (callHandler ops handler version buff len fd s).2 := by
  unfold callHandler
  split
  · exact kept.callV1 _ _ _ _ _ holds
  · apply kept.callV0
    split
    · exact kept.close _ _ holds
    · exact holds

theorem freeBuff_keeps (kept : OpsKeep ops Inv) (buff : Buff) {s : ω} (holds : Inv s) :
    Inv (freeBuff ops buff s) := by
  cases buff with
  | requestDataBuff => exact holds
  | block addr => exact kept.free _ _ holds

theorem runRequest_keeps (kept : OpsKeep ops Inv) (registry : Registry H) (reqId : BitVec 32) (buff : Buff)
    (len : ℕ) (fd : Fd) {s : ω} (holds : Inv s) :
    Inv (runRequest ops registry reqId buff len fd s).2 := by
  unfold runRequest
  dsimp only
  cases registry.lookup (reqId &&& ~~~registry.reqmaskFlags) with
  | none => exact holds
  | some entry =>
    have freed := freeBuff_keeps kept buff
      (callHandler_keeps kept entry.1 entry.2 buff len fd holds)
    dsimp only
    split
    · exact kept.mgRemoveClient _ freed
    · dsimp only
      split
      · exact kept.checkDirtyZnode _ freed
      · exact freed

theorem receiveRequest_keeps (kept : OpsKeep ops Inv) (registry : Registry H) (reqId : BitVec 32)
    (buff : Buff) (reqDataLen exDataLen len : ℕ) {s : ω} (holds : Inv s) :
    Inv (receiveRequest ops registry reqId buff reqDataLen exDataLen len s).2 := by
  have received := kept.sockRecvmsg buff reqDataLen exDataLen s holds
  unfold receiveRequest
  split <;> rename_i same <;> rw [same] at received
  · exact received
  · exact kept.mgRemoveClient _ received
  · exact runRequest_keeps kept _ _ _ _ _ received

/-- **A request keeps** what its functions keep. -/
theorem mgHandleRequest_keeps (kept : OpsKeep ops Inv) (registry : Registry H) (reqId : BitVec 32)
    {s : ω} (holds : Inv s) : Inv (mgHandleRequest ops registry sizeT reqId s).2 := by
  have first := kept.sockRead sizeT s holds
  unfold mgHandleRequest
  split <;> rename_i same <;> rw [same] at first
  · exact first
  · exact kept.mgRemoveClient _ first
  · have second := kept.sockRead sizeT _ first
    split <;> rename_i same' <;> rw [same'] at second
    · exact second
    · exact kept.mgRemoveClient _ second
    · dsimp only
      split
      · exact receiveRequest_keeps kept _ _ _ _ _ _ second
      · have block := fun size => kept.malloc size _ second
        split <;> rename_i same''
        · exact (congrArg (fun result => Inv result.2) same'').mp (block _)
        · exact receiveRequest_keeps kept _ _ _ _ _ _
            ((congrArg (fun result => Inv result.2) same'').mp (block _))

end OpsKeep

/-! ### What the server writes -/

/-- What the server writes: a message of its own, or the reply of a handler behind its marker. -/
inductive Item (H : Type) (sizeT : ℕ)
  | push (msg : Msg sizeT)
  | reply (call : Call H) (bytes : List Byte) (fd : Fd)

namespace Item

/-- The message in front. -/
def head (cfg : ClientConfig sizeT) : Item H sizeT → Msg sizeT
  | .push msg => msg
  | .reply _ _ _ => cfg.marker

/-- The cells behind the message. -/
def tail : Item H sizeT → List (Cell Fd)
  | .push _ => []
  | .reply _ bytes fd => attachment (arriving unixAttaches fd bytes.length) ++ cells bytes

def cells (cfg : ClientConfig sizeT) (item : Item H sizeT) : List (Cell Fd) :=
  Lib.cells (cfg.layout.encode (item.head cfg)) ++ item.tail

def pushed? : Item H sizeT → Option (Msg sizeT)
  | .push msg => some msg
  | .reply _ _ _ => none

def replied? : Item H sizeT → Option (Call H × List Byte × Fd)
  | .push _ => none
  | .reply call bytes fd => some (call, bytes, fd)

end Item

/-- The reply of an answer. -/
def reply? (entry : Call H × HandlerAnswer) : Option (Call H × List Byte × Fd) :=
  entry.2.map fun reply => (entry.1, reply)

/-- What the server writes for an answer. -/
def itemOf (reply : Call H × List Byte × Fd) : Item H sizeT := .reply reply.1 reply.2.1 reply.2.2

theorem message_reply (bytes : List Byte) (fd : Fd) :
    message unixAttaches (if fd ≥ 0 then some fd else none) bytes =
      attachment (arriving unixAttaches fd bytes.length) ++ cells bytes := by
  unfold arriving
  by_cases some_fd : fd ≥ 0
  · rw [if_pos some_fd, message]
    by_cases carried : unixAttaches bytes.length = true
    · rw [if_pos carried, if_pos ⟨carried, some_fd⟩]
      rfl
    · rw [if_neg carried, if_neg fun both => carried both.1]
      rfl
  · rw [if_neg some_fd, if_neg fun both => some_fd both.2]
    rfl

/-- **ServerSendReplyEx** writes the reply's item. -/
theorem serverSendReplyEx_item (cfg : ClientConfig sizeT) (call : Call H) (bytes : List Byte) (fd : Fd)
    (stream : List (Cell Fd)) :
    (serverSendReplyEx cfg (clientOps unixAttaches) bytes fd stream).2 =
      stream ++ (Item.reply call bytes fd).cells cfg := by
  rw [serverSendReplyEx_cells, message_reply]
  rfl

section Serving

variable (cfg : ClientConfig sizeT) (handlers : Handlers H σ)

/-- The answer is one that the handlers give. -/
def Given (entry : Call H × HandlerAnswer) : Prop := ∃ state, entry.2 = (handlers.respond entry.1 state).1

/-- What a server has done since it was `s`: its calls have their answers, and the replies among
them were written. -/
structure Grown (s after : Link H (Desk H σ)) (more : List (Call H × HandlerAnswer)) : Prop where
  calls : after.calls = s.calls ++ more.map Prod.fst
  answers : after.world.answers = s.world.answers ++ more
  given : ∀ entry ∈ more, Given handlers entry
  toClient : after.world.toClient = s.world.toClient ++
    (more.filterMap reply?).flatMap fun reply => (itemOf reply : Item H sizeT).cells cfg

variable {cfg handlers} {s after : Link H (Desk H σ)} {more : List (Call H × HandlerAnswer)}

theorem Grown.refl (s : Link H (Desk H σ)) : Grown cfg handlers s s [] :=
  ⟨(List.append_nil _).symm, (List.append_nil _).symm, List.forall_mem_nil _,
    (List.append_nil _).symm⟩

/-- The functions that neither call a handler nor write. -/
theorem Grown.same {after' : Link H (Desk H σ)} (grown : Grown cfg handlers s after more)
    (calls : after'.calls = after.calls) (answers : after'.world.answers = after.world.answers)
    (toClient : after'.world.toClient = after.world.toClient) : Grown cfg handlers s after' more :=
  ⟨calls.trans grown.calls, answers.trans grown.answers, grown.given, toClient.trans grown.toClient⟩

/-- **A call of a handler.** -/
theorem Grown.called (grown : Grown cfg handlers s after more) (call : Call H) :
    ∃ entry, Grown cfg handlers s (after.called (deskOutside cfg handlers) call).2
      (more ++ [entry]) := by
  obtain ⟨calls, answers, given, toClient⟩ := grown
  have extend : ∀ entry, Given handlers entry → ∀ e ∈ more ++ [entry], Given handlers e := by
    intro entry last e member
    rcases List.mem_append.mp member with old | new
    · exact given e old
    · rw [List.mem_singleton.mp new]
      exact last
  cases responds : handlers.respond call after.world.state with
  | mk answer state =>
    have last : Given handlers (call, answer) := ⟨after.world.state, by rw [responds]⟩
    cases answer with
    | none =>
      refine ⟨(call, none), ?_, ?_, extend _ last, ?_⟩
      · rw [List.map_append, ← List.append_assoc, ← calls]
        rfl
      · rw [← List.append_assoc, ← answers]
        simp only [Link.called, deskOutside, responds]
      · rw [List.filterMap_append, List.flatMap_append, ← List.append_assoc, ← toClient]
        simp only [Link.called, deskOutside, responds]
        exact (List.append_nil _).symm
    | some reply =>
      obtain ⟨bytes, fd⟩ := reply
      refine ⟨(call, some (bytes, fd)), ?_, ?_, extend _ last, ?_⟩
      · rw [List.map_append, ← List.append_assoc, ← calls]
        rfl
      · rw [← List.append_assoc, ← answers]
        simp only [Link.called, deskOutside, responds]
      · rw [List.filterMap_append, List.flatMap_append, ← List.append_assoc, ← toClient]
        simp only [Link.called, deskOutside, responds]
        rw [serverSendReplyEx_item cfg call]
        exact congrArg _ (List.append_nil _).symm

theorem serverOps_kept (s : Link H (Desk H σ)) :
    OpsKeep (serverOps (deskOutside cfg handlers)) fun after =>
      ∃ more, Grown cfg handlers s after more where
  sockRead count after grown := by
    obtain ⟨more, grown⟩ := grown
    simp only [serverOps]
    split <;> exact ⟨more, grown.same rfl rfl rfl⟩
  malloc _ _ grown := ⟨grown.choose, grown.choose_spec.same rfl rfl rfl⟩
  sockRecvmsg buff reqDataLen exDataLen after grown := by
    obtain ⟨more, grown⟩ := grown
    simp only [serverOps]
    split <;> exact ⟨more, grown.same rfl rfl rfl⟩
  callV1 _ _ _ _ _ grown :=
    let ⟨entry, called⟩ := grown.choose_spec.called _
    ⟨_ ++ [entry], called⟩
  callV0 _ _ _ _ grown :=
    let ⟨entry, called⟩ := grown.choose_spec.called _
    ⟨_ ++ [entry], called⟩
  close _ _ grown := ⟨grown.choose, grown.choose_spec.same rfl rfl rfl⟩
  free _ _ grown := grown
  checkDirtyZnode _ grown := ⟨grown.choose, grown.choose_spec.same rfl rfl rfl⟩
  mgRemoveClient _ grown := ⟨grown.choose, grown.choose_spec.same rfl rfl rfl⟩

/-- **Serving a request** answers its calls, and writes the replies among the answers. -/
theorem serveRequest_grown (registry : Registry H) (s : Link H (Desk H σ)) :
    ∃ more, Grown cfg handlers s (serveRequest (deskOutside cfg handlers) registry sizeT s) more := by
  have kept : OpsKeep (serverOps (deskOutside cfg handlers)) fun after =>
    ∃ more, Grown cfg handlers s after more := serverOps_kept s
  unfold serveRequest
  exact mgHandleRequest_keeps kept registry _ (kept.sockRead 4 s ⟨[], .refl s⟩)

end Serving

/-! ### When a request has arrived -/

/-- A request that the connection carries as it is: the sum of its lengths fits, and its descriptor
has a byte to travel with. -/
structure Carried (sizeT : ℕ) (request : Request) : Prop where
  fits : request.data.length + request.exData.length < 2 ^ (8 * sizeT)
  attached : request.fdToSend ≥ 0 → 0 < request.data.length + request.exData.length

section Arrival

variable {request : Request}

theorem Carried.control (carried : Carried sizeT request) :
    request.control ≠ none → unixAttaches request.payload.length = true := by
  intro some_fd
  have nonneg : request.fdToSend ≥ 0 := by
    by_contra negative
    exact some_fd (if_neg negative)
  apply decide_eq_true
  rw [Request.payload, List.length_append]
  exact carried.attached nonneg

/-- The two lengths say how long the payload is. -/
theorem Carried.length (carried : Carried sizeT request) :
    (sizeWord sizeT (toBytes sizeT request.data.length) +
      sizeWord sizeT (toBytes sizeT request.exData.length)).toNat = request.payload.length := by
  rw [sizeWord_toBytes, sizeWord_toBytes, BitVec.toNat_add, BitVec.toNat_ofNat, BitVec.toNat_ofNat,
    ← Nat.add_mod, Nat.mod_eq_of_lt carried.fits, Request.payload, List.length_append]

theorem readBytes_word (count n : ℕ) (rest : List (Cell Fd)) :
    readBytes count (cells (toBytes count n) ++ rest) = some (toBytes count n, rest) := by
  have reads := readBytes_cells (A := Fd) (toBytes count n) rest
  rwa [length_toBytes] at reads

/-- **A whole request** is received. -/
theorem receiveFrame_frame (carried : Carried sizeT request) {rest : List (Cell Fd)}
    (plain : Plain rest) :
    receiveFrame sizeT (frame unixAttaches sizeT request ++ rest) =
      some (request.control, request.payload, rest) := by
  unfold receiveFrame frame
  simp only [List.append_assoc, readBytes_word, Option.bind_some, carried.length]
  exact receiveMsg_message carried.control plain

/-- What is left after a word was read is what was written behind it. -/
theorem read_word {count n : ℕ} {stream rest left tail : List (Cell Fd)} {bytes : List Byte}
    (read : readBytes count stream = some (bytes, rest))
    (same : stream ++ left = cells (toBytes count n) ++ tail) :
    bytes = toBytes count n ∧ rest ++ left = tail := by
  have whole := readBytes_append read left
  rw [same, readBytes_word] at whole
  obtain ⟨first, behind⟩ := Prod.mk.inj (Option.some.inj whole)
  exact ⟨first.symm, behind.symm⟩

/-- Nothing arrives of an empty message. -/
theorem message_nil {fd : Option Fd} : message unixAttaches fd [] = [] := by
  cases fd <;> rfl

/-- **A part of a request** is not received. -/
theorem receiveFrame_part (carried : Carried sizeT request) {stream left : List (Cell Fd)}
    (same : stream ++ left = frame unixAttaches sizeT request) (unwritten : left ≠ []) :
    receiveFrame sizeT stream = none := by
  cases received : receiveFrame sizeT stream with
  | none => rfl
  | some result =>
    obtain ⟨⟨id, afterId⟩, readId, received⟩ := Option.bind_eq_some_iff.mp received
    obtain ⟨⟨reqDataLen, afterReq⟩, readReq, received⟩ := Option.bind_eq_some_iff.mp received
    obtain ⟨⟨exDataLen, payload⟩, readEx, received⟩ := Option.bind_eq_some_iff.mp received
    obtain ⟨fd, bytes, rest⟩ := result
    obtain ⟨-, behindId⟩ := read_word readId same
    obtain ⟨rfl, behindReq⟩ := read_word readReq behindId
    obtain ⟨rfl, behindEx⟩ := read_word readEx behindReq
    dsimp only at received
    rw [carried.length] at received
    exfalso
    by_cases empty : request.payload = []
    · rw [empty, message_nil] at behindEx
      exact unwritten (List.append_eq_nil_iff.mp behindEx).2
    have some_cells : payload ≠ [] := by
      rintro rfl
      have none_read : receiveMsg request.payload.length ([] : List (Cell Fd)) = none := by
        rw [receiveMsg, readBytes_nil (List.length_pos_of_ne_nil empty)]
        · rfl
        · exact fun _ _ => List.cons_ne_nil _ _ ∘ Eq.symm
      exact Option.some_ne_none _ (received.symm.trans none_read)
    have whole := receiveMsg_append received some_cells left
    have message := receiveMsg_message carried.control (plain_nil (A := Fd))
    rw [List.append_nil] at message
    rw [behindEx, message] at whole
    have behind : [] = rest ++ left := (Prod.mk.inj (Prod.mk.inj (Option.some.inj whole)).2).2
    exact unwritten (List.append_eq_nil_iff.mp behind.symm).2

end Arrival

end Aple.ClientServer
