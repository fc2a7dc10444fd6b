/-
**Which requests are handled by their own bytes.**

* `OwnBytes` — a handler reads `buff` below `len` only, and whatever earlier requests left there, it
  does the same and replies the same.
* `Fits` — what a handler takes from the data lies inside the data. No handler compares a size with
  `len`, so this is up to the client. `fits_createCursor_iff` — for two masks of known sizes.
* **`ownBytes_iff`** — a request is handled by its own bytes if and only if it fits.
* `short_im_live_reads_left_over` — with one byte, `im_live` takes the others from an earlier
  request.
* `seenFrom_scatter` — the buffer of the server; **`serveAll_eq`** — any run of requests that fit.
-/

import Aple.ClientServer.Framing
import Aple.ClientServer.SysHandlers

namespace Aple.ClientServer.SysHandlers

open Aple.Lib Aple.Lib.ReadProg

section Requests

variable {cfg : SysConfig} {ω : Type} (ops : SysOps cfg ω) (payload : List Byte)

/-! ### The property -/

/-- A request with these data; `left` is what else is in the buffer and around it. -/
structure OwnBytes (handler : SysHandler) (cli clifd : ℕ) (s : ω) : Prop where
  below : ∀ left, ∀ offset ∈ (handler.call ops cli clifd s).reads (place payload left),
    0 ≤ offset ∧ offset < payload.length
  same : ∀ left left', (handler.call ops cli clifd s).run (place payload left) =
    (handler.call ops cli clifd s).run (place payload left')

/-- The `int` at an offset of the data. -/
def intAt (offset : ℕ) : BitVec 32 := wordAt payload offset 4

/-- The arguments of `CreateCursor`, taken from the data. -/
def createCursorAt (s : ω) : ReadProg ℤ Byte (cfg.Ptr × ω) :=
  ops.createCursor (intAt payload 0) (intAt payload 4) (intAt payload 8) (intAt payload 12) 24
    (24 + (intAt payload 20).toInt) (intAt payload 16) s

/-- The layer that the data tell. -/
def layerAt (info : LayerInfoLayout) (cli : ℕ) (s : ω) : cfg.Ptr :=
  if intAt payload info.handleName = 0 then
    if wordAt payload info.name 1 = 0 then ops.clientLayer cli s
    else (ops.findLayerByName info.name s).run (place payload fun _ => 0)
  else wordAt payload info.handle cfg.sizeofPtr

/-- The kind of the layer is told in the data, and so is its name or its handle. -/
def LayerFits (info : LayerInfoLayout) (s : ω) : Prop :=
  info.handleName + 4 ≤ payload.length ∧
    if intAt payload info.handleName = 0 then
      info.name + 1 ≤ payload.length ∧
        (wordAt payload info.name 1 ≠ 0 → Confined payload (ops.findLayerByName info.name s))
    else info.handle + cfg.sizeofPtr ≤ payload.length

/-- The data are as long as what the handler takes from them. -/
def Fits (handler : SysHandler) (cli : ℕ) (s : ω) : Prop :=
  match handler with
  | .createCursor => 24 ≤ payload.length ∧ Confined payload (createCursorAt ops payload s)
  | .copyCursor | .destroyCursor | .setCursor => cfg.sizeofPtr ≤ payload.length
  | .clipCursor => 16 ≤ payload.length
  | .setCursorPos => 8 ≤ payload.length
  | .showCursor | .imLive | .openImeWnd | .setImeStat | .getImeStat | .freeSemForSharedSurf =>
    4 ≤ payload.length
  | .setImeTargetinfo => 28 ≤ payload.length
  | .layerOp => LayerFits ops payload cfg.layerOpInfo s ∧
    (usable ops (layerAt ops payload cfg.layerOpInfo cli s) s = true →
      cfg.layerOpInfo.idOp + 4 ≤ payload.length)
  | .moveToLayer => LayerFits ops payload cfg.moveToLayerInfo s
  | .authenticateClient => cfg.mggalDrm = true → 4 ≤ payload.length

/-! ### What is read -/

variable {payload} {Result : Type}

theorem confined_readInt_bind {offset : ℕ} (rest : BitVec 32 → ReadProg ℤ Byte Result) :
    Confined payload (readInt offset >>= rest) ↔
      offset + 4 ≤ payload.length ∧ Confined payload (rest (intAt payload offset)) :=
  confined_readWord_bind (Nat.succ_pos 3) rest

theorem confined_readInt {offset : ℕ} :
    Confined payload (readInt offset) ↔ offset + 4 ≤ payload.length :=
  confined_readWord (Nat.succ_pos 3)

theorem confined_readPtr :
    Confined payload (readWord 0 cfg.sizeofPtr) ↔ cfg.sizeofPtr ≤ payload.length := by
  rw [confined_readWord cfg.sizeofPtr_pos, Nat.zero_add]

theorem confined_readPoint {offset : ℕ} :
    Confined payload (readPoint offset) ↔ offset + 8 ≤ payload.length := by
  simp only [readPoint, confined_readInt_bind, confined_pure, and_true]
  omega

theorem confined_readRect {offset : ℕ} :
    Confined payload (readRect offset) ↔ offset + 16 ≤ payload.length := by
  simp only [readRect, confined_readInt_bind, confined_pure, and_true]
  omega

theorem confined_readImeTargetInfo {offset : ℕ} :
    Confined payload (readImeTargetInfo offset) ↔ offset + 28 ≤ payload.length := by
  rw [readImeTargetInfo, confined_readInt_bind, confined_bind (fun _ => 0), confined_readPoint,
    confined_bind_pure, confined_readRect]
  omega

/-- The layer is found in the data. -/
theorem confined_findLayer {info : LayerInfoLayout} {cli : ℕ} {s : ω} :
    Confined payload (findLayer ops info cli s) ↔ LayerFits ops payload info s := by
  rw [findLayer, confined_readInt_bind, LayerFits]
  refine and_congr_right fun _ => ?_
  by_cases byName : intAt payload info.handleName = 0
  · rw [if_pos byName, if_pos byName, confined_readWord_bind Nat.one_pos]
    refine and_congr_right fun _ => ?_
    by_cases own : wordAt payload info.name 1 = 0
    · rw [if_pos own]
      exact iff_of_true (confined_pure _) fun named => absurd own named
    · rw [if_neg own]
      exact ⟨fun confined _ => confined, fun confined => confined own⟩
  · rw [if_neg byName, if_neg byName]
    exact confined_readWord cfg.sizeofPtr_pos

theorem run_findLayer {info : LayerInfoLayout} {cli : ℕ} {s : ω}
    (fits : LayerFits ops payload info s) :
    (findLayer ops info cli s).run (place payload fun _ => 0) = layerAt ops payload info cli s := by
  obtain ⟨kind, rest⟩ := fits
  have handleName : (readInt info.handleName).run (place payload fun _ => 0) =
      intAt payload info.handleName := run_readWord kind _
  rw [findLayer, run_bind, handleName, layerAt]
  by_cases byName : intAt payload info.handleName = 0
  · rw [if_pos byName] at rest
    rw [if_pos byName, if_pos byName, run_bind, run_readWord rest.1]
    by_cases own : wordAt payload info.name 1 = 0
    · rw [if_pos own, if_pos own, run_pure]
    · rw [if_neg own, if_neg own]
  · rw [if_neg byName] at rest
    rw [if_neg byName, if_neg byName, run_readWord rest]

/-- **A handler stays inside the data if and only if they fit.** -/
theorem confined_call_iff {handler : SysHandler} {cli clifd : ℕ} {s : ω} :
    Confined payload (handler.call ops cli clifd s) ↔ Fits ops payload handler cli s := by
  cases handler with
  | createCursor =>
    show Confined payload (createCursor ops cli clifd s) ↔
      24 ≤ payload.length ∧ Confined payload (createCursorAt ops payload s)
    simp only [createCursor, confined_readInt_bind]
    have masks : Confined payload (createCursorAt ops payload s >>= fun made =>
        pure (registerCursor ops cli clifd made.1 made.2)) ↔
        Confined payload (createCursorAt ops payload s) := confined_bind_pure _
    rw [← masks]
    constructor
    · rintro ⟨_, _, _, _, _, last, confined⟩
      exact ⟨last, confined⟩
    · rintro ⟨inside, confined⟩
      exact ⟨by omega, by omega, by omega, by omega, by omega, inside, confined⟩
  | copyCursor =>
    exact (confined_bind_pure _).trans confined_readPtr
  | destroyCursor => exact (confined_bind_pure _).trans confined_readPtr
  | clipCursor => exact (confined_bind_pure _).trans confined_readRect
  | setCursor => exact (confined_bind_pure _).trans confined_readPtr
  | showCursor => exact (confined_bind_pure _).trans confined_readInt
  | setCursorPos => exact (confined_bind_pure _).trans confined_readPoint
  | layerOp =>
    show Confined payload (layerOp ops cli clifd s) ↔ _
    rw [layerOp, confined_bind (fun _ => 0), confined_findLayer]
    refine and_congr_right fun fits => ?_
    rw [run_findLayer ops fits]
    by_cases found : usable ops (layerAt ops payload cfg.layerOpInfo cli s) s
    · rw [if_pos found]
      refine ((confined_bind_pure _).trans confined_readInt).trans ?_
      exact ⟨fun inside _ => inside, fun inside => inside found⟩
    · rw [if_neg found]
      exact iff_of_true (confined_pure _) fun usable => absurd usable found
  | moveToLayer => exact (confined_bind_pure _).trans (confined_findLayer ops)
  | imLive => exact (confined_bind_pure _).trans confined_readInt
  | openImeWnd => exact (confined_bind_pure _).trans confined_readInt
  | setImeStat => exact (confined_bind_pure _).trans confined_readInt
  | getImeStat => exact (confined_bind_pure _).trans confined_readInt
  | setImeTargetinfo => exact (confined_bind_pure _).trans confined_readImeTargetInfo
  | freeSemForSharedSurf => exact (confined_bind_pure _).trans confined_readInt
  | authenticateClient =>
    show Confined payload (authenticateClient ops cli clifd s) ↔ _
    rw [authenticateClient]
    by_cases drm : cfg.mggalDrm = true
    · rw [if_pos drm]
      refine ((confined_bind_pure _).trans confined_readInt).trans ?_
      exact ⟨fun inside _ => inside, fun inside => inside drm⟩
    · rw [if_neg drm]
      exact iff_of_true (confined_pure _) fun enabled => absurd enabled drm

/-- When `CreateCursor` reads two blocks, the data hold both of them. -/
theorem fits_createCursor_iff {cli andSize xorSize : ℕ} {s : ω}
    (finish : List Byte → List Byte → cfg.Ptr × ω)
    (blocks : createCursorAt ops payload s = do
      let andMask ← readSpan 24 andSize
      let xorMask ← readSpan (24 + (intAt payload 20).toInt) xorSize
      pure (finish andMask xorMask)) :
    Fits ops payload .createCursor cli s ↔ 24 + andSize ≤ payload.length ∧
      (xorSize = 0 ∨ 0 ≤ 24 + (intAt payload 20).toInt ∧
        24 + (intAt payload 20).toInt + xorSize ≤ payload.length) := by
  rw [Fits, blocks, confined_bind (fun _ => 0), confined_readSpan, confined_bind_pure,
    confined_readSpan]
  omega

/-! ### The result -/

/-- **Own bytes.** -/
theorem ownBytes_iff (handler : SysHandler) (cli clifd : ℕ) (payload : List Byte) (s : ω) :
    OwnBytes ops payload handler cli clifd s ↔ Fits ops payload handler cli s := by
  rw [← confined_call_iff]
  exact ⟨fun own => own.below, fun confined => ⟨confined, confined.run_eq⟩⟩

end Requests

/-! ### A request that is too short -/

section TooShort

/-- The part of the world that is looked at: `last_live_time` of the client. -/
abbrev LiveTime := BitVec 32

def plainConfig : SysConfig where
  mghaveCursor := true
  mggalDrm := false
  sizeofPtr := 8
  sizeofPtr_pos := by decide
  sockerrOk := .other 0
  layerOpInfo := ⟨0, 8, 8, 48⟩
  moveToLayerInfo := ⟨0, 8, 8, 48⟩
  idLayeropDelete := 1
  idLayeropSettop := 2
  invLayerHandle := 0
  allocSem := 0

/-- Every function but the one that stores the time does nothing. -/
def liveOps : SysOps plainConfig LiveTime where
  serverSendReply _ reply s := (.other reply.length, s)
  createCursor _ _ _ _ _ _ _ s := pure (0, s)
  copyCursor _ s := (0, s)
  destroyCursor _ s := (0, s)
  addGlobalRes _ _ _ s := s
  delGlobalRes _ _ _ s := s
  clipCursor _ s := s
  setCursorEx _ _ s := (0, s)
  showCursor _ s := (0, s)
  setCursorPos _ _ s := s
  clientLayer _ _ := 0
  findLayerByName _ _ := pure 0
  isValidLayer _ _ := false
  serverDeleteLayer _ s := (0, s)
  serverSetTopmostLayer _ s := (0, s)
  moveClientToLayer _ _ s := (false, s)
  zorderShmid _ _ := 0
  movedClientInfo _ _ := []
  setLastLiveTime _ time _ := time
  mgImeWnd _ := none
  sendNotifyImeOpen _ s := s
  sendNotifyImeClose _ s := s
  sendMessageImeSetstatus _ _ s := (0, s)
  sendMessageImeGetstatus _ s := (0, s)
  sendMessageImeSetTargetInfo _ s := (0, s)
  drmAuthClient _ _ s := (1, s)

/-- With one byte, three bytes of the time are what an earlier request left. -/
theorem short_im_live_reads_left_over :
    ¬ OwnBytes liveOps [1] .imLive 1 5 0 ∧
      (SysHandler.imLive.call liveOps 1 5 0).run (place [1] fun _ => 0) = (.other 0, 1) ∧
      (SysHandler.imLive.call liveOps 1 5 0).run (place [1] fun _ => 7) = (.other 0, 0x07070701) := by
  refine ⟨fun own => ?_, by decide, by decide⟩
  have differ := own.same (fun _ => 0) (fun _ => 7)
  revert differ
  decide

end TooShort

/-! ### Runs of requests -/

section Runs

variable {cfg : SysConfig} {ω : Type} (ops : SysOps cfg ω)

/-- A request; `addr` is the block from `malloc` for data that are too long for the static
buffer. -/
structure SysRequest where
  handler : SysHandler
  cli : ℕ
  clifd : ℕ
  payload : List Byte
  addr : ℕ

/-- The buffer of a request. -/
def SysRequest.buff (request : SysRequest) : Buff :=
  if request.payload.length ≤ requestDataBuffSize then .requestDataBuff else .block request.addr

/-- The memory around a pointer into the buffers; `before` is what stands before a buffer. -/
def seenFrom (before : Buff → ℤ → Byte) (mem : Buff → ℕ → Byte) (buff : Buff) (offset : ℤ) : Byte :=
  if 0 ≤ offset then mem buff offset.toNat else before buff offset

/-- The data in the buffer, and around it what was there. -/
theorem seenFrom_scatter (payload : List Byte) (before : Buff → ℤ → Byte) (mem : Buff → ℕ → Byte)
    (buff : Buff) : seenFrom before (scatter mem buff payload) buff =
      place payload (seenFrom before mem buff) := by
  funext offset
  have stored : scatter mem buff payload buff offset.toNat =
      payload.getD offset.toNat (mem buff offset.toNat) := by
    rw [scatter, Function.update_self]
  rw [place, seenFrom, seenFrom]
  by_cases below : 0 ≤ offset
  · rw [if_pos below, if_pos below, stored]
    by_cases inside : Within payload offset
    · rw [if_pos inside]
    · have past : payload.length ≤ offset.toNat :=
        Int.le_toNat below |>.mpr (not_lt.mp fun small => inside ⟨below, small⟩)
      rw [if_neg inside, List.getD_eq_default _ _ past]
  · rw [if_neg below, if_neg below, if_neg fun inside => below inside.1]

/-- Receive the data and call the handler. -/
def serve (before : Buff → ℤ → Byte) (request : SysRequest) (mem : Buff → ℕ → Byte) (s : ω) :
    (Code × ω) × (Buff → ℕ → Byte) :=
  let mem := scatter mem request.buff request.payload
  ((request.handler.call ops request.cli request.clifd s).run (seenFrom before mem request.buff),
    mem)

/-- Some requests, one after the other: the codes, and the world with all the replies. -/
def serveAll (before : Buff → ℤ → Byte) : List SysRequest → (Buff → ℕ → Byte) → ω → List Code × ω
  | [], _, s => ([], s)
  | request :: rest, mem, s =>
    let served := serve ops before request mem s
    let others := serveAll before rest served.2 served.1.2
    (served.1.1 :: others.1, others.2)

/-- What a request does by its own bytes. -/
def SysRequest.own (request : SysRequest) (s : ω) : Code × ω :=
  (request.handler.call ops request.cli request.clifd s).run (place request.payload fun _ => 0)

/-- What some requests do by their own bytes. -/
def ownAll : List SysRequest → ω → List Code × ω
  | [], s => ([], s)
  | request :: rest, s =>
    let served := request.own ops s
    let others := ownAll rest served.2
    (served.1 :: others.1, others.2)

/-- Every request fits when it is handled. -/
def FitAll : List SysRequest → ω → Prop
  | [], _ => True
  | request :: rest, s =>
    Fits ops request.payload request.handler request.cli s ∧ FitAll rest (request.own ops s).2

/-- A request that fits does what its bytes say, whatever is in the buffers. -/
theorem serve_eq {request : SysRequest} {s : ω}
    (fits : Fits ops request.payload request.handler request.cli s) (before : Buff → ℤ → Byte)
    (mem : Buff → ℕ → Byte) : (serve ops before request mem s).1 = request.own ops s := by
  rw [serve, seenFrom_scatter, SysRequest.own]
  exact ((ownBytes_iff ops _ _ _ _ s).mpr fits).same _ _

/-- **Requests that fit depend on no earlier request's bytes.** -/
theorem serveAll_eq (before : Buff → ℤ → Byte) (requests : List SysRequest) (mem : Buff → ℕ → Byte)
    (s : ω) (fit : FitAll ops requests s) :
    serveAll ops before requests mem s = ownAll ops requests s := by
  induction requests generalizing mem s with
  | nil => rfl
  | cons request rest ih =>
    have step := serve_eq ops fit.1 before mem
    have others := ih (serve ops before request mem s).2 (request.own ops s).2 fit.2
    simp only [serveAll, ownAll, step, others]

end Runs

end Aple.ClientServer.SysHandlers
