/-
**The system handlers with arguments of a fixed size.**

* `Point`, `Rect`, `ImeTargetInfo`, `LayerInfoLayout` — the structures a handler finds in `buff`.
* `SysConfig`, `SysOps` — the constants and options of the build, and what the handlers call.
* The sixteen handlers, each a program that reads `buff`; no handler looks at `len`. Offsets count
  from `buff`, and one behind the data or before it is read as any other.
* `SysHandler`, `SysHandler.call` — the handlers by name.

`CreateCursor` and `__mg_find_layer_by_name` are given pointers into `buff`, so they are programs,
too. The layouts of `LAYEROPINFO` and `MOVETOLAYERINFO` are not part of the sources.
-/

import Aple.ClientServer.Reply
import Aple.Lib.ReadProg

namespace Aple.ClientServer.SysHandlers

open Aple.Lib Aple.Lib.ReadProg

/-! ### Structures in the buffer -/

/-- `POINT`. -/
structure Point where
  x : BitVec 32
  y : BitVec 32
deriving DecidableEq, Repr

/-- `RECT`. -/
structure Rect where
  left : BitVec 32
  top : BitVec 32
  right : BitVec 32
  bottom : BitVec 32
deriving DecidableEq, Repr

/-- `IME_TARGET_INFO`. -/
structure ImeTargetInfo where
  iEditBoxType : BitVec 32
  ptCaret : Point
  rcEditBox : Rect
deriving DecidableEq, Repr

/-- The offsets of `handle_name`, of `layer.name` and `layer.handle`, and of `id_op`; the last one
is not used for `MOVETOLAYERINFO`. -/
structure LayerInfoLayout where
  handleName : ℕ
  name : ℕ
  handle : ℕ
  idOp : ℕ

/-- A value of type `int`. -/
def readInt (offset : ℕ) : ReadProg ℤ Byte (BitVec 32) := readWord offset 4

def readPoint (offset : ℕ) : ReadProg ℤ Byte Point := do
  let x ← readInt offset
  let y ← readInt (offset + 4)
  pure ⟨x, y⟩

def readRect (offset : ℕ) : ReadProg ℤ Byte Rect := do
  let left ← readInt offset
  let top ← readInt (offset + 4)
  let right ← readInt (offset + 8)
  let bottom ← readInt (offset + 12)
  pure ⟨left, top, right, bottom⟩

def readImeTargetInfo (offset : ℕ) : ReadProg ℤ Byte ImeTargetInfo := do
  let iEditBoxType ← readInt offset
  let ptCaret ← readPoint (offset + 4)
  let rcEditBox ← readRect (offset + 12)
  pure ⟨iEditBoxType, ptCaret, rcEditBox⟩

/-! ### Outside of the handlers -/

/-- The options of the build, the size of a pointer, and the constants. `allocSem` is the address of
`alloc_sem_for_shared_surf`. -/
structure SysConfig where
  mghaveCursor : Bool
  mggalDrm : Bool
  sizeofPtr : ℕ
  sizeofPtr_pos : 0 < sizeofPtr
  sockerrOk : Code
  layerOpInfo : LayerInfoLayout
  moveToLayerInfo : LayerInfoLayout
  idLayeropDelete : BitVec 32
  idLayeropSettop : BitVec 32
  invLayerHandle : BitVec (8 * sizeofPtr)
  allocSem : BitVec (8 * sizeofPtr)

/-- A pointer or a handle. -/
abbrev SysConfig.Ptr (cfg : SysConfig) := BitVec (8 * cfg.sizeofPtr)

/-- What the handlers call, on the rest of the world, which includes the clients, their resource
lists and what was sent to them. Results of type `BOOL` are `int`s. `movedClientInfo` are the bytes of
the structure with this layer and shared memory. -/
structure SysOps (cfg : SysConfig) (ω : Type) where
  serverSendReply : ℕ → List Byte → ω → Code × ω
  createCursor : (xhotspot yhotspot w h : BitVec 32) → (andBits xorBits : ℤ) →
    (colornum : BitVec 32) → ω → ReadProg ℤ Byte (cfg.Ptr × ω)
  copyCursor : cfg.Ptr → ω → cfg.Ptr × ω
  destroyCursor : cfg.Ptr → ω → BitVec 32 × ω
  addGlobalRes : (cli : ℕ) → (key res : cfg.Ptr) → ω → ω
  delGlobalRes : (cli : ℕ) → (key res : cfg.Ptr) → ω → ω
  clipCursor : Rect → ω → ω
  setCursorEx : cfg.Ptr → (setDef : Bool) → ω → cfg.Ptr × ω
  showCursor : BitVec 32 → ω → BitVec 32 × ω
  setCursorPos : (x y : BitVec 32) → ω → ω
  clientLayer : (cli : ℕ) → ω → cfg.Ptr
  findLayerByName : (name : ℤ) → ω → ReadProg ℤ Byte cfg.Ptr
  isValidLayer : cfg.Ptr → ω → Bool
  serverDeleteLayer : cfg.Ptr → ω → BitVec 32 × ω
  serverSetTopmostLayer : cfg.Ptr → ω → BitVec 32 × ω
  moveClientToLayer : (cli : ℕ) → cfg.Ptr → ω → Bool × ω
  zorderShmid : cfg.Ptr → ω → BitVec 32
  movedClientInfo : (layer : cfg.Ptr) → (zoShmid : BitVec 32) → List Byte
  setLastLiveTime : (cli : ℕ) → BitVec 32 → ω → ω
  mgImeWnd : ω → Option cfg.Ptr
  sendNotifyImeOpen : cfg.Ptr → ω → ω
  sendNotifyImeClose : cfg.Ptr → ω → ω
  sendMessageImeSetstatus : (wParam lParam : ℤ) → ω → BitVec 32 × ω
  sendMessageImeGetstatus : (wParam : BitVec 32) → ω → BitVec 32 × ω
  sendMessageImeSetTargetInfo : ImeTargetInfo → ω → BitVec 32 × ω
  drmAuthClient : (cli : ℕ) → (magic : BitVec 32) → ω → BitVec 32 × ω

/-! ### The handlers -/

section Handlers

variable {cfg : SysConfig} {ω : Type} (ops : SysOps cfg ω)

/-- `ServerSendReply (clifd, &value, sizeof (value))`. -/
def replyWord {w : ℕ} (clifd : ℕ) (value : BitVec w) (s : ω) : Code × ω :=
  ops.serverSendReply clifd (toBytes (w / 8) value.toNat) s

/-- Record a cursor if there is one, and reply with it. -/
def registerCursor (cli clifd : ℕ) (hcsr : cfg.Ptr) (s : ω) : Code × ω :=
  replyWord ops clifd hcsr
    (if cfg.mghaveCursor ∧ hcsr ≠ 0 then ops.addGlobalRes cli hcsr hcsr s else s)

/-- `create_cursor`. The offset in `tmp [5]` is signed. -/
def createCursor (cli clifd : ℕ) (s : ω) : ReadProg ℤ Byte (Code × ω) := do
  let tmp0 ← readInt 0
  let tmp1 ← readInt 4
  let tmp2 ← readInt 8
  let tmp3 ← readInt 12
  let tmp4 ← readInt 16
  let tmp5 ← readInt 20
  let (hcsr, s) ← ops.createCursor tmp0 tmp1 tmp2 tmp3 24 (24 + tmp5.toInt) tmp4 s
  pure (registerCursor ops cli clifd hcsr s)

/-- `copy_cursor`. -/
def copyCursor (cli clifd : ℕ) (s : ω) : ReadProg ℤ Byte (Code × ω) := do
  let hcsr ← readWord 0 cfg.sizeofPtr
  let (hcsr, s) := ops.copyCursor hcsr s
  pure (registerCursor ops cli clifd hcsr s)

/-- `destroy_cursor`. -/
def destroyCursor (cli clifd : ℕ) (s : ω) : ReadProg ℤ Byte (Code × ω) := do
  let hcsr ← readWord 0 cfg.sizeofPtr
  let (retValue, s) := ops.destroyCursor hcsr s
  pure (replyWord ops clifd retValue (ops.delGlobalRes cli hcsr hcsr s))

/-- `clip_cursor`. -/
def clipCursor (s : ω) : ReadProg ℤ Byte (Code × ω) := do
  let cliprc ← readRect 0
  pure (cfg.sockerrOk, ops.clipCursor cliprc s)

/-- `set_cursor`. -/
def setCursor (clifd : ℕ) (s : ω) : ReadProg ℤ Byte (Code × ω) := do
  let hcsr ← readWord 0 cfg.sizeofPtr
  let (old, s) := ops.setCursorEx hcsr false s
  pure (replyWord ops clifd old s)

/-- `show_cursor`. -/
def showCursor (clifd : ℕ) (s : ω) : ReadProg ℤ Byte (Code × ω) := do
  let showHide ← readInt 0
  let (retValue, s) := ops.showCursor showHide s
  pure (replyWord ops clifd retValue s)

/-- `set_cursor_pos`. -/
def setCursorPos (s : ω) : ReadProg ℤ Byte (Code × ω) := do
  let pt ← readPoint 0
  pure (cfg.sockerrOk, ops.setCursorPos pt.x pt.y s)

/-- The layer that `layer_op` and `move_to_layer` work on. -/
def findLayer (info : LayerInfoLayout) (cli : ℕ) (s : ω) : ReadProg ℤ Byte cfg.Ptr := do
  let handleName ← readInt info.handleName
  if handleName = 0 then
    let first ← readWord info.name 1
    if first = 0 then pure (ops.clientLayer cli s) else ops.findLayerByName info.name s
  else readWord info.handle cfg.sizeofPtr

/-- `layer != NULL` and `__mg_is_valid_layer (layer)`. -/
def usable (layer : cfg.Ptr) (s : ω) : Bool := layer != 0 && ops.isValidLayer layer s

/-- `layer_op`. -/
def layerOp (cli clifd : ℕ) (s : ω) : ReadProg ℤ Byte (Code × ω) := do
  let layer ← findLayer ops cfg.layerOpInfo cli s
  if usable ops layer s then
    let idOp ← readInt cfg.layerOpInfo.idOp
    let (retValue, s) :=
      if idOp = cfg.idLayeropDelete then ops.serverDeleteLayer layer s
      else if idOp = cfg.idLayeropSettop then ops.serverSetTopmostLayer layer s
      else (0, s)
    pure (replyWord ops clifd retValue s)
  else pure (replyWord ops clifd (0 : BitVec 32) s)

/-- `move_to_layer`. -/
def moveToLayer (cli clifd : ℕ) (s : ω) : ReadProg ℤ Byte (Code × ω) := do
  let dstLayer ← findLayer ops cfg.moveToLayerInfo cli s
  let (movedInfo, s) :=
    if usable ops dstLayer s then
      match ops.moveClientToLayer cli dstLayer s with
      | (true, s) => (ops.movedClientInfo dstLayer (ops.zorderShmid dstLayer s), s)
      | (false, s) => (ops.movedClientInfo cfg.invLayerHandle 0, s)
    else (ops.movedClientInfo cfg.invLayerHandle 0, s)
  pure (ops.serverSendReply clifd movedInfo s)

/-- `im_live`. -/
def imLive (cli : ℕ) (s : ω) : ReadProg ℤ Byte (Code × ω) := do
  let time ← readInt 0
  pure (cfg.sockerrOk, ops.setLastLiveTime cli time s)

/-- `open_ime_wnd`. The data is copied before the test of `__mg_ime_wnd`. -/
def openImeWnd (s : ω) : ReadProg ℤ Byte (Code × ω) := do
  let isOpen ← readInt 0
  pure (cfg.sockerrOk,
    match ops.mgImeWnd s with
    | none => s
    | some wnd => if isOpen ≠ 0 then ops.sendNotifyImeOpen wnd s else ops.sendNotifyImeClose wnd s)

/-- `set_ime_stat`. -/
def setImeStat (clifd : ℕ) (s : ω) : ReadProg ℤ Byte (Code × ω) := do
  let data ← readInt 0
  let (ret, s) := ops.sendMessageImeSetstatus (hisword data) (losword data) s
  pure (replyWord ops clifd ret s)

/-- `get_ime_stat`. -/
def getImeStat (clifd : ℕ) (s : ω) : ReadProg ℤ Byte (Code × ω) := do
  let data ← readInt 0
  let (ret, s) := ops.sendMessageImeGetstatus data s
  pure (replyWord ops clifd ret s)

/-- `set_ime_targetinfo`. -/
def setImeTargetinfo (clifd : ℕ) (s : ω) : ReadProg ℤ Byte (Code × ω) := do
  let data ← readImeTargetInfo 0
  let (ret, s) := ops.sendMessageImeSetTargetInfo data s
  pure (replyWord ops clifd ret s)

/-- `free_sem_for_shared_surf`. -/
def freeSemForSharedSurf (cli clifd : ℕ) (s : ω) : ReadProg ℤ Byte (Code × ω) := do
  let semNum ← readInt 0
  let s := ops.delGlobalRes cli cfg.allocSem (semNum.signExtend (8 * cfg.sizeofPtr)) s
  pure (replyWord ops clifd (0 : BitVec 32) s)

/-- `authenticate_client`. -/
def authenticateClient (cli clifd : ℕ) (s : ω) : ReadProg ℤ Byte (Code × ω) :=
  if cfg.mggalDrm then do
    let magic ← readInt 0
    let (authResult, s) := ops.drmAuthClient cli magic s
    pure (replyWord ops clifd authResult s)
  else pure (replyWord ops clifd (1 : BitVec 32) s)

end Handlers

/-- The handlers. -/
inductive SysHandler
  | createCursor | copyCursor | destroyCursor | clipCursor | setCursor | showCursor | setCursorPos
  | layerOp | moveToLayer | imLive | openImeWnd | setImeStat | getImeStat | setImeTargetinfo
  | freeSemForSharedSurf | authenticateClient
deriving DecidableEq, Repr

/-- Call a handler. -/
def SysHandler.call {cfg : SysConfig} {ω : Type} (handler : SysHandler) (ops : SysOps cfg ω)
    (cli clifd : ℕ) (s : ω) : ReadProg ℤ Byte (Code × ω) :=
  match handler with
  | .createCursor => SysHandlers.createCursor ops cli clifd s
  | .copyCursor => SysHandlers.copyCursor ops cli clifd s
  | .destroyCursor => SysHandlers.destroyCursor ops cli clifd s
  | .clipCursor => SysHandlers.clipCursor ops s
  | .setCursor => SysHandlers.setCursor ops clifd s
  | .showCursor => SysHandlers.showCursor ops clifd s
  | .setCursorPos => SysHandlers.setCursorPos ops s
  | .layerOp => SysHandlers.layerOp ops cli clifd s
  | .moveToLayer => SysHandlers.moveToLayer ops cli clifd s
  | .imLive => SysHandlers.imLive ops cli s
  | .openImeWnd => SysHandlers.openImeWnd ops s
  | .setImeStat => SysHandlers.setImeStat ops clifd s
  | .getImeStat => SysHandlers.getImeStat ops clifd s
  | .setImeTargetinfo => SysHandlers.setImeTargetinfo ops clifd s
  | .freeSemForSharedSurf => SysHandlers.freeSemForSharedSurf ops cli clifd s
  | .authenticateClient => SysHandlers.authenticateClient ops cli clifd s

end Aple.ClientServer.SysHandlers
