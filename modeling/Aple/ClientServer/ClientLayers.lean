/-
**The layer a client is in.**

* `ClientLayer` — the globals of the client that go with its layer, and the shared segments that are
  attached; `shmat`, `shmdt`.
* `joinLayer`, `mgClientOnLayerChanged`, `moveToLayer` — joining a layer and changing it, for any
  reply of the server; `serverMoveToLayer` — the handler that grants a move.
* `AllOrNothing` — a change of the layer is complete or has no effect; `on_layer_changed_fails` — a
  change that was granted is neither.
* **`layer_change_iff`** — a change is all or nothing exactly when it is not granted.
* `CleanFailure` — a `JoinLayer` that fails leaves the client as it was, so that the next one joins.
* **`join_clean_iff`** — this is so unless the reply of the server sets what the failing exits do not
  put back.
-/

import Mathlib.Data.Int.Notation
import Aple.ClientServer.GlobalRes

namespace Aple.ClientServer

/-! ### The client -/

/-- A layer handle is an address of the server. -/
abbrev Ghandle := ℕ

/-- The globals of a client and its attached segments. `desktops` counts the calls of
`__mg_start_client_desktop`, and `joins` the `REQID_JOINLAYER` requests. -/
structure ClientLayer where
  mgClientId : ℤ
  mgLayer : Ghandle
  mgZorderInfo : Ptr
  mgDefZorderInfo : Ptr
  mgTickCounter : ℕ
  attached : List Addr
  detached : List Addr
  desktops : ℕ
  joins : ℕ

/-- How a `ClientRequest` ends: the client exits, the result is negative, or there is a reply. -/
inductive Answer (α : Type)
  | exits
  | fails
  | reply (info : α)
deriving Repr

/-- `MOVEDCLIENTINFO`. -/
structure MovedClientInfo where
  layer : Ghandle
  zoShmid : ℤ
deriving DecidableEq, Repr

/-- `JOINEDCLIENTINFO`. -/
structure JoinedClientInfo where
  layer : Ghandle
  cliId : ℤ
  ziShmid : ℤ
  defZiShmid : ℤ
deriving DecidableEq, Repr

/-- `MOVETOLAYERINFO`, whose union holds a handle or a name. -/
inductive MoveToLayerInfo
  | handle (handle : Ghandle)
  | name (name : List Char)
deriving DecidableEq, Repr

/-- `JOINLAYERINFO`. -/
structure JoinLayerInfo where
  layerName : List Char
  clientName : List Char
  maxNrTopmosts : BitVec 32
  maxNrNormals : BitVec 32
deriving DecidableEq, Repr

/-- The constants, and what does not change in a call. -/
structure LayerConfig where
  mgIsServer : Bool
  invLayerHandle : Ghandle
  lenLayerName : ℕ
  lenClientName : ℕ
  defNrTopmosts : BitVec 32
  defNrNormals : BitVec 32

/-- What the calls give: `shmat` with an id and `SHM_RDONLY`, the requests, the handle that
`GetLayerInfo (NAME_SELF_LAYER, …)` returns unless the client exits in it, and the shared counter. -/
structure LayerEnv where
  shmat : ℤ → Option Addr
  joinRequest : JoinLayerInfo → Answer JoinedClientInfo
  moveRequest : MoveToLayerInfo → Answer MovedClientInfo
  selfLayer : Option Ghandle
  timerCounter : ℕ

namespace ClientLayer

/-- `shmdt`: it succeeds for an attached address. -/
def shmdt (addr : Ptr) (s : ClientLayer) : Bool × ClientLayer :=
  match addr with
  | none => (false, s)
  | some addr =>
    if addr ∈ s.attached then
      (true, { s with attached := s.attached.erase addr, detached := s.detached ++ [addr] })
    else (false, s)

/-- `shmat`: the address, or `(void*)-1`. -/
def shmat (env : LayerEnv) (shmid : ℤ) (s : ClientLayer) : Option Addr × ClientLayer :=
  match env.shmat shmid with
  | none => (none, s)
  | some addr => (some addr, { s with attached := addr :: s.attached })

end ClientLayer

section Functions

variable (cfg : LayerConfig) (env : LayerEnv)

/-- `__mg_client_on_layer_changed`. -/
def mgClientOnLayerChanged (layerHandle : Ghandle) (ziShmid : ℤ) (s : ClientLayer) :
    Bool × ClientLayer :=
  if layerHandle ≠ cfg.invLayerHandle then
    let s := { s with mgLayer := cfg.invLayerHandle, mgZorderInfo := none }
    let (done, s) := s.shmdt s.mgZorderInfo
    if done = false then (false, s)
    else
      match s.shmat env ziShmid with
      | (none, s) => (false, s)
      | (some zi, s) => (true, { s with mgLayer := layerHandle, mgZorderInfo := some zi })
  else (false, s)

/-- The arguments of `MoveToLayer` as they are sent, if they pass its tests. -/
def moveInfo (handleName : Bool) (handle : Ghandle) (name : Option (List Char)) :
    Option MoveToLayerInfo :=
  if cfg.mgIsServer then none
  else if handleName then if handle = cfg.invLayerHandle then none else some (.handle handle)
  else name.map fun name => .name (name.take cfg.lenLayerName)

/-- `MoveToLayer`; `none` when the client exits. -/
def moveToLayer (handleName : Bool) (handle : Ghandle) (name : Option (List Char)) (s : ClientLayer) :
    Option (Bool × ClientLayer) :=
  match moveInfo cfg handleName handle name with
  | none => some (false, s)
  | some info =>
    match env.moveRequest info with
    | .exits => none
    | .fails => some (false, s)
    | .reply moved => some (mgClientOnLayerChanged cfg env moved.layer moved.zoShmid s)

/-- The number of nodes that is sent: a multiple of 8. -/
def nodes (asked default : BitVec 32) : BitVec 32 :=
  ((if asked.toInt ≤ 0 then default else asked) + 7) &&& ~~~7

def joinInfo (layerName clientName : Option (List Char)) (maxNrTopmosts maxNrNormals : BitVec 32) :
    JoinLayerInfo :=
  ⟨(layerName.getD []).take cfg.lenLayerName, (clientName.getD []).take cfg.lenClientName,
    nodes maxNrTopmosts cfg.defNrTopmosts, nodes maxNrNormals cfg.defNrNormals⟩

/-- `JoinLayer` behind the test of the handle: the z-order segments of the layer and of the default
layer. The result is whether both are attached. -/
def attachLayer (info : JoinedClientInfo) (s : ClientLayer) : Bool × ClientLayer :=
  let s := { s with mgLayer := info.layer }
  match s.shmat env info.ziShmid with
  | (none, s) => (false, s)
  | (some zi, s) =>
    let s := { s with mgZorderInfo := some zi }
    if info.ziShmid = info.defZiShmid then (true, { s with mgDefZorderInfo := some zi })
    else
      match s.shmat env info.defZiShmid with
      | (none, s) => (false, s)
      | (some zi, s) => (true, { s with mgDefZorderInfo := some zi })

/-- `JoinLayer` behind the reply. -/
def onJoined (info : JoinedClientInfo) (s : ClientLayer) : Ghandle × ClientLayer :=
  let s := { s with mgClientId := info.cliId }
  let (done, s) := if info.layer ≠ cfg.invLayerHandle then attachLayer env info s else (true, s)
  if done = false then (cfg.invLayerHandle, s)
  else (info.layer, { s with mgTickCounter := env.timerCounter, desktops := s.desktops + 1 })

/-- `JoinLayer`; `none` when the client exits. -/
def joinLayer (layerName clientName : Option (List Char)) (maxNrTopmosts maxNrNormals : BitVec 32)
    (s : ClientLayer) : Option (Ghandle × ClientLayer) :=
  if cfg.mgIsServer then some (cfg.invLayerHandle, s)
  else if s.mgClientId ≠ 0 then env.selfLayer.map fun handle => (handle, s)
  else
    let s := { s with joins := s.joins + 1 }
    match env.joinRequest (joinInfo cfg layerName clientName maxNrTopmosts maxNrNormals) with
    | .exits => none
    | .fails => some (cfg.invLayerHandle, s)
    | .reply info => some (onJoined cfg env info s)

end Functions

/-- What `move_to_layer` of the server uses; a null layer is 0. -/
structure LayerServer where
  clientLayer : Ghandle
  findLayerByName : List Char → Ghandle
  isValidLayer : Ghandle → Bool
  moveClientToLayer : Ghandle → Bool
  zorderShmid : Ghandle → ℤ

/-- The layer that a request names. -/
def LayerServer.dstLayer (server : LayerServer) : MoveToLayerInfo → Ghandle
  | .handle handle => handle
  | .name name => if name = [] then server.clientLayer else server.findLayerByName name

/-- `move_to_layer`: the reply. -/
def serverMoveToLayer (cfg : LayerConfig) (server : LayerServer) (info : MoveToLayerInfo) :
    MovedClientInfo :=
  let dstLayer := server.dstLayer info
  if dstLayer = 0 then ⟨cfg.invLayerHandle, 0⟩
  else if server.isValidLayer dstLayer = false then ⟨cfg.invLayerHandle, 0⟩
  else if server.moveClientToLayer dstLayer then ⟨dstLayer, server.zorderShmid dstLayer⟩
  else ⟨cfg.invLayerHandle, 0⟩

/-! ### Changing the layer -/

/-- A client with an attached z-order segment. -/
structure LayeredClient extends ClientLayer where
  segment : Addr
  points : mgZorderInfo = some segment
  mapped : segment ∈ attached

/-- **All or nothing**, for a call that returns, with the reply of the server if there is one. -/
structure AllOrNothing (cfg : LayerConfig) (env : LayerEnv) (before : LayeredClient)
    (reply : Option MovedClientInfo) (result : Bool) (after : ClientLayer) : Prop where
  changed : result = true → ∃ info zi, reply = some info ∧ env.shmat info.zoShmid = some zi ∧
    after.mgLayer = info.layer ∧ after.mgZorderInfo = some zi ∧ zi ∈ after.attached ∧
    after.detached = before.detached ++ [before.segment]
  kept : result = false → after.mgLayer = before.mgLayer ∧ after.mgZorderInfo = before.mgZorderInfo
  granted : ∀ info ∈ reply, info.layer ≠ cfg.invLayerHandle → env.shmat info.zoShmid ≠ none →
    result = true

/-- The reply to the request of a `MoveToLayer`, if it makes one and gets one. -/
def moveReply (cfg : LayerConfig) (env : LayerEnv) (handleName : Bool) (handle : Ghandle)
    (name : Option (List Char)) : Option MovedClientInfo :=
  (moveInfo cfg handleName handle name).bind fun info =>
    match env.moveRequest info with
    | .reply moved => some moved
    | .exits | .fails => none

/-- The server grants the move. -/
def Granted (cfg : LayerConfig) (reply : Option MovedClientInfo) : Prop :=
  ∃ info ∈ reply, info.layer ≠ cfg.invLayerHandle

section Changing

variable {cfg : LayerConfig} {env : LayerEnv} {handleName : Bool} {handle : Ghandle}
  {name : Option (List Char)}

/-- **A change that was granted** detaches nothing, because the pointer is null by then: it fails,
and the layer and the z-order of the client are gone. -/
theorem on_layer_changed_fails {layerHandle : Ghandle} (granted : layerHandle ≠ cfg.invLayerHandle)
    (ziShmid : ℤ) (s : ClientLayer) : mgClientOnLayerChanged cfg env layerHandle ziShmid s =
      (false, { s with mgLayer := cfg.invLayerHandle, mgZorderInfo := none }) :=
  if_pos granted

theorem on_layer_changed_refused {layerHandle : Ghandle} (refused : layerHandle = cfg.invLayerHandle)
    (ziShmid : ℤ) (s : ClientLayer) :
    mgClientOnLayerChanged cfg env layerHandle ziShmid s = (false, s) :=
  if_neg (not_not.mpr refused)

/-- A reply decides the call. -/
theorem moveToLayer_replied {moved : MovedClientInfo} (s : ClientLayer)
    (reply : moveReply cfg env handleName handle name = some moved) :
    moveToLayer cfg env handleName handle name s =
      some (mgClientOnLayerChanged cfg env moved.layer moved.zoShmid s) := by
  obtain ⟨info, sent, answered⟩ := Option.bind_eq_some_iff.mp reply
  unfold moveToLayer
  rw [sent]
  cases answer : env.moveRequest info with
  | reply other =>
    rw [answer] at answered
    obtain rfl := Option.some.inj answered
    simp only [answer]
  | exits | fails =>
    rw [answer] at answered
    cases answered

/-- Without a reply nothing changes. -/
theorem moveToLayer_unanswered {s after : ClientLayer} {result : Bool}
    (unanswered : moveReply cfg env handleName handle name = none)
    (returns : moveToLayer cfg env handleName handle name s = some (result, after)) :
    result = false ∧ after = s := by
  unfold moveToLayer at returns
  cases sent : moveInfo cfg handleName handle name with
  | none =>
    rw [sent] at returns
    obtain ⟨rfl, rfl⟩ := Prod.mk.inj (Option.some.inj returns)
    exact ⟨rfl, rfl⟩
  | some info =>
    rw [moveReply, sent, Option.bind_some] at unanswered
    rw [sent] at returns
    cases answer : env.moveRequest info with
    | exits =>
      simp only [answer] at returns
      cases returns
    | fails =>
      simp only [answer] at returns
      obtain ⟨rfl, rfl⟩ := Prod.mk.inj (Option.some.inj returns)
      exact ⟨rfl, rfl⟩
    | reply moved =>
      rw [answer] at unanswered
      cases unanswered

/-- A call that returns `FALSE` without a change, and without a grant. -/
theorem allOrNothing_unchanged {client : LayeredClient} {reply : Option MovedClientInfo}
    (refused : ¬ Granted cfg reply) :
    AllOrNothing cfg env client reply false client.toClientLayer where
  changed := nofun
  kept _ := ⟨rfl, rfl⟩
  granted info member differs := absurd ⟨info, member, differs⟩ refused

/-- A change that was granted breaks it. -/
theorem not_allOrNothing_lost {client : LayeredClient} {reply : Option MovedClientInfo} :
    ¬ AllOrNothing cfg env client reply false
      { client.toClientLayer with mgLayer := cfg.invLayerHandle, mgZorderInfo := none } := by
  intro all
  have kept : none = client.mgZorderInfo := (all.kept rfl).2
  rw [client.points] at kept
  cases kept

theorem on_layer_changed_iff (cfg : LayerConfig) (env : LayerEnv) (client : LayeredClient)
    (reply : MovedClientInfo) :
    AllOrNothing cfg env client (some reply)
        (mgClientOnLayerChanged cfg env reply.layer reply.zoShmid client.toClientLayer).1
        (mgClientOnLayerChanged cfg env reply.layer reply.zoShmid client.toClientLayer).2 ↔
      reply.layer = cfg.invLayerHandle := by
  by_cases refused : reply.layer = cfg.invLayerHandle
  · rw [on_layer_changed_refused refused]
    refine iff_of_true (allOrNothing_unchanged ?_) refused
    rintro ⟨info, member, differs⟩
    obtain rfl := Option.some.inj member
    exact differs refused
  · rw [on_layer_changed_fails refused]
    exact iff_of_false not_allOrNothing_lost refused

end Changing

/-- **A change of the layer** is all or nothing if and only if the server does not grant it. -/
theorem layer_change_iff (cfg : LayerConfig) (env : LayerEnv) (client : LayeredClient) :
    (∀ reply : MovedClientInfo, AllOrNothing cfg env client (some reply)
        (mgClientOnLayerChanged cfg env reply.layer reply.zoShmid client.toClientLayer).1
        (mgClientOnLayerChanged cfg env reply.layer reply.zoShmid client.toClientLayer).2 ↔
      reply.layer = cfg.invLayerHandle) ∧
    ∀ handleName handle name, (∀ result after,
        moveToLayer cfg env handleName handle name client.toClientLayer = some (result, after) →
        AllOrNothing cfg env client (moveReply cfg env handleName handle name) result after) ↔
      ¬ Granted cfg (moveReply cfg env handleName handle name) := by
  refine ⟨on_layer_changed_iff cfg env client, fun handleName handle name => ?_⟩
  cases reply : moveReply cfg env handleName handle name with
  | none =>
    have refused : ¬ Granted cfg none := fun ⟨_, member, _⟩ => nomatch member
    refine iff_of_true (fun result after returns => ?_) refused
    obtain ⟨rfl, rfl⟩ := moveToLayer_unanswered reply returns
    exact allOrNothing_unchanged refused
  | some moved =>
    rw [moveToLayer_replied client.toClientLayer reply]
    have granted_iff : Granted cfg (some moved) ↔ moved.layer ≠ cfg.invLayerHandle :=
      ⟨fun ⟨_, member, differs⟩ => Option.some.inj member ▸ differs, fun differs => ⟨moved, rfl, differs⟩⟩
    rw [granted_iff, not_not, ← on_layer_changed_iff cfg env client moved]
    constructor
    · exact fun all => all _ _ rfl
    · intro all result after returns
      obtain ⟨rfl, rfl⟩ := Prod.ext_iff.mp (Option.some.inj returns)
      exact all

/-- No layer is handle 0; names of 15 bytes; 8 and 16 nodes by default. -/
def tinyLayers : LayerConfig := ⟨false, 0, 15, 15, 8, 16⟩

/-- A client in layer 1 and a server that moves it to layer 2, whose segment has the id 7. -/
def tinyEnv : LayerEnv where
  shmat shmid := if shmid = 7 then some 8192 else none
  joinRequest _ := .reply ⟨1, 3, 6, 6⟩
  moveRequest info := .reply (serverMoveToLayer tinyLayers
    ⟨1, fun _ => 0, fun layer => layer == 2, fun _ => true, fun _ => 7⟩ info)
  selfLayer := some 1
  timerCounter := 0

def tinyClient : LayeredClient where
  toClientLayer := ⟨3, 1, some 4096, some 4096, 0, [4096], [], 1, 1⟩
  segment := 4096
  points := rfl
  mapped := List.mem_cons_self

/-- **A granted move is lost**: the result is `FALSE`, and the client has no layer and no z-order. -/
theorem granted_move_lost :
    moveToLayer tinyLayers tinyEnv true 2 none tinyClient.toClientLayer =
      some (false, { tinyClient.toClientLayer with mgLayer := 0, mgZorderInfo := none }) ∧
    ¬ ∀ result after,
      moveToLayer tinyLayers tinyEnv true 2 none tinyClient.toClientLayer = some (result, after) →
      AllOrNothing tinyLayers tinyEnv tinyClient (moveReply tinyLayers tinyEnv true 2 none) result after :=
  ⟨rfl, fun all => not_allOrNothing_lost (all _ _ rfl)⟩

/-! ### Joining a layer -/

/-- A client that has not joined a layer. -/
structure UnjoinedClient extends ClientLayer where
  unjoined : mgClientId = 0

/-- The arguments of `JoinLayer`. -/
structure JoinArgs where
  layerName : Option (List Char)
  clientName : Option (List Char)
  maxNrTopmosts : BitVec 32
  maxNrNormals : BitVec 32
deriving DecidableEq, Repr

def JoinArgs.join (args : JoinArgs) (cfg : LayerConfig) (env : LayerEnv) (s : ClientLayer) :
    Option (Ghandle × ClientLayer) :=
  joinLayer cfg env args.layerName args.clientName args.maxNrTopmosts args.maxNrNormals s

/-- The globals of the layer and the attached segments are the same, and the next call sends a request
again, whatever its arguments and its outcome. -/
structure AsBefore (cfg : LayerConfig) (before after : ClientLayer) : Prop where
  clientId : after.mgClientId = before.mgClientId
  layer : after.mgLayer = before.mgLayer
  zorderInfo : after.mgZorderInfo = before.mgZorderInfo
  defZorderInfo : after.mgDefZorderInfo = before.mgDefZorderInfo
  attached : after.attached = before.attached
  again : cfg.mgIsServer = false → ∀ env (args : JoinArgs) handle later,
    args.join cfg env after = some (handle, later) → later.joins = after.joins + 1

/-- **A `JoinLayer` that fails leaves the client un-joined.** -/
def CleanFailure (cfg : LayerConfig) (env : LayerEnv) (args : JoinArgs) (client : UnjoinedClient) :
    Prop :=
  ∀ after, args.join cfg env client.toClientLayer = some (cfg.invLayerHandle, after) →
    AsBefore cfg client.toClientLayer after

/-- A reply that is answered without a trace when it cannot be used: without a layer it has no client
id; when the segment of the layer cannot be attached, it has no client id either and names the layer
of the client; and a segment that was attached does not stay behind because of a second one. -/
structure Undone (cfg : LayerConfig) (env : LayerEnv) (client : ClientLayer) (info : JoinedClientInfo) :
    Prop where
  refused : info.layer = cfg.invLayerHandle → info.cliId = 0
  first : info.layer ≠ cfg.invLayerHandle → env.shmat info.ziShmid = none →
    info.cliId = 0 ∧ info.layer = client.mgLayer
  second : info.layer ≠ cfg.invLayerHandle → env.shmat info.ziShmid ≠ none →
    info.ziShmid ≠ info.defZiShmid → env.shmat info.defZiShmid ≠ none

/-- Whatever reply the call gets can be undone. -/
def JoinCondition (cfg : LayerConfig) (env : LayerEnv) (args : JoinArgs) (client : ClientLayer) : Prop :=
  cfg.mgIsServer = false → ∀ info, env.joinRequest (joinInfo cfg args.layerName args.clientName
    args.maxNrTopmosts args.maxNrNormals) = .reply info → Undone cfg env client info

section Joining

variable {cfg : LayerConfig} {env : LayerEnv} {args : JoinArgs}

/-- How the two segments are attached. -/
inductive Attaches (env : LayerEnv) (info : JoinedClientInfo) (s : ClientLayer) : Bool × ClientLayer → Prop
  | firstFails : env.shmat info.ziShmid = none →
      Attaches env info s (false, { s with mgLayer := info.layer })
  | shared (zi : Addr) : env.shmat info.ziShmid = some zi → info.ziShmid = info.defZiShmid →
      Attaches env info s (true, { s with
        mgLayer := info.layer
        mgZorderInfo := some zi
        mgDefZorderInfo := some zi
        attached := zi :: s.attached })
  | secondFails (zi : Addr) : env.shmat info.ziShmid = some zi → info.ziShmid ≠ info.defZiShmid →
      env.shmat info.defZiShmid = none →
      Attaches env info s (false, { s with
        mgLayer := info.layer
        mgZorderInfo := some zi
        attached := zi :: s.attached })
  | both (zi default : Addr) : env.shmat info.ziShmid = some zi → info.ziShmid ≠ info.defZiShmid →
      env.shmat info.defZiShmid = some default →
      Attaches env info s (true, { s with
        mgLayer := info.layer
        mgZorderInfo := some zi
        mgDefZorderInfo := some default
        attached := default :: zi :: s.attached })

theorem attachLayer_spec (env : LayerEnv) (info : JoinedClientInfo) (s : ClientLayer) :
    Attaches env info s (attachLayer env info s) := by
  cases first : env.shmat info.ziShmid with
  | none =>
    simp only [attachLayer, ClientLayer.shmat, first]
    exact .firstFails first
  | some zi =>
    by_cases same : info.ziShmid = info.defZiShmid
    · simp only [attachLayer, ClientLayer.shmat, first, if_pos same]
      exact .shared zi first same
    · cases second : env.shmat info.defZiShmid with
      | none =>
        simp only [attachLayer, ClientLayer.shmat, first, if_neg same, second]
        exact .secondFails zi first same second
      | some default =>
        simp only [attachLayer, ClientLayer.shmat, first, if_neg same, second]
        exact .both zi default first same second

/-- `JoinLayer` behind a reply with a layer. -/
theorem onJoined_granted (env : LayerEnv) {info : JoinedClientInfo}
    (granted : info.layer ≠ cfg.invLayerHandle) (s : ClientLayer) : ∃ r, Attaches env info { s with mgClientId := info.cliId } r ∧
      onJoined cfg env info s = if r.1 = false then (cfg.invLayerHandle, r.2)
        else (info.layer, { r.2 with mgTickCounter := env.timerCounter, desktops := r.2.desktops + 1 }) := by
  refine ⟨_, attachLayer_spec env info { s with mgClientId := info.cliId }, ?_⟩
  unfold onJoined
  dsimp only
  rw [if_pos granted]

theorem onJoined_refused {info : JoinedClientInfo} (refused : info.layer = cfg.invLayerHandle)
    (s : ClientLayer) : onJoined cfg env info s = (cfg.invLayerHandle, { s with
      mgClientId := info.cliId
      mgTickCounter := env.timerCounter
      desktops := s.desktops + 1 }) := by
  unfold onJoined
  dsimp only
  rw [if_neg (not_not.mpr refused), if_neg Bool.noConfusion, refused]

/-- Behind the reply no request is sent. -/
theorem onJoined_joins (info : JoinedClientInfo) (s : ClientLayer) :
    (onJoined cfg env info s).2.joins = s.joins := by
  by_cases refused : info.layer = cfg.invLayerHandle
  · rw [onJoined_refused refused]
  · obtain ⟨r, attaches, eq⟩ := onJoined_granted env refused s
    rw [eq]
    cases attaches with
    | firstFails | shared | secondFails | both => rfl

/-- A call for a client that has not joined. -/
theorem join_unjoined {s : ClientLayer} (notServer : cfg.mgIsServer = false) (unjoined : s.mgClientId = 0) :
    args.join cfg env s =
      match env.joinRequest (joinInfo cfg args.layerName args.clientName args.maxNrTopmosts
        args.maxNrNormals) with
      | .exits => none
      | .fails => some (cfg.invLayerHandle, { s with joins := s.joins + 1 })
      | .reply info => some (onJoined cfg env info { s with joins := s.joins + 1 }) := by
  unfold JoinArgs.join joinLayer
  rw [notServer, if_neg Bool.false_ne_true, if_neg (not_not.mpr unjoined)]

theorem join_sends {s later : ClientLayer} {handle : Ghandle} (notServer : cfg.mgIsServer = false)
    (unjoined : s.mgClientId = 0) (returns : args.join cfg env s = some (handle, later)) :
    later.joins = s.joins + 1 := by
  rw [join_unjoined notServer unjoined] at returns
  split at returns
  · cases returns
  · obtain ⟨-, rfl⟩ := Prod.mk.inj (Option.some.inj returns)
    rfl
  · obtain ⟨-, rfl⟩ := Prod.ext_iff.mp (Option.some.inj returns)
    exact onJoined_joins ..

/-- What is the same when the globals and the attached segments are. -/
theorem asBefore_iff {client : UnjoinedClient} {after : ClientLayer} :
    AsBefore cfg client.toClientLayer after ↔ after.mgClientId = 0 ∧ after.mgLayer = client.mgLayer ∧
      after.mgZorderInfo = client.mgZorderInfo ∧ after.mgDefZorderInfo = client.mgDefZorderInfo ∧
      after.attached = client.attached := by
  constructor
  · intro same
    exact ⟨same.clientId.trans client.unjoined, same.layer, same.zorderInfo, same.defZorderInfo,
      same.attached⟩
  · rintro ⟨unjoined, layer, zorderInfo, defZorderInfo, attached⟩
    exact ⟨unjoined.trans client.unjoined.symm, layer, zorderInfo, defZorderInfo, attached,
      fun notServer _ _ _ _ => join_sends notServer unjoined⟩

/-- Nothing has to be undone when all the segments can be attached. -/
theorem undone_of_attached {client : ClientLayer} {info : JoinedClientInfo} {zi : Addr}
    (granted : info.layer ≠ cfg.invLayerHandle) (first : env.shmat info.ziShmid = some zi)
    (second : info.ziShmid ≠ info.defZiShmid → env.shmat info.defZiShmid ≠ none) :
    Undone cfg env client info where
  refused there := absurd there granted
  first _ fails := absurd (first.symm.trans fails) (Option.some_ne_none zi)
  second _ _ := second

/-- **Behind a reply**, the failing exits leave the client as it was exactly when the reply sets
nothing. -/
theorem onJoined_iff (cfg : LayerConfig) (env : LayerEnv) (client : UnjoinedClient)
    (info : JoinedClientInfo) (joins : ℕ) :
    ((onJoined cfg env info { client.toClientLayer with joins := joins }).1 = cfg.invLayerHandle →
      AsBefore cfg client.toClientLayer
        (onJoined cfg env info { client.toClientLayer with joins := joins }).2) ↔
      Undone cfg env client.toClientLayer info := by
  rw [asBefore_iff]
  by_cases refused : info.layer = cfg.invLayerHandle
  · rw [onJoined_refused refused]
    constructor
    · intro same
      exact ⟨fun _ => (same rfl).1, fun granted => absurd refused granted,
        fun granted => absurd refused granted⟩
    · intro undone _
      exact ⟨undone.refused refused, rfl, rfl, rfl, rfl⟩
  · obtain ⟨r, attaches, eq⟩ := onJoined_granted env refused
      { client.toClientLayer with joins := joins }
    rw [eq]
    cases attaches with
    | firstFails first =>
      rw [if_pos rfl]
      constructor
      · intro same
        obtain ⟨unjoined, layer, -⟩ := same rfl
        exact ⟨fun there => absurd there refused, fun _ _ => ⟨unjoined, layer⟩,
          fun _ found => absurd first found⟩
      · intro undone _
        obtain ⟨unjoined, layer⟩ := undone.first refused first
        exact ⟨unjoined, layer, rfl, rfl, rfl⟩
    | shared zi first same =>
      rw [if_neg Bool.noConfusion]
      refine iff_of_true (fun fails => absurd fails refused) ?_
      exact undone_of_attached refused first fun differs => absurd same differs
    | secondFails zi first differs second =>
      -- the segment of the layer stays attached
      rw [if_pos rfl]
      refine iff_of_false (fun same => ?_) fun undone => ?_
      · obtain ⟨-, -, -, -, attached⟩ := same rfl
        exact List.cons_ne_self zi client.attached attached
      · have found : env.shmat info.ziShmid ≠ none := first ▸ Option.some_ne_none zi
        exact undone.second refused found differs second
    | both zi default first differs second =>
      rw [if_neg Bool.noConfusion]
      refine iff_of_true (fun fails => absurd fails refused) ?_
      exact undone_of_attached refused first fun _ => second ▸ Option.some_ne_none default

end Joining

/-- **A failed `JoinLayer`** leaves the client un-joined if and only if the reply can be undone. -/
theorem join_clean_iff (cfg : LayerConfig) (env : LayerEnv) (args : JoinArgs)
    (client : UnjoinedClient) :
    CleanFailure cfg env args client ↔ JoinCondition cfg env args client.toClientLayer := by
  unfold CleanFailure JoinCondition
  cases server : cfg.mgIsServer with
  | true =>
    refine iff_of_true (fun after returns => ?_) nofun
    obtain rfl : client.toClientLayer = after := by
      unfold JoinArgs.join joinLayer at returns
      rw [server, if_pos rfl] at returns
      exact (Prod.mk.inj (Option.some.inj returns)).2
    exact asBefore_iff.mpr ⟨client.unjoined, rfl, rfl, rfl, rfl⟩
  | false =>
    rw [join_unjoined server client.unjoined]
    cases answer : env.joinRequest (joinInfo cfg args.layerName args.clientName args.maxNrTopmosts
        args.maxNrNormals) with
    | exits => exact iff_of_true nofun nofun
    | fails =>
      refine iff_of_true (fun after returns => ?_) nofun
      obtain ⟨-, rfl⟩ := Prod.mk.inj (Option.some.inj returns)
      exact asBefore_iff.mpr ⟨client.unjoined, rfl, rfl, rfl, rfl⟩
    | reply info =>
      have behind := onJoined_iff cfg env client info (client.joins + 1)
      constructor
      · rintro clean - _ same
        obtain rfl := Answer.reply.inj same
        exact behind.mp fun fails => clean _ (congrArg some (Prod.ext fails rfl))
      · intro undone after returns
        obtain ⟨fails, rfl⟩ := Prod.ext_iff.mp (Option.some.inj returns)
        exact behind.mpr (undone rfl info rfl) fails

/-- A client that was just started. -/
def freshClient : UnjoinedClient where
  toClientLayer := ⟨0, 0, none, none, 0, [], [], 0, 0⟩
  unjoined := rfl

/-- A join without names, with the default numbers of nodes. -/
def freshArgs : JoinArgs := ⟨none, none, 0, 0⟩

/-- **A failed join that stays**: the segment 6 cannot be attached, and the client has an id and a
layer; the next call asks for the layer it is in. -/
theorem failed_join_stays :
    (∃ after, freshArgs.join tinyLayers tinyEnv freshClient.toClientLayer = some (0, after) ∧
      after.mgClientId = 3 ∧ after.mgLayer = 1 ∧
      ∀ again : JoinArgs, again.join tinyLayers tinyEnv after = some (1, after)) ∧
    ¬ CleanFailure tinyLayers tinyEnv freshArgs freshClient := by
  refine ⟨⟨_, rfl, rfl, rfl, fun _ => rfl⟩, fun clean => ?_⟩
  have unjoined := (clean _ rfl).clientId
  revert unjoined
  decide

end Aple.ClientServer
