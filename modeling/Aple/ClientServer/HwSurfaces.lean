/-
**The hardware surfaces of a client.**

* `HwWorld` — the blocks `req_hw_surface` keeps its copies in, and the buckets the client holds;
  `reqHwSurface` — the handler, and `releaseHwSurface` its release procedure.
* `HwRequest`, `hwSystem` — a request with what the allocators return: blocks and buckets that are
  not in use.
* `Recorded` — what is promised of the records of the client.
* `Filed` — the invariant: the records' blocks hold the buckets, in order.
* **`hw_records_match`** — the records match the buckets as long as every request allocates one and
  is recorded, and no longer.
-/

import Aple.ClientServer.ResList

namespace Aple.ClientServer.HwSurfaces

open Aple.Lib

/-! ### The handler -/

/-- `REQ_HWSURFACE`. -/
structure ReqHwSurface where
  w : BitVec 32
  h : BitVec 32
  pitch : BitVec 32
  offset : BitVec 32
  bucket : Word
deriving DecidableEq, Repr

/-- `REP_HWSURFACE`. -/
structure RepHwSurface where
  pitch : BitVec 32
  offset : BitVec 32
  bucket : Word
deriving DecidableEq, Repr

/-- The blocks with their contents, and the buckets the client got and did not free. -/
structure HwWorld where
  blocks : Word → Option ReqHwSurface
  held : List Word

/-- The function passed as `release_proc`. -/
inductive HwProc
  | releaseHwSurface
deriving DecidableEq, Repr

/-- `release_hw_surface` frees the block, and does not call `GAL_RequestHWSurface`. -/
def callHwProc (proc : HwProc) (res : Word) (world : HwWorld) : HwWorld :=
  match proc with
  | .releaseHwSurface => { world with blocks := Function.update world.blocks res none }

abbrev HwServer := ResState HwProc HwWorld

/-- `GAL_RequestHWSurface`: a null bucket asks for the one in `reply`, any other one is freed. -/
def galRequestHwSurface (request : ReqHwSurface) (reply : RepHwSurface) (world : HwWorld) : HwWorld :=
  if request.bucket = 0 then { world with held := reply.bucket :: world.held }
  else { world with held := world.held.erase request.bucket }

/-- `add_global_res`, where `malloc` may fail. -/
def addRecord (cli : ℕ) (node : Option Addr) (key res : Word) (s : HwServer) : Option HwServer :=
  match node with
  | none => some s
  | some addr => addGlobalRes cli addr key res (some .releaseHwSurface) s

/-- `req_hw_surface`; `key` is the address of this function, `allocated` and `node` are what `malloc`
returns to it and to `add_global_res`. -/
def reqHwSurface (key : Word) (fuel cli : ℕ) (request : ReqHwSurface) (reply : RepHwSurface)
    (allocated : Option Word) (node : Option Addr) (s : HwServer) : Option (RepHwSurface × HwServer) :=
  let s := { s with world := galRequestHwSurface request reply s.world }
  if request.bucket = 0 then
    match allocated with
    | none => some (reply, s)
    | some block =>
      let copy : ReqHwSurface := ⟨request.w, request.h, reply.pitch, reply.offset, reply.bucket⟩
      let s := { s with world := { s.world with
        blocks := Function.update s.world.blocks block (some copy) } }
      (addRecord cli node key block s).map fun s => (reply, s)
  else (delGlobalRes callHwProc fuel cli key request.bucket s).map fun s => (reply, s)

/-! ### Requests -/

/-- A request of the client, with what it is answered and what `malloc` returns. -/
structure HwRequest where
  fuel : ℕ
  request : ReqHwSurface
  reply : RepHwSurface
  allocated : Option Word
  node : Option Addr

/-- An address where nothing is: no block, and no bucket the client holds. -/
def HwWorld.Unused (world : HwWorld) (addr : Word) : Prop :=
  addr ≠ 0 ∧ world.blocks addr = none ∧ addr ∉ world.held

def HwWorld.Has (world : HwWorld) (bucket : Word) : Prop := bucket ∈ world.held

/-- A bucket that is allocated is a new one, and so is a block; a bucket that is freed is held. -/
def Lawful (world : HwWorld) (event : HwRequest) : Prop :=
  if event.request.bucket = 0 then
    world.Unused event.reply.bucket ∧
      ∀ block ∈ event.allocated, world.Unused block ∧ block ≠ event.reply.bucket
  else world.Has event.request.bucket

instance (world : HwWorld) (addr : Word) : Decidable (world.Unused addr) :=
  inferInstanceAs (Decidable (_ ∧ _))

instance (world : HwWorld) (bucket : Word) : Decidable (world.Has bucket) :=
  inferInstanceAs (Decidable (_ ∈ _))

instance (world : HwWorld) (event : HwRequest) : Decidable (Lawful world event) :=
  if asks : event.request.bucket = 0 then
    -- over the block that is allocated, not over all the words
    @decidable_of_iff _ _ (by rw [Lawful, if_pos asks])
      (@instDecidableAnd (world.Unused event.reply.bucket) _ _ (Option.decidableForallMem ..))
  else decidable_of_iff (world.Has event.request.bucket) (by rw [Lawful, if_neg asks])

/-- The handler of a request. -/
def HwRequest.handle (key : Word) (cli : ℕ) (s : HwServer) (event : HwRequest) : Option HwServer :=
  (reqHwSurface key event.fuel cli event.request event.reply event.allocated event.node s).map Prod.snd

/-- Every sequence of requests of client `cli`. -/
def hwSystem (key : Word) (cli : ℕ) : System HwServer HwRequest where
  init s := s = ResState.initial ⟨fun _ => none, []⟩
  step s event after := Lawful s.world event ∧ event.handle key cli s = some after

/-! ### Records and buckets -/

/-- The records under the key. -/
def hwRecords (key : Word) (entries : List (Entry HwProc)) : List (Entry HwProc) :=
  entries.filter fun entry => entry.key == key

/-- **The records match the buckets**: there are as many, and each record's copy has the bucket of
one that is held. -/
structure Recorded (key : Word) (world : HwWorld) (entries : List (Entry HwProc)) : Prop where
  number : (hwRecords key entries).length = world.held.length
  buckets : ∀ entry ∈ hwRecords key entries, ∃ copy,
    world.blocks entry.res = some copy ∧ copy.bucket ∈ world.held

/-- The condition on a request: it allocates a bucket, and both its calls of `malloc` succeed. -/
def Records (event : HwRequest) : Prop :=
  event.request.bucket = 0 ∧ event.allocated ≠ none ∧ event.node ≠ none

/-- The records are the ones of the buckets, the newest first, and no bucket is a block. -/
structure Filed (key : Word) (world : HwWorld) (entries : List (Entry HwProc)) : Prop where
  keys : ∀ entry ∈ entries, entry.key = key
  copies : entries.map (fun entry => (world.blocks entry.res).map ReqHwSurface.bucket) =
    world.held.map some
  apart : ∀ bucket ∈ world.held, world.blocks bucket = none

/-- **Matching**, of the list of a client. -/
def Matching (key : Word) (cli : ℕ) (s : HwServer) : Prop :=
  ∃ entries, Listed s cli entries ∧ Recorded key s.world entries

namespace Filed

variable {key : Word} {world : HwWorld} {entries : List (Entry HwProc)}

theorem hwRecords_eq (filed : Filed key world entries) : hwRecords key entries = entries :=
  List.filter_eq_self.mpr fun entry member => beq_iff_eq.mpr (filed.keys entry member)

theorem number (filed : Filed key world entries) : entries.length = world.held.length := by
  have lengths := congrArg List.length filed.copies
  rwa [List.length_map, List.length_map] at lengths

/-- The copy of a record has a bucket that is held. -/
theorem copy (filed : Filed key world entries) {entry : Entry HwProc} (member : entry ∈ entries) :
    ∃ copy, world.blocks entry.res = some copy ∧ copy.bucket ∈ world.held := by
  have mapped : (world.blocks entry.res).map ReqHwSurface.bucket ∈ world.held.map some := by
    rw [← filed.copies]
    exact List.mem_map_of_mem (f := fun entry : Entry HwProc =>
      (world.blocks entry.res).map ReqHwSurface.bucket) member
  obtain ⟨bucket, held, same⟩ := List.mem_map.mp mapped
  obtain ⟨copy, found, rfl⟩ := Option.map_eq_some_iff.mp same.symm
  exact ⟨copy, found, held⟩

theorem recorded (filed : Filed key world entries) : Recorded key world entries := by
  constructor
  · rw [filed.hwRecords_eq, filed.number]
  · rw [filed.hwRecords_eq]
    exact fun entry member => filed.copy member

/-- A new bucket with its record. -/
theorem record (filed : Filed key world entries) (entry : Entry HwProc) (copy : ReqHwSurface)
    (isKey : entry.key = key) (unused : world.Unused copy.bucket) (free : world.Unused entry.res)
    (differs : entry.res ≠ copy.bucket) :
    Filed key ⟨Function.update world.blocks entry.res (some copy), copy.bucket :: world.held⟩
      (entry :: entries) where
  keys other member := (List.mem_cons.mp member).elim (· ▸ isKey) (filed.keys other)
  copies := by
    rw [List.map_cons, List.map_cons, ← filed.copies]
    congr 1
    · show (Function.update world.blocks entry.res (some copy) entry.res).map _ = _
      rw [Function.update_self]
      rfl
    · refine List.map_congr_left fun other member => ?_
      obtain ⟨old, found, -⟩ := filed.copy member
      have apart : other.res ≠ entry.res := by
        intro same
        rw [same, free.2.1] at found
        cases found
      simp only [Function.update_of_ne apart]
  apart bucket member := by
    show Function.update world.blocks entry.res (some copy) bucket = none
    rcases List.mem_cons.mp member with rfl | old
    · rw [Function.update_of_ne differs.symm]
      exact unused.2.1
    · have elsewhere : bucket ≠ entry.res := fun same => free.2.2 (same ▸ old)
      rw [Function.update_of_ne elsewhere]
      exact filed.apart bucket old

/-- A bucket is in no record's place. -/
theorem misses (filed : Filed key world entries) {bucket : Word} (held : bucket ∈ world.held) :
    ∀ entry ∈ entries, entry.hit key bucket = false := by
  intro entry member
  obtain ⟨copy, found, -⟩ := filed.copy member
  have differs : entry.res ≠ bucket := by
    intro same
    rw [same, filed.apart bucket held] at found
    cases found
  simp [Entry.hit, differs]

end Filed

/-! ### One request -/

section Request

variable {key : Word} {cli : ℕ} {s after : HwServer} {event : HwRequest}
  {lists : ℕ → List (Entry HwProc)} {nodes : ℕ → List Addr}

/-- What a request leaves: one record more for a bucket more; or the same records for fewer buckets
or more. -/
inductive Ends (key : Word) (cli : ℕ) (s : HwServer) (event : HwRequest)
    (lists : ℕ → List (Entry HwProc)) (after : HwServer) : Prop
  | records (meets : Records event) (lists' : ℕ → List (Entry HwProc)) (nodes' : ℕ → List Addr)
      (holds : Holds (fun _ => True) after lists' nodes') (filed : Filed key after.world (lists' cli))
  | differs (fails : ¬ Records event) (listed : Listed after cli (lists cli))
      (held : after.world.held.length ≠ s.world.held.length)

/-- A world that changes leaves the lists. -/
theorem holds_world (holds : Holds (fun _ => True) s lists nodes) (world : HwWorld) :
    Holds (fun _ => True) { s with world := world } lists nodes :=
  ⟨holds.linked, holds.records, holds.apart⟩

/-- **One request.** -/
theorem handle_ends (holds : Holds (fun _ => True) s lists nodes)
    (filed : Filed key s.world (lists cli)) (lawful : Lawful s.world event)
    (runs : event.handle key cli s = some after) : Ends key cli s event lists after := by
  obtain ⟨fuel, request, reply, allocated, node⟩ := event
  unfold HwRequest.handle reqHwSurface at runs
  unfold Lawful at lawful
  dsimp only at runs lawful
  by_cases asks : request.bucket = 0
  · rw [if_pos asks] at runs lawful
    obtain ⟨unused, blocks⟩ := lawful
    have more : (galRequestHwSurface request reply s.world).held = reply.bucket :: s.world.held := by
      rw [galRequestHwSurface, if_pos asks]
    have longer : (galRequestHwSurface request reply s.world).held.length ≠ s.world.held.length := by
      rw [more]
      exact Nat.succ_ne_self _
    cases allocated with
    | none =>
      obtain rfl := Option.some.inj runs
      exact .differs (fun meets => meets.2.1 rfl) ((holds_world holds _).listed cli trivial) longer
    | some block =>
      cases node with
      | none =>
        obtain rfl := Option.some.inj runs
        exact .differs (fun meets => meets.2.2 rfl) ((holds_world holds _).listed cli trivial) longer
      | some addr =>
        obtain ⟨free, differs⟩ := blocks block rfl
        dsimp only [addRecord] at runs
        rw [Option.map_map] at runs
        obtain ⟨server, adds, rfl⟩ := Option.map_eq_some_iff.mp runs
        obtain ⟨holds', effect⟩ := addGlobalRes_inv (holds_world holds _) trivial adds
        refine .records ⟨asks, nofun, nofun⟩ _ _ holds' ?_
        show Filed key server.world _
        rw [effect.world, Function.update_self]
        have same : (galRequestHwSurface request reply s.world).blocks = s.world.blocks := by
          rw [galRequestHwSurface, if_pos asks]
        dsimp only
        rw [more, same]
        exact filed.record ⟨key, block, some .releaseHwSurface, s.added.length⟩
          ⟨request.w, request.h, reply.pitch, reply.offset, reply.bucket⟩ rfl unused free differs
  · rw [if_neg asks] at runs lawful
    have fewer : (galRequestHwSurface request reply s.world).held =
        s.world.held.erase request.bucket := by
      rw [galRequestHwSurface, if_neg asks]
    rw [Option.map_map] at runs
    obtain ⟨server, removes, rfl⟩ := Option.map_eq_some_iff.mp runs
    obtain ⟨after', newNodes, yields, holds', dropped⟩ :=
      delGlobalRes_spec callHwProc cli (holds_world holds _) trivial key request.bucket
    obtain rfl := yields.only fuel server removes
    -- the records are under the addresses of their blocks, so none of them is hit
    have held : request.bucket ∈ s.world.held := lawful
    have misses := filed.misses held
    have untouched : (lists cli).eraseP (Entry.hit key request.bucket) = lists cli :=
      List.eraseP_of_forall_not fun entry member => by simp [misses entry member]
    have unhit : (lists cli).find? (Entry.hit key request.bucket) = none :=
      List.find?_eq_none.mpr fun entry member => by simp [misses entry member]
    have mine := holds'.listed cli trivial
    rw [Function.update_self, untouched] at mine
    refine .differs (fun meets => asks meets.1) mine ?_
    show server.world.held.length ≠ _
    rw [dropped.world, unhit]
    show (galRequestHwSurface request reply s.world).held.length ≠ _
    rw [fewer, List.length_erase_of_mem held]
    have some_held : 0 < s.world.held.length := List.length_pos_of_mem held
    omega

end Request

/-! ### Every run -/

/-- Lists and world together. -/
def HwInv (key : Word) (cli : ℕ) (s : HwServer) : Prop :=
  ∃ lists nodes, Holds (fun _ => True) s lists nodes ∧ Filed key s.world (lists cli)

section Runs

variable {key : Word} {cli : ℕ} {s after : HwServer} {event : HwRequest}

theorem hwInv_initial (key : Word) (cli : ℕ) :
    HwInv key cli (ResState.initial ⟨fun _ => none, []⟩) := by
  refine ⟨fun _ => [], fun _ => [], ⟨fun _ _ => rfl, fun _ _ => rfl, ?_⟩, ⟨nofun, rfl, nofun⟩⟩
  intro _ _ _ _ _ addr member
  cases member

theorem HwInv.matching (inv : HwInv key cli s) : Matching key cli s := by
  obtain ⟨lists, nodes, holds, filed⟩ := inv
  exact ⟨lists cli, holds.listed cli trivial, filed.recorded⟩

/-- The list of the client decides about the match. -/
theorem not_matching {entries : List (Entry HwProc)} (listed : Listed s cli entries)
    (differs : (hwRecords key entries).length ≠ s.world.held.length) : ¬ Matching key cli s := by
  rintro ⟨entries', listed', recorded⟩
  obtain rfl := listed'.unique listed
  exact differs recorded.number

/-- **One request** keeps the invariant if it meets the condition, and ends the match if not. -/
theorem hwInv_step (inv : HwInv key cli s) (lawful : Lawful s.world event)
    (runs : event.handle key cli s = some after) :
    Records event ∧ HwInv key cli after ∨ ¬ Records event ∧ ¬ Matching key cli after := by
  obtain ⟨lists, nodes, holds, filed⟩ := inv
  cases handle_ends holds filed lawful runs with
  | records meets lists' nodes' holds' filed' => exact .inl ⟨meets, lists', nodes', holds', filed'⟩
  | differs fails listed held =>
    refine .inr ⟨fails, not_matching listed ?_⟩
    rw [filed.hwRecords_eq, filed.number]
    exact held.symm

/-- **The records match the buckets as long as every request records a bucket.** The condition is
exact: in a state reached so, a request keeps the match if and only if it meets the condition. -/
theorem hw_records_match (key : Word) (cli : ℕ) {s : HwServer}
    (reached : (hwSystem key cli).ReachableBy (fun _ event => Records event) s) :
    Matching key cli s ∧ ∀ event after, (hwSystem key cli).step s event after →
      (Matching key cli after ↔ Records event) := by
  have inv : HwInv key cli s := by
    refine reached.invariant (HwInv key cli) ?_ ?_
    · rintro _ rfl
      exact hwInv_initial key cli
    · rintro s event after - inv meets ⟨lawful, runs⟩
      exact (hwInv_step inv lawful runs).elim And.right fun ended => absurd meets ended.1
  refine ⟨inv.matching, fun event after ⟨lawful, runs⟩ => ?_⟩
  rcases hwInv_step inv lawful runs with ⟨meets, inv'⟩ | ⟨fails, ended⟩
  · exact iff_of_true inv'.matching meets
  · exact iff_of_false ended fails

end Runs

/-! ### A bucket that is freed -/

/-- A request for a bucket, answered with this one, and the request that frees it. -/
def asking (bucket block : Word) (node : Addr) : HwRequest :=
  ⟨0, ⟨640, 480, 0, 0, 0⟩, ⟨1280, 0, bucket⟩, some block, some node⟩

def freeing (fuel : ℕ) (bucket : Word) : HwRequest :=
  ⟨fuel, ⟨640, 480, 0, 0, bucket⟩, ⟨0, 0, 0⟩, none, none⟩

theorem hw_records_match_two : ∃ s, Matching 1 0 s ∧ s.world.held = [48, 32] := by
  have start : (hwSystem 1 0).ReachableBy (fun _ event => Records event)
      (ResState.initial ⟨fun _ => none, []⟩) := .start rfl
  have first := start.by_event (asking 32 64 16) ⟨rfl, nofun, nofun⟩ ⟨by decide, rfl⟩
  have second := first.by_event (asking 48 96 24) ⟨rfl, nofun, nofun⟩ ⟨by decide, rfl⟩
  exact ⟨_, (hw_records_match 1 0 second).1, rfl⟩

/-- **The record stays** when its bucket is freed: the client holds no bucket, and has one record. -/
theorem hw_record_stays : ∃ s, (hwSystem 1 0).Reachable s ∧ s.world.held = [] ∧
    (∃ entry, Listed s 0 [entry] ∧ entry.key = 1) ∧ ¬ Matching 1 0 s := by
  have start : (hwSystem 1 0).Reachable (ResState.initial ⟨fun _ => none, []⟩) := .start rfl
  have first := start.by_event (asking 32 64 16) trivial ⟨by decide, rfl⟩
  have second := first.by_event (freeing 2 32) trivial ⟨by decide, rfl⟩
  refine ⟨_, second, rfl, ⟨⟨1, 64, some .releaseHwSurface, 0⟩, ?listed, rfl⟩,
    not_matching ?listed (by decide)⟩
  exact ⟨[16], ⟨rfl, rfl, rfl⟩, rfl⟩

end Aple.ClientServer.HwSurfaces
