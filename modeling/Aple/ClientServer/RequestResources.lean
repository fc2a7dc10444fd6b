/-
**The buffer and the descriptor of a request.**

* `Outcomes` — what each operation gives to one call of `__mg_handle_request`; `Resources` — the
  blocks and descriptors it obtained, and what became of them.
* `Resources.GivenUp` — every block is freed once, and every descriptor passed on or closed once.
* `runRequest_resources` — a request that finds its handler gives up what it holds.
* **`request_resources_iff`** — a request gives up what it obtained exactly when it obtained nothing,
  or its message is received and it finds a handler.
-/

import Aple.ClientServer.Framing

namespace Aple.ClientServer

open Aple.Lib

variable {H : Type}

/-! ### One request with its operations -/

/-- What the operations of one request give: the two reads, `malloc`, `sock_recvmsg` and the
handler. -/
structure Outcomes where
  firstRead : Code × List Byte
  secondRead : Code × List Byte
  block : Option ℕ
  received : Code × Option Fd
  handled : Code

/-- The blocks from `malloc` and those that were freed; the descriptors that arrived, and those that
were passed to a handler of version 1 and that were closed. -/
structure Resources where
  reads : ℕ
  blocks : List ℕ
  freed : List ℕ
  descriptors : List Fd
  passed : List Fd
  closed : List Fd
deriving DecidableEq, Repr

def Resources.none : Resources := ⟨0, [], [], [], [], []⟩

/-- A descriptor that is not negative. -/
def descriptor (fd : Fd) : List Fd := if fd ≥ 0 then [fd] else []

/-- The server over these outcomes, with the record of what it holds. -/
def Outcomes.serverOps (o : Outcomes) : ServerOps Resources H where
  sockRead _ log := (if log.reads = 0 then o.firstRead else o.secondRead,
    { log with reads := log.reads + 1 })
  malloc _ log := (o.block, { log with blocks := o.block.toList ++ log.blocks })
  sockRecvmsg _ _ _ log := (o.received,
    { log with descriptors := descriptor (o.received.2.getD (-1)) ++ log.descriptors })
  callV1 _ _ _ fd log := (o.handled, { log with passed := descriptor fd ++ log.passed })
  callV0 _ _ _ log := (o.handled, log)
  close fd log := { log with closed := fd :: log.closed }
  free addr log := { log with freed := addr :: log.freed }
  checkDirtyZnode log := log
  mgRemoveClient log := log

/-- **Neither leaked nor given up twice.** -/
structure Resources.GivenUp (log : Resources) : Prop where
  blocks : log.freed.Perm log.blocks
  descriptors : (log.passed ++ log.closed).Perm log.descriptors

instance (log : Resources) : Decidable log.GivenUp :=
  decidable_of_iff (log.freed.Perm log.blocks ∧ (log.passed ++ log.closed).Perm log.descriptors)
    ⟨fun both => ⟨both.1, both.2⟩, fun givenUp => ⟨givenUp.blocks, givenUp.descriptors⟩⟩

/-! ### The condition -/

/-- The code tests for two errors only. -/
def Code.goesOn (n : Code) : Prop := n ≠ .io ∧ n ≠ .closed

instance (n : Code) : Decidable n.goesOn := inferInstanceAs (Decidable (_ ∧ _))

/-- `len_data`, from the bytes of the two lengths. -/
def Outcomes.lenData (o : Outcomes) (sizeT : ℕ) : BitVec (8 * sizeT) :=
  sizeWord sizeT o.firstRead.2 + sizeWord sizeT o.secondRead.2

/-- The lengths are read and there is a buffer for them: the message is received. -/
def Outcomes.Receives (o : Outcomes) (sizeT : ℕ) : Prop :=
  o.firstRead.1.goesOn ∧ o.secondRead.1.goesOn ∧
    (requestDataBuffSize < (o.lenData sizeT).toNat → o.block ≠ .none)

/-- The request obtains a block, or a descriptor. -/
def Outcomes.Obtains (o : Outcomes) (sizeT : ℕ) : Prop :=
  requestDataBuffSize < (o.lenData sizeT).toNat ∨ o.received.2.getD (-1) ≥ 0

/-- The receive fails, or the request has no handler. -/
def Outcomes.Rejects (o : Outcomes) (registry : Registry H) (reqId : BitVec 32) : Prop :=
  ¬ o.received.1.goesOn ∨ registry.lookup (reqId &&& ~~~registry.reqmaskFlags) = .none

/-! ### From the receive on -/

/-- The block a buffer is in. -/
def Buff.blocks : Buff → List ℕ
  | .requestDataBuff => []
  | .block addr => [addr]

/-- What is held behind the receive. -/
def Resources.holding (reads : ℕ) (buff : Buff) (fd : Fd) : Resources :=
  ⟨reads, buff.blocks, [], descriptor fd, [], []⟩

section Receive

variable (o : Outcomes) (registry : Registry H) (reqId : BitVec 32) (buff : Buff)

/-- Nothing is given up of what is held at an early exit. -/
theorem holding_givenUp_iff (reads : ℕ) (fd : Fd) :
    (Resources.holding reads buff fd).GivenUp ↔ ¬ (buff ≠ .requestDataBuff ∨ fd ≥ 0) := by
  constructor
  · rintro ⟨blocks, descriptors⟩ (allocated | arrived)
    · cases buff with
      | requestDataBuff => exact allocated rfl
      | block addr => exact absurd blocks.length_eq (by simp [Resources.holding, Buff.blocks])
    · exact absurd descriptors.length_eq (by simp [Resources.holding, descriptor, arrived])
  · intro nothing
    obtain ⟨static, absent⟩ := not_or.mp nothing
    obtain rfl := not_ne_iff.mp static
    exact ⟨.refl _, by simp [Resources.holding, descriptor, absent]⟩

/-- **The handler** gets the descriptor, or it is closed. -/
theorem callHandler_resources (handler : H) (version : ℤ) (lenData reads : ℕ) (fd : Fd) :
    ∃ passed closed, callHandler o.serverOps handler version buff lenData fd (.holding reads buff fd) =
      (o.handled, ⟨reads, buff.blocks, [], descriptor fd, passed, closed⟩) ∧
        passed ++ closed = descriptor fd := by
  by_cases first : version = 1
  · exact ⟨descriptor fd, [], by simp [callHandler, first, Outcomes.serverOps, Resources.holding],
      List.append_nil _⟩
  · refine ⟨[], descriptor fd, ?_, List.nil_append _⟩
    by_cases arrived : fd ≥ 0 <;>
      simp [callHandler, first, Outcomes.serverOps, Resources.holding, descriptor, arrived]

/-- The block is freed. -/
theorem freeBuff_resources (log : Resources) :
    freeBuff (o.serverOps : ServerOps Resources H) buff log =
      { log with freed := buff.blocks ++ log.freed } := by
  cases buff <;> rfl

/-- **A request with its handler** gives up what it holds; one without gives up nothing. -/
theorem runRequest_resources (lenData reads : ℕ) (fd : Fd) :
    (runRequest o.serverOps registry reqId buff lenData fd (.holding reads buff fd)).2.GivenUp ↔
      ¬ (registry.lookup (reqId &&& ~~~registry.reqmaskFlags) = .none ∧
        (buff ≠ .requestDataBuff ∨ fd ≥ 0)) := by
  unfold runRequest
  dsimp only
  cases found : registry.lookup (reqId &&& ~~~registry.reqmaskFlags) with
  | none =>
    dsimp only
    simp only [holding_givenUp_iff, true_and]
  | some entry =>
    obtain ⟨handler, version⟩ := entry
    obtain ⟨passed, closed, called, whole⟩ :=
      callHandler_resources o buff handler version lenData reads fd
    refine iff_of_true ?_ fun early => by cases early.1
    dsimp only
    rw [called, freeBuff_resources]
    have givenUp : (⟨reads, buff.blocks, buff.blocks ++ [], descriptor fd, passed, closed⟩ :
        Resources).GivenUp := by
      refine ⟨?_, ?_⟩
      · rw [List.append_nil]
      · rw [whole]
    dsimp only
    split
    · exact givenUp
    · split <;> exact givenUp

/-- A receive that does not fail is followed by the request. -/
theorem receiveRequest_goesOn {σ : Type} {ops : ServerOps σ H} {code : Code} {fd : Option Fd}
    {reqDataLen exDataLen lenData : ℕ} {s s' : σ}
    (receives : ops.sockRecvmsg buff reqDataLen exDataLen s = ((code, fd), s'))
    (stays : code.goesOn) :
    receiveRequest ops registry reqId buff reqDataLen exDataLen lenData s =
      runRequest ops registry reqId buff lenData (fd.getD (-1)) s' := by
  rw [receiveRequest, receives]
  cases code with
  | io => exact absurd rfl stays.1
  | closed => exact absurd rfl stays.2
  | invarg | other n => rfl

/-- One that fails is the end. -/
theorem receiveRequest_fails {σ : Type} {ops : ServerOps σ H} {code : Code} {fd : Option Fd}
    {reqDataLen exDataLen lenData : ℕ} {s s' : σ}
    (receives : ops.sockRecvmsg buff reqDataLen exDataLen s = ((code, fd), s'))
    (fails : ¬ code.goesOn) (removes : ∀ s, ops.mgRemoveClient s = s) :
    (receiveRequest ops registry reqId buff reqDataLen exDataLen lenData s).2 = s' := by
  rw [receiveRequest, receives]
  cases code with
  | io => rfl
  | closed => exact removes s'
  | invarg | other n => exact absurd ⟨nofun, nofun⟩ fails

/-- **From the receive on.** -/
theorem receiveRequest_resources (reqDataLen exDataLen lenData reads : ℕ) :
    (receiveRequest o.serverOps registry reqId buff reqDataLen exDataLen lenData
        ⟨reads, buff.blocks, [], [], [], []⟩).2.GivenUp ↔
      ¬ (o.Rejects registry reqId ∧ (buff ≠ .requestDataBuff ∨ o.received.2.getD (-1) ≥ 0)) := by
  have receives : (o.serverOps : ServerOps Resources H).sockRecvmsg buff reqDataLen exDataLen
      ⟨reads, buff.blocks, [], [], [], []⟩ =
        ((o.received.1, o.received.2), .holding reads buff (o.received.2.getD (-1))) := by
    simp [Outcomes.serverOps, Resources.holding]
  unfold Outcomes.Rejects
  by_cases stays : o.received.1.goesOn
  · rw [receiveRequest_goesOn registry reqId buff receives stays, runRequest_resources]
    simp only [stays, not_true_eq_false, false_or]
  · rw [receiveRequest_fails registry reqId buff receives stays fun _ => rfl, holding_givenUp_iff]
    simp only [stays, not_false_eq_true, true_or, true_and]

end Receive

/-! ### The request -/

/-- The paths of a request to its receive. -/
inductive RequestPath {σ : Type} (ops : ServerOps σ H) (registry : Registry H) (sizeT : ℕ)
    (reqId : BitVec 32) (s : σ) : Code × σ → Prop
  | unread {code bytes s₁ result} (first : ops.sockRead sizeT s = ((code, bytes), s₁))
      (fails : ¬ code.goesOn) (ends : result.2 = s₁ ∨ result.2 = ops.mgRemoveClient s₁) :
      RequestPath ops registry sizeT reqId s result
  | halfRead {code bytes s₁ code' bytes' s₂ result}
      (first : ops.sockRead sizeT s = ((code, bytes), s₁)) (stays : code.goesOn)
      (second : ops.sockRead sizeT s₁ = ((code', bytes'), s₂)) (fails : ¬ code'.goesOn)
      (ends : result.2 = s₂ ∨ result.2 = ops.mgRemoveClient s₂) :
      RequestPath ops registry sizeT reqId s result
  | unallocated {code bytes s₁ code' bytes' s₂ s₃}
      (first : ops.sockRead sizeT s = ((code, bytes), s₁)) (stays : code.goesOn)
      (second : ops.sockRead sizeT s₁ = ((code', bytes'), s₂)) (stays' : code'.goesOn)
      (large : requestDataBuffSize < (sizeWord sizeT bytes + sizeWord sizeT bytes').toNat)
      (fails : ops.malloc (sizeWord sizeT bytes + sizeWord sizeT bytes').toNat s₂ = (none, s₃)) :
      RequestPath ops registry sizeT reqId s (.invarg, s₃)
  | static {code bytes s₁ code' bytes' s₂}
      (first : ops.sockRead sizeT s = ((code, bytes), s₁)) (stays : code.goesOn)
      (second : ops.sockRead sizeT s₁ = ((code', bytes'), s₂)) (stays' : code'.goesOn)
      (small : (sizeWord sizeT bytes + sizeWord sizeT bytes').toNat ≤ requestDataBuffSize) :
      RequestPath ops registry sizeT reqId s (receiveRequest ops registry reqId .requestDataBuff
        (sizeWord sizeT bytes).toNat (sizeWord sizeT bytes').toNat
        (sizeWord sizeT bytes + sizeWord sizeT bytes').toNat s₂)
  | allocated {code bytes s₁ code' bytes' s₂ addr s₃}
      (first : ops.sockRead sizeT s = ((code, bytes), s₁)) (stays : code.goesOn)
      (second : ops.sockRead sizeT s₁ = ((code', bytes'), s₂)) (stays' : code'.goesOn)
      (large : requestDataBuffSize < (sizeWord sizeT bytes + sizeWord sizeT bytes').toNat)
      (returns : ops.malloc (sizeWord sizeT bytes + sizeWord sizeT bytes').toNat s₂ =
        (some addr, s₃)) :
      RequestPath ops registry sizeT reqId s (receiveRequest ops registry reqId (.block addr)
        (sizeWord sizeT bytes).toNat (sizeWord sizeT bytes').toNat
        (sizeWord sizeT bytes + sizeWord sizeT bytes').toNat s₃)

/-- **Every request** takes one of them. -/
theorem mgHandleRequest_path {σ : Type} (ops : ServerOps σ H) (registry : Registry H) (sizeT : ℕ)
    (reqId : BitVec 32) (s : σ) :
    RequestPath ops registry sizeT reqId s (mgHandleRequest ops registry sizeT reqId s) := by
  unfold mgHandleRequest
  split
  · rename_i first
    exact .unread first (by decide) (.inl rfl)
  · rename_i first
    exact .unread first (by decide) (.inr rfl)
  rename_i code bytes s₁ notIo notClosed first
  have stays : code.goesOn := ⟨notIo, notClosed⟩
  split
  · rename_i second
    exact .halfRead first stays second (by decide) (.inl rfl)
  · rename_i second
    exact .halfRead first stays second (by decide) (.inr rfl)
  rename_i code' bytes' s₂ notIo' notClosed' second
  have stays' : code'.goesOn := ⟨notIo', notClosed'⟩
  dsimp only
  split
  · rename_i small
    exact .static first stays second stays' small
  rename_i large
  split
  · rename_i fails
    exact .unallocated first stays second stays' (Nat.not_le.mp large) fails
  · rename_i returns
    exact .allocated first stays second stays' (Nat.not_le.mp large) returns

section Reads

variable {o : Outcomes} {sizeT : ℕ} {code : Code} {bytes : List Byte} {log : Resources}

theorem firstRead_inv
    (first : (o.serverOps : ServerOps Resources H).sockRead sizeT .none = ((code, bytes), log)) :
    o.firstRead = (code, bytes) ∧ log = ⟨1, [], [], [], [], []⟩ :=
  ⟨congrArg Prod.fst first, (congrArg Prod.snd first).symm⟩

theorem secondRead_inv (second : (o.serverOps : ServerOps Resources H).sockRead sizeT
    ⟨1, [], [], [], [], []⟩ = ((code, bytes), log)) :
    o.secondRead = (code, bytes) ∧ log = ⟨2, [], [], [], [], []⟩ :=
  ⟨congrArg Prod.fst second, (congrArg Prod.snd second).symm⟩

end Reads

/-- **The resources of a request.** For every id, every two lengths and every outcome of each
operation, a request frees the block it obtained once and passes on or closes the descriptor it
obtained once, exactly when it is not one that obtains a block or a descriptor, gets to the receive,
and is rejected there. -/
theorem request_resources_iff (o : Outcomes) (registry : Registry H) (sizeT : ℕ)
    (reqId : BitVec 32) :
    (mgHandleRequest o.serverOps registry sizeT reqId .none).2.GivenUp ↔
      ¬ (o.Receives sizeT ∧ o.Rejects registry reqId ∧ o.Obtains sizeT) := by
  have untouched : ∀ reads, (⟨reads, [], [], [], [], []⟩ : Resources).GivenUp := fun _ =>
    ⟨.refl _, .refl _⟩
  have path := mgHandleRequest_path o.serverOps registry sizeT reqId Resources.none
  generalize mgHandleRequest o.serverOps registry sizeT reqId .none = result at path ⊢
  cases path with
  | unread first fails ends =>
    obtain ⟨read, rfl⟩ := firstRead_inv first
    refine iff_of_true (ends.elim (· ▸ untouched 1) (· ▸ untouched 1)) fun late => fails ?_
    have stays := late.1.1
    rwa [read] at stays
  | halfRead first stays second fails ends =>
    obtain ⟨read, rfl⟩ := firstRead_inv first
    obtain ⟨read', rfl⟩ := secondRead_inv second
    refine iff_of_true (ends.elim (· ▸ untouched 2) (· ▸ untouched 2)) fun late => fails ?_
    have stays' := late.1.2.1
    rwa [read'] at stays'
  | unallocated first stays second stays' large fails =>
    obtain ⟨read, rfl⟩ := firstRead_inv first
    obtain ⟨read', rfl⟩ := secondRead_inv second
    obtain ⟨block, rfl⟩ := Prod.mk.inj fails
    refine iff_of_true ?_ fun late => late.1.2.2 ?_ block
    · rw [block]
      exact untouched 2
    · rwa [Outcomes.lenData, read, read']
  | static first stays second stays' small =>
    obtain ⟨read, rfl⟩ := firstRead_inv first
    obtain ⟨read', rfl⟩ := secondRead_inv second
    have length : (o.lenData sizeT).toNat ≤ requestDataBuffSize := by
      rwa [Outcomes.lenData, read, read']
    refine (receiveRequest_resources o registry reqId .requestDataBuff _ _ _ 2).trans
      (not_congr ⟨fun rejected => ?_, fun late => ?_⟩)
    · exact ⟨⟨read ▸ stays, read' ▸ stays', fun large => absurd large (Nat.not_lt.mpr length)⟩,
        rejected.1, .inr (rejected.2.resolve_left (· rfl))⟩
    · exact ⟨late.2.1, .inr (late.2.2.resolve_left (Nat.not_lt.mpr length))⟩
  | allocated first stays second stays' large returns =>
    obtain ⟨read, rfl⟩ := firstRead_inv first
    obtain ⟨read', rfl⟩ := secondRead_inv second
    obtain ⟨block, rfl⟩ := Prod.mk.inj returns
    have length : requestDataBuffSize < (o.lenData sizeT).toNat := by
      rwa [Outcomes.lenData, read, read']
    rw [block]
    refine (receiveRequest_resources o registry reqId (.block _) _ _ _ 2).trans
      (not_congr ⟨fun rejected => ?_, fun late => ⟨late.2.1, .inl nofun⟩⟩)
    have allocates : o.block ≠ none := by
      rw [block]
      nofun
    exact ⟨⟨read ▸ stays, read' ▸ stays', fun _ => allocates⟩, rejected.1, .inl length⟩

/-! ### Requests that keep what they obtained -/

/-- 2000 bytes into a block, or one byte with a descriptor into the static buffer. -/
def largeRequest : Outcomes where
  firstRead := (.other 8, toBytes 8 2000)
  secondRead := (.other 8, toBytes 8 0)
  block := some 7
  received := (.other 2000, none)
  handled := .other 0

def attachedRequest : Outcomes :=
  { largeRequest with firstRead := (.other 8, toBytes 8 1), received := (.other 1, some 5) }

/-- An id that is not registered keeps the block and the descriptor, and a receive that fails keeps
the block. -/
theorem request_resources_kept :
    ¬ (mgHandleRequest largeRequest.serverOps twoHandlers 8 99 .none).2.GivenUp ∧
      ¬ (mgHandleRequest attachedRequest.serverOps twoHandlers 8 99 .none).2.GivenUp ∧
      ¬ (mgHandleRequest { largeRequest with received := (.io, none) }.serverOps twoHandlers 8 1
        .none).2.GivenUp := by
  decide

end Aple.ClientServer
