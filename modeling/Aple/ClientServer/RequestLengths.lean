/-
**The buffer a request is received into.**

* `Receives`, `ServerOps.recorded` — a server that does what another one does, and writes down the
  blocks it gets from `malloc` and the regions it passes to `sock_recvmsg`.
* `Inside` — the regions lie inside the buffer, as numbers and not as words.
* **`regions_inside_iff`** — they do if and only if the sum of the two lengths does not wrap, or
  `malloc` fails; `wrapped_sum_overflows` — two lengths whose sum is zero.
-/

import Aple.ClientServer.Framing

namespace Aple.ClientServer

open Aple.Lib

variable {σ H : Type}

/-! ### The record -/

/-- The blocks from `malloc` with their sizes, and the arguments of `sock_recvmsg`. -/
structure Receives where
  blocks : List (ℕ × ℕ)
  regions : List (Buff × ℕ × ℕ)
deriving DecidableEq, Repr

def Receives.none : Receives := ⟨[], []⟩

/-- The size of the buffer behind a pointer. -/
def Receives.size (log : Receives) : Buff → ℕ
  | .requestDataBuff => requestDataBuffSize
  | .block addr => (log.blocks.lookup addr).getD 0

/-- The two regions of every receive lie inside the buffer. -/
def Inside (log : Receives) : Prop :=
  ∀ region ∈ log.regions, region.2.1 ≤ log.size region.1 ∧
    region.2.1 + region.2.2 ≤ log.size region.1

instance (log : Receives) : Decidable (Inside log) :=
  inferInstanceAs (Decidable (∀ region ∈ log.regions, _))

/-- The same functions with the record. -/
def ServerOps.recorded (ops : ServerOps σ H) : ServerOps (σ × Receives) H where
  sockRead count := fun (s, log) => let (r, s) := ops.sockRead count s; (r, (s, log))
  malloc size := fun (s, log) =>
    match ops.malloc size s with
    | (none, s) => (none, (s, log))
    | (some addr, s) => (some addr, (s, { log with blocks := (addr, size) :: log.blocks }))
  sockRecvmsg buff reqDataLen exDataLen := fun (s, log) =>
    let (r, s) := ops.sockRecvmsg buff reqDataLen exDataLen s
    (r, (s, { log with regions := (buff, reqDataLen, exDataLen) :: log.regions }))
  callV1 handler buff len fd := fun (s, log) =>
    let (n, s) := ops.callV1 handler buff len fd s; (n, (s, log))
  callV0 handler buff len := fun (s, log) => let (n, s) := ops.callV0 handler buff len s; (n, (s, log))
  close fd := fun (s, log) => (ops.close fd s, log)
  free addr := fun (s, log) => (ops.free addr s, log)
  checkDirtyZnode := fun (s, log) => (ops.checkDirtyZnode s, log)
  mgRemoveClient := fun (s, log) => (ops.mgRemoveClient s, log)

/-! ### One request -/

section Recorded

variable (ops : ServerOps σ H) (registry : Registry H) (reqId : BitVec 32) (buff : Buff)

/-- Nothing is received behind the receive. -/
theorem runRequest_recorded (lenData : ℕ) (fdReceived : Fd) (s : σ × Receives) :
    (runRequest ops.recorded registry reqId buff lenData fdReceived s).2.2 = s.2 := by
  have called : ∀ handler version,
      (callHandler ops.recorded handler version buff lenData fdReceived s).2.2 = s.2 := by
    intro handler version
    unfold callHandler
    split
    · rfl
    · dsimp only
      split <;> rfl
  have freed : ∀ s : σ × Receives, (freeBuff ops.recorded buff s).2 = s.2 := by
    intro s
    cases buff <;> rfl
  unfold runRequest
  dsimp only
  split
  · rfl
  · rename_i handler version _
    split
    · exact (freed _).trans (called handler version)
    · dsimp only
      split
      · exact (freed _).trans (called handler version)
      · exact (freed _).trans (called handler version)

/-- The one receive of a request. -/
theorem receiveRequest_recorded (reqDataLen exDataLen lenData : ℕ) (s : σ × Receives) :
    (receiveRequest ops.recorded registry reqId buff reqDataLen exDataLen lenData s).2.2 =
      { s.2 with regions := (buff, reqDataLen, exDataLen) :: s.2.regions } := by
  unfold receiveRequest
  rcases received : ops.recorded.sockRecvmsg buff reqDataLen exDataLen s with ⟨⟨code, fd⟩, after⟩
  have log : after.2 = { s.2 with regions := (buff, reqDataLen, exDataLen) :: s.2.regions } :=
    congrArg (fun r => r.2.2) received.symm
  cases code with
  | io => exact log
  | closed => exact log
  | invarg => exact (runRequest_recorded ops registry reqId buff lenData _ after).trans log
  | other n => exact (runRequest_recorded ops registry reqId buff lenData _ after).trans log

end Recorded

/-- **The arithmetic of the check.** The size that is chosen for a wrapped sum is too small. -/
theorem size_fits_iff {w : ℕ} (wide : requestDataBuffSize < 2 ^ w) (reqDataLen exDataLen : BitVec w)
    {size : ℕ} (chosen : size = if (reqDataLen + exDataLen).toNat ≤ requestDataBuffSize
      then requestDataBuffSize else (reqDataLen + exDataLen).toNat) :
    (reqDataLen.toNat ≤ size ∧ reqDataLen.toNat + exDataLen.toNat ≤ size) ↔
      reqDataLen.toNat + exDataLen.toNat < 2 ^ w := by
  have below := reqDataLen.isLt
  have below' := exDataLen.isLt
  rw [BitVec.toNat_add] at chosen
  by_cases wraps : reqDataLen.toNat + exDataLen.toNat < 2 ^ w
  · rw [Nat.mod_eq_of_lt wraps] at chosen
    refine iff_of_true ?_ wraps
    split at chosen <;> omega
  · have wrapped : (reqDataLen.toNat + exDataLen.toNat) % 2 ^ w =
        reqDataLen.toNat + exDataLen.toNat - 2 ^ w := by
      rw [Nat.mod_eq_sub_mod (Nat.not_lt.mp wraps)]
      exact Nat.mod_eq_of_lt (by omega)
    rw [wrapped] at chosen
    refine iff_of_false ?_ wraps
    split at chosen <;> omega

/-- The last receive goes to a buffer of the given size. -/
theorem inside_single {log : Receives} {buff : Buff} {reqDataLen exDataLen : ℕ}
    (only : log.regions = [(buff, reqDataLen, exDataLen)]) : Inside log ↔
      reqDataLen ≤ log.size buff ∧ reqDataLen + exDataLen ≤ log.size buff := by
  unfold Inside
  rw [only]
  simp

/-- **The regions lie inside the buffer if and only if the sum of the lengths does not wrap**, or no
buffer is chosen because `malloc` fails. -/
theorem regions_inside_iff (ops : ServerOps σ H) (registry : Registry H) {sizeT : ℕ}
    (sizes : sizeT = 4 ∨ sizeT = 8) (reqId : BitVec 32) {s s₁ s₂ : σ} {n₁ n₂ : ℤ}
    (reqDataLen exDataLen : BitVec (8 * sizeT))
    (first : ops.sockRead sizeT s = ((.other n₁, toBytes sizeT reqDataLen.toNat), s₁))
    (second : ops.sockRead sizeT s₁ = ((.other n₂, toBytes sizeT exDataLen.toNat), s₂)) :
    Inside (mgHandleRequest ops.recorded registry sizeT reqId (s, .none)).2.2 ↔
      reqDataLen.toNat + exDataLen.toNat < 2 ^ (8 * sizeT) ∨
        requestDataBuffSize < (reqDataLen + exDataLen).toNat ∧
          (ops.malloc (reqDataLen + exDataLen).toNat s₂).1 = none := by
  have wide : requestDataBuffSize < 2 ^ (8 * sizeT) := by
    rcases sizes with rfl | rfl <;> decide
  have reads : ops.recorded.sockRead sizeT (s, .none) =
      ((.other n₁, toBytes sizeT reqDataLen.toNat), (s₁, .none)) := by
    simp only [ServerOps.recorded, first]
  have reads' : ops.recorded.sockRead sizeT (s₁, .none) =
      ((.other n₂, toBytes sizeT exDataLen.toNat), (s₂, .none)) := by
    simp only [ServerOps.recorded, second]
  simp only [mgHandleRequest, reads, reads', sizeWord_toNat]
  by_cases small : (reqDataLen + exDataLen).toNat ≤ requestDataBuffSize
  · rw [if_pos small, receiveRequest_recorded]
    refine (inside_single rfl).trans
      ((size_fits_iff wide reqDataLen exDataLen (if_pos small).symm).trans ⟨.inl, ?_⟩)
    rintro (fits | ⟨large, -⟩)
    · exact fits
    · exact absurd small (Nat.not_le.mpr large)
  · rw [if_neg small]
    rcases allocates : ops.malloc (reqDataLen + exDataLen).toNat s₂ with ⟨_ | addr, s₃⟩
    · have fails : ops.recorded.malloc (reqDataLen + exDataLen).toNat (s₂, .none) =
          (none, (s₃, .none)) := by
        simp only [ServerOps.recorded, allocates]
      rw [fails]
      refine iff_of_true ?_ (.inr ⟨Nat.not_le.mp small, rfl⟩)
      intro region member
      cases member
    · have returns : ops.recorded.malloc (reqDataLen + exDataLen).toNat (s₂, .none) =
          (some addr, (s₃, ⟨[(addr, (reqDataLen + exDataLen).toNat)], []⟩)) := by
        simp only [ServerOps.recorded, allocates]
        rfl
      rw [returns]
      dsimp only
      rw [receiveRequest_recorded, inside_single rfl]
      have size : Receives.size ⟨[(addr, (reqDataLen + exDataLen).toNat)],
          [(.block addr, reqDataLen.toNat, exDataLen.toNat)]⟩ (.block addr) =
            if (reqDataLen + exDataLen).toNat ≤ requestDataBuffSize
            then requestDataBuffSize else (reqDataLen + exDataLen).toNat := by
        rw [if_neg small]
        simp [Receives.size]
      rw [size_fits_iff wide reqDataLen exDataLen size]
      refine ⟨.inl, ?_⟩
      rintro (fits | ⟨-, impossible⟩)
      · exact fits
      · cases impossible

/-- A server that is about to read two lengths and a few bytes behind them. -/
def lengthsSent (reqDataLen exDataLen : ℕ) (bytes : List Byte) : Link ℕ Unit where
  stream := cells (toBytes 8 reqDataLen) ++ (cells (toBytes 8 exDataLen) ++ cells bytes)
  mem _ _ := 0
  nextBlock := 0
  calls := []
  world := ()

theorem regions_inside_iff_two :
    Inside (mgHandleRequest (serverOps quiet).recorded twoHandlers 8 1
      (lengthsSent 1 1 [5, 6], .none)).2.2 :=
  (regions_inside_iff (serverOps quiet) twoHandlers (.inr rfl) 1 1 1
    (sockRead_word (s := lengthsSent 1 1 [5, 6]) 8 1 rfl)
    (sockRead_word (s := { lengthsSent 1 1 [5, 6] with stream := _ }) 8 1 rfl)).mpr
    (.inl (by decide))

/-- `2 ^ 64 - 1` bytes and two more: the sum is one, so they go to the buffer of 1024 bytes. -/
theorem wrapped_sum_overflows :
    ¬ Inside (mgHandleRequest (serverOps quiet).recorded twoHandlers 8 1
      (lengthsSent (2 ^ 64 - 1) 2 [5, 6], .none)).2.2 := by
  decide +kernel

end Aple.ClientServer
