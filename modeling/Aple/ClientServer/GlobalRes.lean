/-
**The global resources of the clients.**

* `GlobalRes` — a record in the list of a client slot; `ResState` — the memory of the records, the
  list heads of the slots, and the history of a run.
* `addGlobalRes`, `delGlobalRes`, `mgReleaseGlobalRes` — the three functions on the list.
* `ResEvent`, `resExec`, `resSystem` — every sequence of calls, on any slots.

`call` is what the release procedures do; it changes a state of their own (`World`) and no record. A
read or write of a record that is not allocated is a fault, and `malloc` always succeeds. Each
record carries the number of the `add_global_res` call that made it.
-/

import Aple.Lib.DoublyLinked
import Aple.Lib.Loop
import Aple.Lib.Reach

namespace Aple.ClientServer

open Aple.Lib

/-! ### Records -/

abbrev Addr := ℕ
abbrev Ptr := Option Addr

/-- A value of type `void*`. -/
abbrev Word := BitVec 64

/-- A record; `serial` is the number of the call that made it. -/
structure GlobalRes (Proc : Type) where
  next : Ptr
  prev : Ptr
  key : Word
  res : Word
  releaseProc : Option Proc
  serial : ℕ
deriving DecidableEq, Repr

/-- The records, the field `global_res` of every slot, the state of the release procedures, and the
history: the slot and the procedure of every record added, the records whose procedure was called,
those that were freed. -/
structure ResState (Proc World : Type) where
  cells : Addr → Option (GlobalRes Proc)
  globalRes : ℕ → Ptr
  world : World
  added : List (ℕ × Option Proc)
  released : List ℕ
  freed : List ℕ

section Functions

variable {Proc World : Type}

namespace ResState

variable (s : ResState Proc World)

/-- `node->next`. -/
def next (addr : Addr) : Ptr := (s.cells addr).bind GlobalRes.next

/-- `node->prev`. -/
def prev (addr : Addr) : Ptr := (s.cells addr).bind GlobalRes.prev

/-- Overwrite a record. -/
def store (addr : Addr) (record : GlobalRes Proc) : ResState Proc World :=
  { s with cells := Function.update s.cells addr (some record) }

/-- `if (target) target->next = value`. -/
def setNext (target value : Ptr) : Option (ResState Proc World) :=
  match target with
  | none => some s
  | some addr => (s.cells addr).map fun record => s.store addr { record with next := value }

/-- `if (target) target->prev = value`. -/
def setPrev (target value : Ptr) : Option (ResState Proc World) :=
  match target with
  | none => some s
  | some addr => (s.cells addr).map fun record => s.store addr { record with prev := value }

/-- `free (node)`. -/
def free (addr : Addr) : Option (ResState Proc World) :=
  (s.cells addr).map fun record => { s with
    cells := Function.update s.cells addr none
    freed := s.freed ++ [record.serial] }

/-- Set the head of a slot. -/
def setHead (cli : ℕ) (head : Ptr) : ResState Proc World :=
  { s with globalRes := Function.update s.globalRes cli head }

end ResState

variable (call : Proc → Word → World → World)

/-- `if (node->release_proc) node->release_proc (node->res)`. -/
def callReleaseProc (record : GlobalRes Proc) (s : ResState Proc World) : ResState Proc World :=
  match record.releaseProc with
  | none => s
  | some proc => { s with
      world := call proc record.res s.world
      released := s.released ++ [record.serial] }

/-! ### The three functions -/

/-- `add_global_res`, with `malloc` returning `addr`. -/
def addGlobalRes (cli : ℕ) (addr : Addr) (key res : Word) (releaseProc : Option Proc)
    (s : ResState Proc World) : Option (ResState Proc World) :=
  match s.cells addr with
  | some _ => none
  | none =>
    let record : GlobalRes Proc := ⟨none, none, key, res, releaseProc, s.added.length⟩
    let s := { s with added := s.added ++ [(cli, releaseProc)] }
    if s.globalRes cli = none then some ((s.store addr record).setHead cli (some addr))
    else
      let s := s.store addr { record with next := s.globalRes cli }
      (s.setPrev (s.globalRes cli) (some addr)).map fun s => s.setHead cli (some addr)

/-- The test of `del_global_res`. -/
def GlobalRes.hit (key res : Word) (record : GlobalRes Proc) : Bool :=
  record.key == key && record.res == res

/-- One turn of the search: the end of the list, or the record that is hit. -/
def searchTurn (key res : Word) (s : ResState Proc World) (globalRes : Ptr) :
    Option (Ptr ⊕ Option (Addr × GlobalRes Proc)) :=
  match globalRes with
  | none => some (.inr none)
  | some addr => (s.cells addr).map fun record =>
    if record.hit key res then .inr (some (addr, record)) else .inl record.next

/-- What `del_global_res` does to the record it hits. -/
def unlinkGlobalRes (cli : ℕ) (addr : Addr) (record : GlobalRes Proc) (s : ResState Proc World) :
    Option (ResState Proc World) := do
  let s := callReleaseProc call record s
  let s ← s.setNext record.prev record.next
  let s ← s.setPrev record.next record.prev
  let s := if some addr = s.globalRes cli then s.setHead cli record.next else s
  s.free addr

/-- `del_global_res`. -/
def delGlobalRes (fuel cli : ℕ) (key res : Word) (s : ResState Proc World) :
    Option (ResState Proc World) :=
  match loop (searchTurn key res s) fuel (s.globalRes cli) with
  | none => none
  | some none => some s
  | some (some (addr, record)) => unlinkGlobalRes call cli addr record s

/-- One turn of the loop of `__mg_release_global_res`. -/
def releaseTurn (v : Ptr × ResState Proc World) :
    Option ((Ptr × ResState Proc World) ⊕ ResState Proc World) :=
  match v.1 with
  | none => some (.inr v.2)
  | some addr => (v.2.cells addr).bind fun record =>
    ((callReleaseProc call record v.2).free addr).map fun s => .inl (record.next, s)

/-- `__mg_release_global_res`. The head of the slot is not written. -/
def mgReleaseGlobalRes (fuel cli : ℕ) (s : ResState Proc World) : Option (ResState Proc World) :=
  loop (releaseTurn call) fuel (s.globalRes cli, s)

/-! ### Sequences of calls -/

/-- One call on a slot. -/
inductive ResEvent (Proc : Type)
  | add (cli : ℕ) (addr : Addr) (key res : Word) (releaseProc : Option Proc)
  | del (fuel cli : ℕ) (key res : Word)
  | release (fuel cli : ℕ)

/-- Run one call; `none` when it faults or does not end. -/
def resExec (s : ResState Proc World) : ResEvent Proc → Option (ResState Proc World)
  | .add cli addr key res releaseProc => addGlobalRes cli addr key res releaseProc s
  | .del fuel cli key res => delGlobalRes call fuel cli key res s
  | .release fuel cli => mgReleaseGlobalRes call fuel cli s

/-- No record yet. -/
def ResState.initial (world : World) : ResState Proc World where
  cells _ := none
  globalRes _ := none
  world := world
  added := []
  released := []
  freed := []

/-- Every sequence of calls. -/
def resSystem : System (ResState Proc World) (ResEvent Proc) where
  init s := ∃ world, s = ResState.initial world
  step s event after := resExec call s event = some after

end Functions

end Aple.ClientServer
