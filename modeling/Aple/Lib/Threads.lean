/-
**Threads that run programs on one mutex.**

* `Threads` — the shared state, who holds the mutex, what each thread is doing, and what happened.
* `ThreadEvent`, `threadsExec` — a thread calls a program, takes the next instruction of it, or
  takes a step inside a routine of the user. A routine takes any number of such steps before it
  completes.
* `threadSystem` — every interleaving of any number of threads.
* **`locked_of_reachable`** — if the programs meet the precondition of the lock discipline, the
  calculus tells at any time who holds the mutex.
-/

import Mathlib.Logic.Function.Basic
import Aple.Lib.LockProg
import Aple.Lib.Reach

namespace Aple.Lib

/-- What a thread is doing. -/
inductive Doing (State Routine Result : Type)
  | idle
  | runs (prog : LockProg State Routine Result)
  | inside (routine : Routine) (next : LockProg State Routine Result)

/-- What can be seen of the threads. -/
inductive Happening (Routine Result : Type)
  | started (routine : Routine)
  | completed (routine : Routine)
  | returned (result : Result)
deriving DecidableEq, Repr

/-- The threads, the mutex and the state they share. The newest happening comes first. -/
structure Threads (Thread State Routine Result : Type) where
  shared : State
  holder : Option Thread
  doing : Thread → Doing State Routine Result
  history : List (Thread × Happening Routine Result)

/-- A step of a thread. -/
inductive ThreadEvent (Thread Call : Type)
  | call (thread : Thread) (call : Call)
  | step (thread : Thread)
  | work (thread : Thread)

variable {Thread State Routine Result Call : Type} [DecidableEq Thread]

namespace Threads

variable (s : Threads Thread State Routine Result)

/-- Nobody has done anything yet. -/
def start (shared : State) : Threads Thread State Routine Result :=
  ⟨shared, none, fun _ => .idle, []⟩

def goto (thread : Thread) (doing : Doing State Routine Result) : Threads Thread State Routine Result :=
  { s with doing := Function.update s.doing thread doing }

def note (thread : Thread) (happening : Happening Routine Result) :
    Threads Thread State Routine Result :=
  { s with history := (thread, happening) :: s.history }

/-- The next instruction of a program; `none` when it waits for the mutex, or there is none. -/
def instruction (thread : Thread) : LockProg State Routine Result →
    Option (Threads Thread State Routine Result)
  | .ret result => some ((s.goto thread .idle).note thread (.returned result))
  | .gone => none
  | .spins => some s
  | .take next =>
    match s.holder with
    | none => some ({ s with holder := some thread }.goto thread (.runs next))
    | some _ => none
  | .give next => some ({ s with holder := none }.goto thread (.runs next))
  | .get next => some (s.goto thread (.runs (next s.shared)))
  | .set shared next => some ({ s with shared := shared }.goto thread (.runs next))
  | .callback routine next =>
    some ((s.goto thread (.inside routine next)).note thread (.started routine))

end Threads

/-- Run one event, where `body` are the programs that may be called. -/
def threadsExec (body : Call → LockProg State Routine Result)
    (s : Threads Thread State Routine Result) :
    ThreadEvent Thread Call → Option (Threads Thread State Routine Result)
  | .call thread call =>
    match s.doing thread with
    | .idle => some (s.goto thread (.runs (body call)))
    | _ => none
  | .step thread =>
    match s.doing thread with
    | .idle => none
    | .runs prog => s.instruction thread prog
    | .inside routine next => some ((s.goto thread (.runs next)).note thread (.completed routine))
  | .work thread =>
    match s.doing thread with
    | .inside _ _ => some s
    | _ => none

/-- Every interleaving, from a shared state of the given kind. -/
def threadSystem (Thread : Type) [DecidableEq Thread] (body : Call → LockProg State Routine Result)
    (init : State → Prop) :
    System (Threads Thread State Routine Result) (ThreadEvent Thread Call) where
  init s := ∃ shared, init shared ∧ s = Threads.start shared
  step s event after := threadsExec body s event = some after

/-! ### Mutual exclusion -/

section Exclusion

variable {body : Call → LockProg State Routine Result} {init : State → Prop}
  {s after : Threads Thread State Routine Result} {thread : Thread}

/-- A program whose precondition is met with the mutex held exactly by its thread. -/
def Locked (thread : Thread) (holder : Option Thread) (prog : LockProg State Routine Result) : Prop :=
  ∃ held : Bool, wp (fun _ held => held = false) prog held ∧ (held = true ↔ holder = some thread)

/-- What a thread has yet to do fits with who holds the mutex. -/
def Doing.Locked (thread : Thread) (holder : Option Thread) : Doing State Routine Result → Prop
  | .idle => holder ≠ some thread
  | .runs prog => Lib.Locked thread holder prog
  | .inside _ next => Lib.Locked thread holder next

omit [DecidableEq Thread] in
/-- Another thread does not see who else takes or gives the mutex. -/
theorem Doing.locked_congr {doing : Doing State Routine Result} {holder holder' : Option Thread}
    (same : holder' = some thread ↔ holder = some thread) (locked : doing.Locked thread holder) :
    doing.Locked thread holder' := by
  cases doing with
  | idle => exact fun mine => locked (same.mp mine)
  | runs prog | inside routine prog =>
    obtain ⟨held, ok, holds⟩ := locked
    exact ⟨held, ok, holds.trans same.symm⟩

/-- One thread moves on, the others see nothing of it. -/
theorem locked_goto (doing : Doing State Routine Result) (holder : Option Thread)
    (locked : ∀ thread, (s.doing thread).Locked thread s.holder)
    (moved : doing.Locked thread holder)
    (others : ∀ other, other ≠ thread → (holder = some other ↔ s.holder = some other)) (other : Thread) :
    (Function.update s.doing thread doing other).Locked other holder := by
  by_cases same : other = thread
  · rw [same, Function.update_self]
    exact moved
  · rw [Function.update_of_ne same]
    exact Doing.locked_congr (others other same) (locked other)

/-- **One instruction** keeps the account of the mutex. -/
theorem locked_instruction {prog : LockProg State Routine Result}
    (locked : ∀ thread, (s.doing thread).Locked thread s.holder)
    (mine : Locked thread s.holder prog) (runs : s.instruction thread prog = some after)
    (other : Thread) : (after.doing other).Locked other after.holder := by
  obtain ⟨held, ok, holds⟩ := mine
  cases prog with
  | ret result =>
    rw [← Option.some.inj runs]
    refine locked_goto .idle s.holder locked (fun mine => ?_) (fun _ _ => Iff.rfl) other
    rw [show held = false from ok] at holds
    cases holds.mpr mine
  | gone => cases runs
  | spins =>
    rw [← Option.some.inj runs]
    exact locked other
  | take next =>
    simp only [Threads.instruction] at runs
    split at runs
    · rename_i free
      rw [← Option.some.inj runs]
      refine locked_goto (.runs next) (some thread) locked ⟨true, ok.2, by simp⟩
        (fun other differs => ?_) other
      rw [free]
      exact ⟨fun taken => absurd (Option.some.inj taken).symm differs, nofun⟩
    · cases runs
  | give next =>
    rw [← Option.some.inj runs]
    refine locked_goto (.runs next) none locked ⟨false, ok.2, by simp⟩
      (fun other differs => ?_) other
    rw [holds.mp ok.1]
    exact ⟨nofun, fun taken => absurd (Option.some.inj taken).symm differs⟩
  | get next =>
    rw [← Option.some.inj runs]
    exact locked_goto (.runs (next s.shared)) s.holder locked ⟨held, ok s.shared, holds⟩
      (fun _ _ => Iff.rfl) other
  | set shared next =>
    rw [← Option.some.inj runs]
    exact locked_goto (.runs next) s.holder locked ⟨held, ok, holds⟩ (fun _ _ => Iff.rfl) other
  | callback routine next =>
    rw [← Option.some.inj runs]
    exact locked_goto (.inside routine next) s.holder locked ⟨held, ok, holds⟩
      (fun _ _ => Iff.rfl) other

/-- **Mutual exclusion.** Threads that run disciplined programs hold the mutex where the calculus
says that they do, and so one at a time. -/
theorem locked_of_reachable {allowed : Threads Thread State Routine Result → ThreadEvent Thread Call → Prop}
    (disciplined : ∀ call, wp (fun _ held => held = false) (body call) false)
    (reached : (threadSystem Thread body init).ReachableBy allowed s) (thread : Thread) :
    (s.doing thread).Locked thread s.holder := by
  refine reached.invariant (fun s => ∀ thread, (s.doing thread).Locked thread s.holder) ?_ ?_ thread
  · rintro _ ⟨shared, -, rfl⟩ thread holds
    cases holds
  · rintro s event after - locked - runs
    cases event with
    | call caller call =>
      have idle := locked caller
      simp only [threadSystem, threadsExec] at runs
      split at runs
      · rename_i outside
        rw [outside] at idle
        have unheld : s.holder ≠ some caller := idle
        rw [← Option.some.inj runs]
        exact locked_goto (.runs (body call)) s.holder locked
          ⟨false, disciplined call, by simpa using unheld⟩ fun _ _ => Iff.rfl
      · cases runs
    | step stepper =>
      have mine := locked stepper
      simp only [threadSystem, threadsExec] at runs
      split at runs
      · cases runs
      · rename_i prog running
        rw [running] at mine
        exact locked_instruction locked mine runs
      · rename_i routine next inside
        rw [inside] at mine
        rw [← Option.some.inj runs]
        exact locked_goto (.runs next) s.holder locked mine fun _ _ => Iff.rfl
    | work worker =>
      simp only [threadSystem, threadsExec] at runs
      split at runs
      · rw [← Option.some.inj runs]
        exact locked
      · cases runs

end Exclusion

end Aple.Lib
