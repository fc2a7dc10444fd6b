/-
**Programs that take and give one mutex.**

* `LockProg` — a program as a tree: it takes or gives the mutex, reads or writes the shared state,
  calls a routine of the user, and returns, ends its thread, or goes on for ever without any of
  these.
* `observe` — what the program does on its mutex when its reads see the given states, whoever wrote
  them; `alone` — a run in which nobody else writes.
* `Disciplined` — takes and gives alternate, from not holding to (on return) not holding.
* `wp`, **`wp_disciplined`** — the precondition calculus of the discipline, and that it is sound.
-/

import Mathlib.Data.Nat.Notation

namespace Aple.Lib

/-- A program over a shared state. -/
inductive LockProg (State Routine Result : Type) : Type
  | ret (result : Result)
  | gone
  | spins
  | take (next : LockProg State Routine Result)
  | give (next : LockProg State Routine Result)
  | get (next : State → LockProg State Routine Result)
  | set (state : State) (next : LockProg State Routine Result)
  | callback (routine : Routine) (next : LockProg State Routine Result)

/-- What is seen of a program. -/
inductive LockAct (Routine : Type)
  | take | give
  | callback (routine : Routine)
deriving DecidableEq, Repr

/-- How a program ends; `cut` when the states given are used up. -/
inductive Ending (Result : Type)
  | returned (result : Result)
  | gone | spins | cut
deriving DecidableEq, Repr

variable {State Routine Result Other : Type}

namespace LockProg

/-- One program after another. -/
def bind (next : Result → LockProg State Routine Other) :
    LockProg State Routine Result → LockProg State Routine Other
  | ret result => next result
  | gone => gone
  | spins => spins
  | take rest => take (rest.bind next)
  | give rest => give (rest.bind next)
  | get rest => get fun state => (rest state).bind next
  | set state rest => set state (rest.bind next)
  | callback routine rest => callback routine (rest.bind next)

/-- The acts of a program whose reads see `states`, and its end. -/
def observe : LockProg State Routine Result → List State → List (LockAct Routine) × Ending Result
  | ret result, _ => ([], .returned result)
  | gone, _ => ([], .gone)
  | spins, _ => ([], .spins)
  | take rest, states => ((.take :: (rest.observe states).1), (rest.observe states).2)
  | give rest, states => ((.give :: (rest.observe states).1), (rest.observe states).2)
  | get _, [] => ([], .cut)
  | get rest, state :: states => (rest state).observe states
  | set _ rest, states => rest.observe states
  | callback routine rest, states =>
    ((.callback routine :: (rest.observe states).1), (rest.observe states).2)

/-- A run without interference: the state it leaves, and its end. -/
def alone : LockProg State Routine Result → State → State × Ending Result
  | ret result, now => (now, .returned result)
  | gone, now => (now, .gone)
  | spins, now => (now, .spins)
  | take rest, now => rest.alone now
  | give rest, now => rest.alone now
  | get rest, now => (rest now).alone now
  | set state rest, _ => rest.alone state
  | callback _ rest, now => rest.alone now

end LockProg

/-! ### The discipline -/

/-- Whether the mutex is held after some acts; `none` when it was taken twice or given unheld. -/
def heldAfter : Bool → List (LockAct Routine) → Option Bool
  | held, [] => some held
  | false, .take :: rest => heldAfter true rest
  | true, .take :: _ => none
  | true, .give :: rest => heldAfter false rest
  | false, .give :: _ => none
  | held, .callback _ :: rest => heldAfter held rest

/-- Takes and gives alternate from not holding, and a program that returns does not hold. -/
def Disciplined (run : List (LockAct Routine) × Ending Result) : Prop :=
  ∃ held, heldAfter false run.1 = some held ∧ ∀ result, run.2 = .returned result → held = false

/-- The weakest precondition of the discipline; `post` is about the result and the mutex. -/
def wp (post : Result → Bool → Prop) : LockProg State Routine Result → Bool → Prop
  | .ret result, held => post result held
  | .gone, _ => True
  | .spins, _ => True
  | .take rest, held => held = false ∧ wp post rest true
  | .give rest, held => held = true ∧ wp post rest false
  | .get rest, held => ∀ state, wp post (rest state) held
  | .set _ rest, held => wp post rest held
  | .callback _ rest, held => wp post rest held

section Rules

variable {post : Result → Bool → Prop} {held : Bool} {state : State} {routine : Routine}
  {rest : LockProg State Routine Result}

@[simp] theorem wp_ret {result : Result} :
    wp post (.ret result : LockProg State Routine Result) held ↔ post result held := Iff.rfl

@[simp] theorem wp_gone : wp post (.gone : LockProg State Routine Result) held ↔ True := Iff.rfl

@[simp] theorem wp_spins : wp post (.spins : LockProg State Routine Result) held ↔ True := Iff.rfl

@[simp] theorem wp_take : wp post (.take rest) held ↔ held = false ∧ wp post rest true := Iff.rfl

@[simp] theorem wp_give : wp post (.give rest) held ↔ held = true ∧ wp post rest false := Iff.rfl

@[simp] theorem wp_get {rest : State → LockProg State Routine Result} :
    wp post (.get rest) held ↔ ∀ state, wp post (rest state) held := Iff.rfl

@[simp] theorem wp_set : wp post (.set state rest) held ↔ wp post rest held := Iff.rfl

@[simp] theorem wp_callback : wp post (.callback routine rest) held ↔ wp post rest held := Iff.rfl

end Rules

/-- A program in sequence. -/
theorem wp_bind {post : Other → Bool → Prop} {next : Result → LockProg State Routine Other}
    {prog : LockProg State Routine Result} {held : Bool} :
    wp post (prog.bind next) held ↔ wp (fun result held => wp post (next result) held) prog held := by
  induction prog generalizing held with
  | ret result => exact Iff.rfl
  | gone | spins => exact Iff.rfl
  | take rest ih | give rest ih => exact and_congr_right fun _ => ih
  | get rest ih => exact forall_congr' fun state => ih state
  | set _ rest ih | callback _ rest ih => exact ih

/-- A weaker postcondition. -/
theorem wp_mono {post weaker : Result → Bool → Prop} {prog : LockProg State Routine Result}
    {held : Bool} (ok : wp post prog held)
    (weaken : ∀ result held, post result held → weaker result held) : wp weaker prog held := by
  induction prog generalizing held with
  | ret result => exact weaken result held ok
  | gone | spins => trivial
  | take rest ih | give rest ih => exact ⟨ok.1, ih ok.2⟩
  | get rest ih => exact fun state => ih state (ok state)
  | set _ rest ih | callback _ rest ih => exact ih ok

/-- The calculus is sound for every sequence of states read. -/
theorem wp_observe {post : Result → Bool → Prop} {prog : LockProg State Routine Result}
    {held : Bool}
    (ok : wp post prog held) (states : List State) :
    ∃ after, heldAfter held (prog.observe states).1 = some after ∧
      ∀ result, (prog.observe states).2 = .returned result → post result after := by
  induction prog generalizing held states with
  | ret result =>
    refine ⟨held, by cases held <;> rfl, fun other ends => ?_⟩
    cases ends
    exact ok
  | gone | spins => exact ⟨held, by cases held <;> rfl, nofun⟩
  | take rest ih =>
    obtain ⟨rfl, ok⟩ := ok
    exact ih ok states
  | give rest ih =>
    obtain ⟨rfl, ok⟩ := ok
    exact ih ok states
  | get rest ih =>
    cases states with
    | nil => exact ⟨held, by cases held <;> rfl, nofun⟩
    | cons state states => exact ih state (ok state) states
  | set _ rest ih => exact ih ok states
  | callback routine rest ih =>
    obtain ⟨after, holds, ends⟩ := ih ok states
    refine ⟨after, ?_, ends⟩
    cases held <;> exact holds

/-- **A program that meets its precondition without the mutex is disciplined.** -/
theorem wp_disciplined {prog : LockProg State Routine Result}
    (ok : wp (fun _ held => held = false) prog false) (states : List State) :
    Disciplined (prog.observe states) :=
  wp_observe ok states

end Aple.Lib
