/-
**The system function.**

* `Signals` — the dispositions and the signal mask of a process; `Env` — what each call gives: the
  signal calls one by one, `fork`, and the results of `waitpid` in their order.
* `system` — the whole function, for the parent and the child; the loop around `waitpid` has fuel.
* `SystemWorks` — the status of the child is returned, and the dispositions and the mask are put back.
* `systemCases` — the ways a call ends.
* **`system_works_iff`** — the function works exactly when its status is -1 anyway and the calls in
  front of `fork` fail at no point where there is something to put back.
-/

import Mathlib.Data.Finset.Basic
import Aple.Lib.Loop

namespace Aple.Process

open Aple.Lib

/-! ### Signals -/

inductive Signal
  | int | quit | chld
  | other (number : ℕ)
deriving DecidableEq, Repr

/-- `SIG_DFL`, `SIG_IGN` or a function. -/
inductive Handler
  | dfl | ign
  | function (addr : ℕ)
deriving DecidableEq, Repr

/-- `struct sigaction`. -/
structure Sigaction where
  saHandler : Handler
  saMask : Finset Signal
  saFlags : ℕ
deriving DecidableEq

/-- The signal state of a process. -/
structure Signals where
  action : Signal → Sigaction
  mask : Finset Signal

/-- The calls of `sigaction` and `sigprocmask`, in the order of the text. -/
inductive SigCall
  | ignoreInt | ignoreQuit | block
  | childInt | childQuit | childMask
  | restoreInt | restoreQuit | restoreMask
deriving DecidableEq, Repr

/-- The parent makes these calls when it gets to the end. -/
def parentCalls : List SigCall :=
  [.ignoreInt, .ignoreQuit, .block, .restoreInt, .restoreQuit, .restoreMask]

/-- The calls behind the comment "restore previous signal actions & reset signal mask". -/
def SigCall.restores : SigCall → Bool
  | .restoreInt | .restoreQuit | .restoreMask => true
  | _ => false

inductive ForkResult
  | fails | child | parent
deriving DecidableEq, Repr

/-- A `waitpid`: a status, -1 with `EINTR`, or -1 with another error. -/
inductive WaitResult
  | status (s : ℤ)
  | eintr | error
deriving DecidableEq, Repr

/-- What the calls give. -/
structure Env where
  ok : SigCall → Bool
  fork : ForkResult
  waits : ℕ → WaitResult
  execs : Bool

/-- The signal state and the calls made. -/
structure Proc where
  signals : Signals
  made : List SigCall

/-- How a call ends. The child becomes the shell or exits. -/
inductive SystemEnd
  | returns (value : ℤ) (proc : Proc)
  | shell (cmdstring : String) (proc : Proc)
  | exits (code : ℤ)

/-! ### The function -/

section Calls

variable (env : Env)

/-- `sigaction`. A call that fails changes nothing. -/
def sigaction (call : SigCall) (signal : Signal) (act : Sigaction) (p : Proc) : Bool × Proc :=
  let signals := if env.ok call then
    { p.signals with action := Function.update p.signals.action signal act } else p.signals
  (env.ok call, ⟨signals, p.made ++ [call]⟩)

/-- `sigprocmask`, which computes the new mask from the old one. -/
def sigprocmask (call : SigCall) (change : Finset Signal → Finset Signal) (p : Proc) : Bool × Proc :=
  let signals := if env.ok call then { p.signals with mask := change p.signals.mask } else p.signals
  (env.ok call, ⟨signals, p.made ++ [call]⟩)

/-- `SIG_IGN` with an empty mask and no flags. -/
def ignore : Sigaction := ⟨.ign, ∅, 0⟩

/-- `while (waitpid (pid, &status, 0) < 0) if (errno != EINTR) …`. -/
def waitTurn (k : ℕ) : Option (ℕ ⊕ ℤ) :=
  match env.waits k with
  | .status s => some (.inr s)
  | .eintr => some (.inl (k + 1))
  | .error => some (.inr (-1))

/-- From the comment "restore previous signal actions & reset signal mask" on. -/
def restoreSignals (saveintr savequit : Sigaction) (savemask : Finset Signal) (status : ℤ) (p : Proc) :
    SystemEnd :=
  let (done, p) := sigaction env .restoreInt .int saveintr p
  if done = false then .returns (-1) p
  else
    let (done, p) := sigaction env .restoreQuit .quit savequit p
    if done = false then .returns (-1) p
    else
      let (done, p) := sigprocmask env .restoreMask (fun _ => savemask) p
      -- the test is `== 0`
      if done = true then .returns (-1) p else .returns status p

/-- The child; the results of its signal calls are not looked at. -/
def childProcess (saveintr savequit : Sigaction) (savemask : Finset Signal) (cmdstring : String)
    (p : Proc) : SystemEnd :=
  let (_, p) := sigaction env .childInt .int saveintr p
  let (_, p) := sigaction env .childQuit .quit savequit p
  let (_, p) := sigprocmask env .childMask (fun _ => savemask) p
  if env.execs then .shell cmdstring p else .exits 127

/-- `system`; `none` while the parent still waits. -/
def system (fuel : ℕ) (cmdstring : Option String) (signals : Signals) : Option SystemEnd :=
  match cmdstring with
  | none => some (.returns 1 ⟨signals, []⟩)
  | some cmdstring =>
    let saveintr := signals.action .int
    let (done, p) := sigaction env .ignoreInt .int ignore ⟨signals, []⟩
    if done = false then some (.returns (-1) p)
    else
      let savequit := p.signals.action .quit
      let (done, p) := sigaction env .ignoreQuit .quit ignore p
      if done = false then some (.returns (-1) p)
      else
        let savemask := p.signals.mask
        let (done, p) := sigprocmask env .block (· ∪ {.chld}) p
        if done = false then some (.returns (-1) p)
        else
          match env.fork with
          | .fails => some (restoreSignals env saveintr savequit savemask (-1) p)
          | .child => some (childProcess env saveintr savequit savemask cmdstring p)
          | .parent => (loop (waitTurn env) fuel 0).map fun status =>
            restoreSignals env saveintr savequit savemask status p

end Calls

/-! ### What it should do -/

/-- What `status` is when `waitpid` has given this. -/
def WaitResult.value : WaitResult → ℤ
  | .status s => s
  | .eintr | .error => -1

/-- The loop is left at this `waitpid`. -/
structure Env.EndsAt (env : Env) (n : ℕ) : Prop where
  interrupted : ∀ k < n, env.waits k = .eintr
  ended : env.waits n ≠ .eintr

/-- The result of a call none of whose signal calls fails. -/
def Env.Reports (env : Env) (value : ℤ) : Prop :=
  match env.fork with
  | .fails => value = -1
  | .child => False
  | .parent => ∃ n, env.EndsAt n ∧ value = (env.waits n).value

/-- **The function works**: the parent gets back, with the status of the child when no signal call
fails, and with the old dispositions and mask when no restoring call fails. -/
structure SystemWorks (env : Env) (cmdstring : String) (before : Signals) : Prop where
  returns : env.fork = .fails ∨ env.fork = .parent ∧ (∃ n, env.EndsAt n) →
    ∃ fuel value p, system env fuel (some cmdstring) before = some (.returns value p)
  reports : ∀ fuel value p, system env fuel (some cmdstring) before = some (.returns value p) →
    (∀ call ∈ p.made, env.ok call = true) → env.Reports value
  restores : ∀ fuel value p, system env fuel (some cmdstring) before = some (.returns value p) →
    (∀ call ∈ p.made, call.restores = true → env.ok call = true) →
    p.signals.action .int = before.action .int ∧ p.signals.action .quit = before.action .quit ∧
      p.signals.mask = before.mask

/-- When it does: no status but -1 gets to the end of a call without a failure, and a call in front
of `fork` fails only when the signals ignored by then were ignored before. -/
structure SystemCondition (env : Env) (before : Signals) : Prop where
  status : (∀ call ∈ parentCalls, env.ok call = true) → env.fork = .parent →
    ∀ n s, env.EndsAt n → env.waits n = .status s → s = -1
  quit : env.ok .ignoreInt = true → env.ok .ignoreQuit = false → before.action .int = ignore
  block : env.ok .ignoreInt = true → env.ok .ignoreQuit = true → env.ok .block = false →
    before.action .int = ignore ∧ before.action .quit = ignore

/-! ### The ways a call ends -/

section

variable {env : Env} {before : Signals} {cmdstring : String}

theorem Env.EndsAt.unique {n m : ℕ} (first : env.EndsAt n) (second : env.EndsAt m) : n = m := by
  rcases Nat.lt_trichotomy n m with less | same | more
  · exact absurd (second.interrupted n less) first.ended
  · exact same
  · exact absurd (first.interrupted m more) second.ended

/-- The loop gives the value of the first `waitpid` that is not interrupted. -/
theorem waitLoop_eq {fuel : ℕ} {status : ℤ} (returns : loop (waitTurn env) fuel 0 = some status) :
    ∃ n, env.EndsAt n ∧ status = (env.waits n).value := by
  refine loop_partial (fun k => ∀ j < k, env.waits j = .eintr)
    (fun status => ∃ n, env.EndsAt n ∧ status = (env.waits n).value) ?_
    (fun j before => absurd before (Nat.not_lt_zero j)) returns
  intro k out interrupted turn
  unfold waitTurn at turn
  cases wait : env.waits k with
  | status s =>
    rw [wait] at turn
    rw [← Option.some.inj turn]
    exact ⟨k, ⟨interrupted, by simp [wait]⟩, by rw [wait]; rfl⟩
  | error =>
    rw [wait] at turn
    rw [← Option.some.inj turn]
    exact ⟨k, ⟨interrupted, by simp [wait]⟩, by rw [wait]; rfl⟩
  | eintr =>
    rw [wait] at turn
    rw [← Option.some.inj turn]
    intro j within
    rcases Nat.lt_succ_iff_lt_or_eq.mp within with less | rfl
    · exact interrupted j less
    · exact wait

/-- The loop ends when some `waitpid` is not interrupted. -/
theorem waitLoop_returns {n : ℕ} (ends : env.EndsAt n) :
    loop (waitTurn env) (n + 1) 0 = some (env.waits n).value := by
  have spec : LoopSpec (waitTurn env) 0 n fun status => status = (env.waits n).value := by
    refine loop_total (fun bound k => k + bound = n) _ ?_ (Nat.zero_add n)
    intro bound k place
    unfold waitTurn
    by_cases here : k = n
    · rw [here]
      cases wait : env.waits n with
      | eintr => exact absurd wait ends.ended
      | status s => exact ⟨_, rfl, rfl⟩
      | error => exact ⟨_, rfl, rfl⟩
    · rw [ends.interrupted k (by omega)]
      refine ⟨_, rfl, bound - 1, by omega, ?_⟩
      show k + 1 + (bound - 1) = n
      omega
  obtain ⟨status, returns⟩ := spec.returns (n + 1) (Nat.lt_succ_self n)
  rw [returns, spec.post _ _ returns]

/-- Both signals ignored, and `SIGCHLD` blocked. -/
def Signals.guarded (s : Signals) : Signals :=
  ⟨Function.update (Function.update s.action .int ignore) .quit ignore, s.mask ∪ {.chld}⟩

theorem guarded_action (s : Signals) :
    s.guarded.action = Function.update (Function.update s.action .int ignore) .quit ignore := rfl

theorem guarded_int (s : Signals) : s.guarded.action .int = ignore := by
  have notQuit : Signal.int ≠ .quit := nofun
  rw [guarded_action, Function.update_of_ne notQuit, Function.update_self]

theorem guarded_quit (s : Signals) : s.guarded.action .quit = ignore := by
  rw [guarded_action, Function.update_self]

theorem guarded_of_ne (s : Signals) {signal : Signal} (notInt : signal ≠ .int)
    (notQuit : signal ≠ .quit) : s.guarded.action signal = s.action signal := by
  rw [guarded_action, Function.update_of_ne notQuit, Function.update_of_ne notInt]

/-- The status that the code behind the `fork` goes on with. -/
def Env.Waited (env : Env) (status : ℤ) : Prop :=
  env.fork = .fails ∧ status = -1 ∨
    env.fork = .parent ∧ ∃ n, env.EndsAt n ∧ status = (env.waits n).value

/-- How a call that returns has ended. -/
inductive SystemRun (env : Env) (before : Signals) : ℤ → Proc → Prop
  | intFails : env.ok .ignoreInt = false → SystemRun env before (-1) ⟨before, [.ignoreInt]⟩
  | quitFails : env.ok .ignoreInt = true → env.ok .ignoreQuit = false →
      SystemRun env before (-1) ⟨{ before with action := Function.update before.action .int ignore },
        [.ignoreInt, .ignoreQuit]⟩
  | blockFails : env.ok .ignoreInt = true → env.ok .ignoreQuit = true → env.ok .block = false →
      SystemRun env before (-1) ⟨{ before.guarded with mask := before.mask },
        [.ignoreInt, .ignoreQuit, .block]⟩
  | finished {status value : ℤ} {p : Proc} : env.ok .ignoreInt = true → env.ok .ignoreQuit = true →
      env.ok .block = true → env.Waited status →
      restoreSignals env (before.action .int) (before.action .quit) before.mask status
        ⟨before.guarded, [.ignoreInt, .ignoreQuit, .block]⟩ = .returns value p →
      SystemRun env before value p

/-- **How a call ends.** -/
theorem systemCases {fuel : ℕ} {value : ℤ} {p : Proc}
    (returns : system env fuel (some cmdstring) before = some (.returns value p)) :
    SystemRun env before value p := by
  simp only [system, sigaction, sigprocmask] at returns
  cases okInt : env.ok .ignoreInt with
  | false =>
    rw [okInt] at returns
    obtain ⟨rfl, rfl⟩ := SystemEnd.returns.inj (Option.some.inj returns)
    exact .intFails okInt
  | true =>
    rw [okInt] at returns
    cases okQuit : env.ok .ignoreQuit with
    | false =>
      rw [okQuit] at returns
      obtain ⟨rfl, rfl⟩ := SystemEnd.returns.inj (Option.some.inj returns)
      exact .quitFails okInt okQuit
    | true =>
      rw [okQuit] at returns
      cases okBlock : env.ok .block with
      | false =>
        rw [okBlock] at returns
        obtain ⟨rfl, rfl⟩ := SystemEnd.returns.inj (Option.some.inj returns)
        exact .blockFails okInt okQuit okBlock
      | true =>
        rw [okBlock] at returns
        cases forks : env.fork with
        | fails =>
          rw [forks] at returns
          exact .finished okInt okQuit okBlock (.inl ⟨forks, rfl⟩) (Option.some.inj returns)
        | child =>
          rw [forks] at returns
          have child := Option.some.inj returns
          simp only [childProcess] at child
          split at child
          · cases child
          · cases child
        | parent =>
          rw [forks] at returns
          obtain ⟨status, waited, ends⟩ := Option.map_eq_some_iff.mp returns
          exact .finished okInt okQuit okBlock (.inr ⟨forks, waitLoop_eq waited⟩) ends

/-! The same the other way round. -/

theorem system_int_fails (fuel : ℕ) (cmdstring : String) (before : Signals)
    (fails : env.ok .ignoreInt = false) :
    system env fuel (some cmdstring) before = some (.returns (-1) ⟨before, [.ignoreInt]⟩) := by
  simp only [system, sigaction, fails]
  rfl

theorem system_quit_fails (fuel : ℕ) (cmdstring : String) (before : Signals)
    (okInt : env.ok .ignoreInt = true) (fails : env.ok .ignoreQuit = false) :
    system env fuel (some cmdstring) before = some (.returns (-1)
      ⟨{ before with action := Function.update before.action .int ignore },
        [.ignoreInt, .ignoreQuit]⟩) := by
  simp only [system, sigaction, okInt, fails]
  rfl

theorem system_block_fails (fuel : ℕ) (cmdstring : String) (before : Signals)
    (okInt : env.ok .ignoreInt = true) (okQuit : env.ok .ignoreQuit = true)
    (fails : env.ok .block = false) :
    system env fuel (some cmdstring) before = some (.returns (-1)
      ⟨{ before.guarded with mask := before.mask }, [.ignoreInt, .ignoreQuit, .block]⟩) := by
  simp only [system, sigaction, sigprocmask, okInt, okQuit, fails]
  rfl

theorem system_finished (cmdstring : String) (before : Signals) {status : ℤ}
    (okInt : env.ok .ignoreInt = true) (okQuit : env.ok .ignoreQuit = true) (okBlock : env.ok .block = true)
    (waited : env.Waited status) :
    ∃ fuel, system env fuel (some cmdstring) before =
      some (restoreSignals env (before.action .int) (before.action .quit) before.mask status
        ⟨before.guarded, [.ignoreInt, .ignoreQuit, .block]⟩) := by
  rcases waited with ⟨forks, rfl⟩ | ⟨forks, n, ends, rfl⟩
  · refine ⟨0, ?_⟩
    simp only [system, sigaction, sigprocmask, okInt, okQuit, okBlock, forks]
    rfl
  · refine ⟨n + 1, ?_⟩
    simp only [system, sigaction, sigprocmask, okInt, okQuit, okBlock, forks, waitLoop_returns ends]
    rfl

/-- **The last part** returns -1 with everything put back, or one of its calls has failed. -/
theorem restoreSignals_cases (env : Env) (saveintr savequit : Sigaction) (savemask : Finset Signal)
    (status : ℤ) (p : Proc) :
    ∃ value after, restoreSignals env saveintr savequit savemask status p = .returns value after ∧
      ((value = -1 ∧ after = ⟨⟨Function.update (Function.update p.signals.action .int saveintr) .quit
          savequit, savemask⟩, p.made ++ [.restoreInt, .restoreQuit, .restoreMask]⟩ ∧
        env.ok .restoreInt = true ∧ env.ok .restoreQuit = true ∧ env.ok .restoreMask = true) ∨
      ∃ call ∈ after.made, call.restores = true ∧ env.ok call = false) := by
  simp only [restoreSignals, sigaction, sigprocmask]
  cases okInt : env.ok .restoreInt with
  | false => exact ⟨_, _, rfl, .inr ⟨.restoreInt, by simp, rfl, okInt⟩⟩
  | true =>
    cases okQuit : env.ok .restoreQuit with
    | false => exact ⟨_, _, rfl, .inr ⟨.restoreQuit, by simp, rfl, okQuit⟩⟩
    | true =>
      cases okMask : env.ok .restoreMask with
      | false => exact ⟨_, _, rfl, .inr ⟨.restoreMask, by simp, rfl, okMask⟩⟩
      | true => exact ⟨_, _, rfl, .inl ⟨rfl, by simp, rfl, rfl, rfl⟩⟩

/-- The parent returns as soon as there is a status to go on with. -/
theorem system_returns {status : ℤ} (waited : env.Waited status) :
    ∃ fuel value p, system env fuel (some cmdstring) before = some (.returns value p) := by
  cases okInt : env.ok .ignoreInt with
  | false => exact ⟨0, _, _, system_int_fails 0 cmdstring before okInt⟩
  | true =>
    cases okQuit : env.ok .ignoreQuit with
    | false => exact ⟨0, _, _, system_quit_fails 0 cmdstring before okInt okQuit⟩
    | true =>
      cases okBlock : env.ok .block with
      | false => exact ⟨0, _, _, system_block_fails 0 cmdstring before okInt okQuit okBlock⟩
      | true =>
        obtain ⟨fuel, runs⟩ := system_finished cmdstring before okInt okQuit okBlock waited
        obtain ⟨value, p, ends, -⟩ := restoreSignals_cases env (before.action .int)
          (before.action .quit) before.mask status ⟨before.guarded, [.ignoreInt, .ignoreQuit, .block]⟩
        exact ⟨fuel, value, p, runs.trans (congrArg some ends)⟩

/-- Putting back what was ignored and blocked. -/
theorem restored_guarded (before : Signals) :
    Function.update (Function.update before.guarded.action .int (before.action .int)) .quit
      (before.action .quit) = before.action := by
  funext signal
  by_cases isQuit : signal = .quit
  · rw [isQuit, Function.update_self]
  · rw [Function.update_of_ne isQuit]
    by_cases isInt : signal = .int
    · rw [isInt, Function.update_self]
    · rw [Function.update_of_ne isInt, guarded_of_ne before isInt isQuit]

/-- A call none of whose signal calls fails has the status that the condition allows. -/
theorem SystemCondition.reports (condition : SystemCondition env before) {fuel : ℕ} {value : ℤ}
    {p : Proc} (returns : system env fuel (some cmdstring) before = some (.returns value p))
    (succeed : ∀ call ∈ p.made, env.ok call = true) : env.Reports value := by
  cases systemCases returns with
  | intFails fails => simp [fails] at succeed
  | quitFails _ fails => simp [fails] at succeed
  | blockFails _ _ fails => simp [fails] at succeed
  | @finished status _ _ okInt okQuit okBlock waited ends =>
    obtain ⟨value', p', same, outcome⟩ := restoreSignals_cases env (before.action .int)
      (before.action .quit) before.mask status ⟨before.guarded, [.ignoreInt, .ignoreQuit, .block]⟩
    obtain ⟨rfl, rfl⟩ := SystemEnd.returns.inj (same.symm.trans ends)
    rcases outcome with ⟨rfl, -, okInt', okQuit', okMask⟩ | ⟨call, made, -, fails⟩
    · rcases waited with ⟨forks, -⟩ | ⟨forks, n, ended, -⟩
      · simp [Env.Reports, forks]
      · have all : ∀ call ∈ parentCalls, env.ok call = true := by
          simp [parentCalls, okInt, okQuit, okBlock, okInt', okQuit', okMask]
        simp only [Env.Reports, forks]
        refine ⟨n, ended, ?_⟩
        cases wait : env.waits n with
        | status s => exact (condition.status all forks n s ended wait).symm
        | eintr | error => rfl
    · rw [succeed call made] at fails
      cases fails

/-- Where nothing is put back, the condition says that nothing was changed. -/
theorem SystemCondition.restores (condition : SystemCondition env before) {fuel : ℕ} {value : ℤ}
    {p : Proc} (returns : system env fuel (some cmdstring) before = some (.returns value p))
    (succeed : ∀ call ∈ p.made, call.restores = true → env.ok call = true) :
    p.signals.action .int = before.action .int ∧ p.signals.action .quit = before.action .quit ∧
      p.signals.mask = before.mask := by
  cases systemCases returns with
  | intFails => exact ⟨rfl, rfl, rfl⟩
  | quitFails okInt fails =>
    refine ⟨?_, ?_, rfl⟩
    · show Function.update before.action .int ignore .int = _
      rw [Function.update_self, condition.quit okInt fails]
    · show Function.update before.action .int ignore .quit = _
      exact Function.update_of_ne (by decide) _ _
  | blockFails okInt okQuit fails =>
    obtain ⟨int, quit⟩ := condition.block okInt okQuit fails
    exact ⟨(guarded_int before).trans int.symm, (guarded_quit before).trans quit.symm, rfl⟩
  | @finished status _ _ okInt okQuit okBlock waited ends =>
    obtain ⟨value', p', same, outcome⟩ := restoreSignals_cases env (before.action .int)
      (before.action .quit) before.mask status ⟨before.guarded, [.ignoreInt, .ignoreQuit, .block]⟩
    obtain ⟨rfl, rfl⟩ := SystemEnd.returns.inj (same.symm.trans ends)
    rcases outcome with ⟨-, rfl, -⟩ | ⟨call, made, restores, fails⟩
    · exact ⟨congrFun (restored_guarded before) .int, congrFun (restored_guarded before) .quit, rfl⟩
    · rw [succeed call made restores] at fails
      cases fails

/-- In the cases the condition allows, the function works. -/
theorem SystemCondition.works (condition : SystemCondition env before) :
    SystemWorks env cmdstring before := by
  refine ⟨?_, fun _ _ _ => condition.reports, fun _ _ _ => condition.restores⟩
  rintro (forks | ⟨forks, n, ends⟩)
  · exact system_returns (.inl ⟨forks, rfl⟩)
  · exact system_returns (.inr ⟨forks, n, ends, rfl⟩)

/-- A status that gets to the end of a call without a failure is -1. -/
theorem SystemWorks.status_eq (works : SystemWorks env cmdstring before)
    (all : ∀ call ∈ parentCalls, env.ok call = true) (forks : env.fork = .parent) {n : ℕ} {s : ℤ}
    (ended : env.EndsAt n) (wait : env.waits n = .status s) : s = -1 := by
  have okInt : env.ok .ignoreInt = true := all _ (by decide)
  have okQuit : env.ok .ignoreQuit = true := all _ (by decide)
  have okBlock : env.ok .block = true := all _ (by decide)
  obtain ⟨fuel, runs⟩ := system_finished cmdstring before okInt okQuit okBlock
    (.inr ⟨forks, n, ended, rfl⟩)
  obtain ⟨value, p, ends, outcome⟩ := restoreSignals_cases env (before.action .int)
    (before.action .quit) before.mask (env.waits n).value
    ⟨before.guarded, [.ignoreInt, .ignoreQuit, .block]⟩
  have returns := runs.trans (congrArg some ends)
  rcases outcome with ⟨rfl, rfl, -⟩ | ⟨call, made, restores, fails⟩
  · -- all six calls were made, so the result has to be the status
    have reports := works.reports fuel _ _ returns fun call made => all call made
    simp only [Env.Reports, forks] at reports
    obtain ⟨m, ended', same⟩ := reports
    rw [ended'.unique ended, wait] at same
    exact same.symm
  · have inParent : call ∈ parentCalls := by
      cases call with
      | restoreInt | restoreQuit | restoreMask => decide
      | ignoreInt | ignoreQuit | block | childInt | childQuit | childMask => cases restores
    rw [all call inParent] at fails
    cases fails

/-- And when it works, the condition holds. -/
theorem SystemWorks.condition (works : SystemWorks env cmdstring before) :
    SystemCondition env before := by
  refine ⟨fun all forks _ _ => works.status_eq all forks, fun okInt fails => ?_,
    fun okInt okQuit fails => ?_⟩
  · have returns := system_quit_fails 0 cmdstring before okInt fails
    have restored : Function.update before.action .int ignore .int = before.action .int :=
      (works.restores 0 _ _ returns (by simp [SigCall.restores])).1
    rw [← restored, Function.update_self]
  · have returns := system_block_fails 0 cmdstring before okInt okQuit fails
    obtain ⟨int, quit, -⟩ := works.restores 0 _ _ returns (by simp [SigCall.restores])
    exact ⟨int.symm.trans (guarded_int before), quit.symm.trans (guarded_quit before)⟩

end

/-- **The function works** if and only if its condition holds. -/
theorem system_works_iff (env : Env) (cmdstring : String) (before : Signals) :
    SystemWorks env cmdstring before ↔ SystemCondition env before :=
  ⟨SystemWorks.condition, SystemCondition.works⟩

/-- Everything succeeds, and the child exits with this status. -/
def exitsWith (s : ℤ) : Env := ⟨fun _ => true, .parent, fun _ => .status s, true⟩

/-- **The status is lost**: -1 is returned because the last call succeeds. And SIGINT stays ignored
when the second call fails. -/
theorem system_loses_status :
    (∀ before, ¬ SystemWorks (exitsWith 256) "false" before) ∧
      ¬ SystemWorks ⟨fun call => call != .ignoreQuit, .parent, fun _ => .status 0, true⟩ "true"
        ⟨fun _ => ⟨.dfl, ∅, 0⟩, ∅⟩ := by
  constructor
  · intro before works
    have same := works.condition.status (fun _ _ => rfl) rfl 0 256
      ⟨fun k less => absurd less (Nat.not_lt_zero k), nofun⟩ rfl
    exact absurd same (by decide)
  · intro works
    have same := works.condition.quit rfl rfl
    exact absurd (congrArg Sigaction.saHandler same) (by decide)

end Aple.Process
