/-
**The endpoint names of the instances.**

* `Pcinst`, `checkInit`, `localExec` — `purc_init_ex` and `purc_cleanup` step by step, for the
  thread that runs them: the checks, the interning of the name, the module initialisation and the
  clean-up.
* `purcSystem` — any number of threads, in any interleaving of these steps; only the interned names
  are shared.
* `NameStep`, `localExec_spec` — what a step can do to the names; `endpoint_claims` — the names
  interned are those the threads hold.
* **`endpoint_names_unique`** — between the calls the live instances have the interned names, each
  its own, and a call that failed or was rejected gave back what it took.

Interning is atomic and `strdup` succeeds. The backtrace, the log file, the local data and the
connection to the renderer do not meet the names and are left out.
-/

import Aple.Lib.Claims
import Aple.Lib.Reach
import Aple.Purc.Modules

namespace Aple.Purc

open Aple.Lib

/-! ### Data -/

/-- What the code takes from elsewhere: `PURC_MODULE_ALL`, whether `init_once` succeeded, the name
for a call without `app_name`, the tests of the names, `purc_assemble_endpoint_name_ex` with its
result and what it writes, and `sizeof (endpoint_name)`. -/
structure Naming where
  moduleAll : BitVec 32
  initOk : Bool
  cmdline : String
  isValidAppName : String → Bool
  isValidRunnerName : String → Bool
  assembleEndpointName : String → String → ℕ × String
  sizeofEndpointName : ℕ

/-- `struct pcinst`. -/
structure Pcinst where
  modules : BitVec 32
  modulesInited : BitVec 32
  appName : Option String
  runnerName : Option String
  endpointName : String

/-- What `purc_init_ex` returns. -/
inductive InitResult
  | ok | noInstance | outOfMemory | duplicated | invalidValue | tooSmallBuff
  | moduleFailed (ret : ℤ)
deriving DecidableEq, Repr

/-- How a call of one of the two functions ends. -/
inductive Outcome
  | init (result : InitResult)
  | cleanup (done : Bool)
deriving DecidableEq, Repr

/-- A call that failed or was rejected. -/
def Outcome.Fails (outcome : Outcome) : Prop := outcome ≠ .init .ok ∧ outcome ≠ .cleanup true

/-- The arguments behind the checks. -/
structure InitArgs where
  modules : BitVec 32
  appName : String
  runnerName : String
deriving DecidableEq, Repr

/-- Where a thread is: `cleaning`, `removing` and `clearing` are the three parts of the clean-up,
with the result the call will have. -/
inductive Point
  | idle
  | interning (args : InitArgs)
  | registering (args : InitArgs)
  | initing (modules : BitVec 32)
  | cleaning (outcome : Outcome)
  | removing (outcome : Outcome)
  | clearing (outcome : Outcome)
deriving DecidableEq, Repr

/-- A change of the set of names. -/
inductive NameChange
  | interned (name : String)
  | removed (name : String)
deriving DecidableEq, Repr

/-- A thread: its instance, where it is, what its current or last call changed, and how its last
call ended. -/
structure Local where
  inst : Pcinst
  point : Point
  changes : List NameChange
  last : Option Outcome

/-- The interned names and the threads. -/
structure PurcState (Thread : Type) where
  names : Finset String
  threads : Thread → Local

/-! ### The two functions -/

/-- `purc_init_ex` up to the interning. `hasInst` is whether the thread-local instance is there. -/
def checkInit (naming : Naming) (hasInst : Bool) (modules : BitVec 32)
    (appName runnerName : Option String) (inst : Pcinst) : Pcinst × (InitResult ⊕ InitArgs) :=
  let modules := if modules = 0 then naming.moduleAll else modules
  if modules = 0 then (inst, .inl .noInstance)
  else
    let appName := appName.getD naming.cmdline
    let runnerName := runnerName.getD "unknown"
    if naming.initOk = false then (inst, .inl .noInstance)
    else if hasInst = false then (inst, .inl .outOfMemory)
    else if inst.modules ≠ 0 ∨ inst.appName.isSome ∨ inst.runnerName.isSome then
      (inst, .inl .duplicated)
    else if (naming.isValidAppName appName && naming.isValidRunnerName runnerName) = false then
      (inst, .inl .invalidValue)
    else
      let (n, endpointName) := naming.assembleEndpointName appName runnerName
      let inst := { inst with endpointName := endpointName }
      if n = 0 then (inst, .inl .invalidValue)
      else if n ≥ naming.sizeofEndpointName then (inst, .inl .tooSmallBuff)
      else (inst, .inr ⟨modules, appName, runnerName⟩)

/-- A call, or the next step of the one a thread is in; `table` is the module table with what the
initialisers return this time. -/
inductive LocalEvent
  | init (hasInst : Bool) (modules : BitVec 32) (appName runnerName : Option String)
  | cleanup (hasInst : Bool)
  | step (table : List Pcmodule)

/-- The end of a call. -/
def Local.return (l : Local) (outcome : Outcome) : Local :=
  { l with point := .idle, last := some outcome }

/-- One step of a call. -/
def localStep (table : List Pcmodule) (names : Finset String) (l : Local) :
    Option (Finset String × Local) :=
  match l.point with
  | .idle => none
  | .interning args =>
    -- `purc_atom_from_string_ex2`
    if l.inst.endpointName ∈ names then some (names, l.return (.init .duplicated))
    else some (insert l.inst.endpointName names,
      { l with point := .registering args, changes := l.changes ++ [.interned l.inst.endpointName] })
  | .registering args =>
    some (names, { l with
      inst := { l.inst with appName := some args.appName, runnerName := some args.runnerName }
      point := .initing args.modules })
  | .initing modules =>
    let (ret, modulesInited, _) := initModules table modules
    let l := { l with inst := { l.inst with modules := modules, modulesInited := modulesInited } }
    if ret ≠ 0 then some (names, { l with point := .cleaning (.init (.moduleFailed ret)) })
    else some (names, l.return (.init .ok))
  | .cleaning outcome => some (names, { l with point := .removing outcome })
  | .removing outcome =>
    -- `purc_atom_remove_string_ex`
    let changes := if l.inst.endpointName ∈ names then [.removed l.inst.endpointName] else []
    some (names.erase l.inst.endpointName,
      { l with point := .clearing outcome, changes := l.changes ++ changes })
  | .clearing outcome =>
    some (names, Local.return { l with
      inst := { l.inst with appName := none, runnerName := none, modules := 0, modulesInited := 0 } }
      outcome)

/-- A thread that is in no call starts one; one that is in a call goes on. -/
def localExec (naming : Naming) (names : Finset String) (l : Local) :
    LocalEvent → Option (Finset String × Local)
  | .init hasInst modules appName runnerName =>
    match l.point with
    | .idle =>
      let (inst, checked) := checkInit naming hasInst modules appName runnerName l.inst
      let l := { l with inst := inst, changes := [] }
      match checked with
      | .inl result => some (names, l.return (.init result))
      | .inr args => some (names, { l with point := .interning args })
    | _ => none
  | .cleanup hasInst =>
    match l.point with
    | .idle =>
      let l := { l with changes := [] }
      if hasInst = false ∨ l.inst.appName = none then some (names, l.return (.cleanup false))
      else some (names, { l with point := .cleaning (.cleanup true) })
    | _ => none
  | .step table => localStep table names l

variable {Thread : Type} [DecidableEq Thread]

/-- One thread takes a step. -/
def purcExec (naming : Naming) (s : PurcState Thread) (event : Thread × LocalEvent) :
    Option (PurcState Thread) :=
  (localExec naming s.names (s.threads event.1) event.2).map fun (names, l) =>
    ⟨names, Function.update s.threads event.1 l⟩

/-- A thread before its first call. -/
def Local.initial : Local := ⟨⟨0, 0, none, none, ""⟩, .idle, [], none⟩

/-- Every interleaving. -/
def purcSystem (naming : Naming) (Thread : Type) [DecidableEq Thread] :
    System (PurcState Thread) (Thread × LocalEvent) where
  init s := s = ⟨∅, fun _ => Local.initial⟩
  step s event after := purcExec naming s event = some after

/-! ### One thread -/

/-- The instance is registered, or the call it is in has interned its name and not removed it. -/
def Local.holds (l : Local) : Bool :=
  match l.point with
  | .idle => l.inst.appName.isSome
  | .interning _ | .clearing _ => false
  | .registering _ | .initing _ | .cleaning _ | .removing _ => true

/-- The name a thread holds. -/
def Local.held (l : Local) : Option String := if l.holds then some l.inst.endpointName else none

/-- Changes that give back what they took. -/
def Neutral (changes : List NameChange) : Prop :=
  changes = [] ∨ ∃ name, changes = [.interned name, .removed name]

/-- What a call has changed so far when it fails in the end. -/
def Local.Accounted (l : Local) : Prop :=
  match l.point with
  | .idle => ∀ outcome, l.last = some outcome → outcome.Fails → Neutral l.changes
  | .interning _ => l.inst.appName = none ∧ l.changes = []
  | .registering _ => l.changes = [.interned l.inst.endpointName]
  | .initing _ => l.inst.appName.isSome = true ∧ l.changes = [.interned l.inst.endpointName]
  | .cleaning outcome | .removing outcome =>
    outcome.Fails → l.changes = [.interned l.inst.endpointName]
  | .clearing outcome => outcome.Fails → Neutral l.changes

/-- What a step of a thread does to the names: nothing, or it takes a free name, or it gives back
its own. -/
inductive NameStep (names : Finset String) (l : Local) : Finset String → Local → Prop
  | keeps {after : Local} : after.held = l.held → NameStep names l names after
  | takes {after : Local} {name : String} : name ∉ names → l.held = none → after.held = some name →
      NameStep names l (insert name names) after
  | gives {after : Local} {name : String} : l.held = some name → after.held = none →
      NameStep names l (names.erase name) after

variable {naming : Naming} {names names' : Finset String} {l after : Local}

/-- An instance that passes the checks is not registered, and the checks do not register it. -/
theorem checkInit_spec (naming : Naming) (hasInst : Bool) (modules : BitVec 32)
    (appName runnerName : Option String)
    (inst : Pcinst) :
    (checkInit naming hasInst modules appName runnerName inst).1.appName = inst.appName ∧
      (inst.appName ≠ none →
        (checkInit naming hasInst modules appName runnerName inst).1 = inst ∧
        ∀ args, (checkInit naming hasInst modules appName runnerName inst).2 ≠ .inr args) := by
  unfold checkInit
  generalize (if modules = 0 then naming.moduleAll else modules) = modules
  by_cases noModules : modules = 0
  · rw [if_pos noModules]
    exact ⟨rfl, fun _ => ⟨rfl, nofun⟩⟩
  by_cases notOk : naming.initOk = false
  · rw [if_neg noModules, if_pos notOk]
    exact ⟨rfl, fun _ => ⟨rfl, nofun⟩⟩
  by_cases noInst : hasInst = false
  · rw [if_neg noModules, if_neg notOk, if_pos noInst]
    exact ⟨rfl, fun _ => ⟨rfl, nofun⟩⟩
  rw [if_neg noModules, if_neg notOk, if_neg noInst]
  by_cases registered : inst.modules ≠ 0 ∨ inst.appName.isSome ∨ inst.runnerName.isSome
  · rw [if_pos registered]
    exact ⟨rfl, fun _ => ⟨rfl, nofun⟩⟩
  rw [if_neg registered]
  -- behind the test for a registered name only instances without one are left
  have unnamed : inst.appName = none := by
    by_contra named
    exact registered (.inr (.inl (Option.isSome_iff_ne_none.mpr named)))
  refine ⟨?_, fun named => absurd unnamed named⟩
  split
  · rfl
  · rcases naming.assembleEndpointName (appName.getD naming.cmdline) (runnerName.getD "unknown")
      with ⟨n, endpointName⟩
    dsimp only
    split
    · rfl
    · split
      · rfl
      · rfl

/-- **A step inside a call.** -/
theorem localStep_spec {table : List Pcmodule} (accounted : l.Accounted)
    (mine : ∀ name, l.held = some name → name ∈ names)
    (runs : localStep table names l = some (names', after)) :
    NameStep names l names' after ∧ after.Accounted := by
  obtain ⟨inst, point, changes, last⟩ := l
  cases point with
  | idle => cases runs
  | interning args =>
    obtain ⟨unnamed, rfl⟩ : inst.appName = none ∧ changes = [] := accounted
    simp only [localStep] at runs
    split at runs
    · obtain ⟨rfl, rfl⟩ := Prod.mk.inj (Option.some.inj runs)
      refine ⟨.keeps ?_, fun _ _ _ => .inl rfl⟩
      simp [Local.held, Local.holds, Local.return, unnamed]
    · rename_i free
      obtain ⟨rfl, rfl⟩ := Prod.mk.inj (Option.some.inj runs)
      exact ⟨.takes free rfl rfl, rfl⟩
  | registering args =>
    obtain ⟨rfl, rfl⟩ := Prod.mk.inj (Option.some.inj runs)
    exact ⟨.keeps rfl, rfl, accounted⟩
  | initing modules =>
    obtain ⟨named, own⟩ : inst.appName.isSome = true ∧ _ := accounted
    simp only [localStep] at runs
    split at runs
    · obtain ⟨rfl, rfl⟩ := Prod.mk.inj (Option.some.inj runs)
      exact ⟨.keeps rfl, fun _ => own⟩
    · obtain ⟨rfl, rfl⟩ := Prod.mk.inj (Option.some.inj runs)
      refine ⟨.keeps ?_, ?_⟩
      · simp [Local.held, Local.holds, Local.return, named]
      · rintro outcome ⟨⟩ fails
        exact absurd rfl fails.1
  | cleaning outcome =>
    obtain ⟨rfl, rfl⟩ := Prod.mk.inj (Option.some.inj runs)
    exact ⟨.keeps rfl, accounted⟩
  | removing outcome =>
    have interned : inst.endpointName ∈ names := mine inst.endpointName rfl
    simp only [localStep, if_pos interned] at runs
    obtain ⟨rfl, rfl⟩ := Prod.mk.inj (Option.some.inj runs)
    refine ⟨.gives rfl rfl, fun fails => .inr ⟨inst.endpointName, ?_⟩⟩
    have own : changes = [.interned inst.endpointName] := accounted fails
    rw [own]
    rfl
  | clearing outcome =>
    obtain ⟨rfl, rfl⟩ := Prod.mk.inj (Option.some.inj runs)
    refine ⟨.keeps rfl, ?_⟩
    rintro outcome' ⟨⟩ fails
    exact accounted fails

/-- The changes that are written down are those made to the names. -/
inductive Recorded (names : Finset String) (l : Local) : Finset String → Local → Prop
  | same {after : Local} : after.changes = l.changes → Recorded names l names after
  | starts {after : Local} : l.point = .idle → after.changes = [] → Recorded names l names after
  | interned {after : Local} {name : String} : name ∉ names →
      after.changes = l.changes ++ [.interned name] → Recorded names l (insert name names) after
  | removed {after : Local} {name : String} : name ∈ names →
      after.changes = l.changes ++ [.removed name] → Recorded names l (names.erase name) after

theorem localStep_recorded {table : List Pcmodule} (runs : localStep table names l = some (names', after)) :
    Recorded names l names' after := by
  unfold localStep at runs
  split at runs
  · cases runs
  · split at runs
    · obtain ⟨rfl, rfl⟩ := Prod.mk.inj (Option.some.inj runs)
      exact .same rfl
    · rename_i free
      obtain ⟨rfl, rfl⟩ := Prod.mk.inj (Option.some.inj runs)
      exact .interned free rfl
  · obtain ⟨rfl, rfl⟩ := Prod.mk.inj (Option.some.inj runs)
    exact .same rfl
  · dsimp only at runs
    split at runs
    all_goals
      obtain ⟨rfl, rfl⟩ := Prod.mk.inj (Option.some.inj runs)
      exact .same rfl
  · obtain ⟨rfl, rfl⟩ := Prod.mk.inj (Option.some.inj runs)
    exact .same rfl
  · obtain ⟨rfl, rfl⟩ := Prod.mk.inj (Option.some.inj runs)
    by_cases present : l.inst.endpointName ∈ names
    · refine .removed present ?_
      simp only [if_pos present]
    · rw [Finset.erase_eq_of_notMem present]
      refine .same ?_
      simp only [if_neg present, List.append_nil]
  · obtain ⟨rfl, rfl⟩ := Prod.mk.inj (Option.some.inj runs)
    exact .same rfl

theorem localExec_recorded {event : LocalEvent}
    (runs : localExec naming names l event = some (names', after)) :
    Recorded names l names' after := by
  cases event with
  | step table => exact localStep_recorded runs
  | cleanup hasInst =>
    simp only [localExec] at runs
    split at runs
    · rename_i idle
      split at runs
      all_goals
        obtain ⟨rfl, rfl⟩ := Prod.mk.inj (Option.some.inj runs)
        exact .starts idle rfl
    · cases runs
  | init hasInst modules appName runnerName =>
    simp only [localExec] at runs
    split at runs
    · rename_i idle
      split at runs
      all_goals
        obtain ⟨rfl, rfl⟩ := Prod.mk.inj (Option.some.inj runs)
        exact .starts idle rfl
    · cases runs

/-- **A step of a thread.** -/
theorem localExec_spec {event : LocalEvent} (accounted : l.Accounted)
    (mine : ∀ name, l.held = some name → name ∈ names)
    (runs : localExec naming names l event = some (names', after)) :
    NameStep names l names' after ∧ after.Accounted := by
  cases event with
  | step table => exact localStep_spec accounted mine runs
  | cleanup hasInst =>
    obtain ⟨inst, point, changes, last⟩ := l
    cases point with
    | idle =>
      simp only [localExec] at runs
      split at runs
      · obtain ⟨rfl, rfl⟩ := Prod.mk.inj (Option.some.inj runs)
        exact ⟨.keeps rfl, fun _ _ _ => .inl rfl⟩
      · rename_i live
        obtain ⟨rfl, rfl⟩ := Prod.mk.inj (Option.some.inj runs)
        refine ⟨.keeps ?_, fun fails => absurd rfl fails.2⟩
        have named : inst.appName.isSome = true := Option.isSome_iff_ne_none.mpr (not_or.mp live).2
        simp [Local.held, Local.holds, named]
    | _ => cases runs
  | init hasInst modules appName runnerName =>
    obtain ⟨inst, point, changes, last⟩ := l
    cases point with
    | idle =>
      obtain ⟨sameName, live⟩ := checkInit_spec naming hasInst modules appName runnerName inst
      simp only [localExec] at runs
      generalize checkInit naming hasInst modules appName runnerName inst = checks
        at sameName live runs
      obtain ⟨checked, result | args⟩ := checks
      · obtain ⟨rfl, rfl⟩ := Prod.mk.inj (Option.some.inj runs)
        refine ⟨.keeps ?_, fun _ _ _ => .inl rfl⟩
        by_cases named : inst.appName = none
        · have unnamed : checked.appName = none := sameName.trans named
          simp [Local.held, Local.holds, Local.return, named, unnamed]
        · have same : checked = inst := (live named).1
          subst same
          rfl
      · obtain ⟨rfl, rfl⟩ := Prod.mk.inj (Option.some.inj runs)
        have unnamed : inst.appName = none := by
          by_contra named
          exact (live named).2 args rfl
        refine ⟨.keeps ?_, sameName.trans unnamed, rfl⟩
        simp [Local.held, Local.holds, unnamed]
    | _ => cases runs

/-! ### Every thread -/

/-- The name each thread holds. -/
def PurcState.held (s : PurcState Thread) (thread : Thread) : Option String := (s.threads thread).held

/-- No call is in progress. -/
def PurcState.Idle (s : PurcState Thread) : Prop := ∀ thread, (s.threads thread).point = .idle

/-- The name of a live instance. -/
def PurcState.LiveName (s : PurcState Thread) (thread : Thread) (name : String) : Prop :=
  (s.threads thread).inst.appName ≠ none ∧ (s.threads thread).inst.endpointName = name

/-- The names are those the threads hold, and every call is accounted for. -/
structure PurcInv (s : PurcState Thread) : Prop where
  claims : Claims s.names s.held
  accounted : ∀ thread, (s.threads thread).Accounted

variable {s after : PurcState Thread}

/-- A step of the threads is one of a thread, and the others do not move. -/
theorem purcExec_cases {event : Thread × LocalEvent} {after : PurcState Thread}
    (runs : purcExec naming s event = some after) :
    ∃ l, localExec naming s.names (s.threads event.1) event.2 = some (after.names, l) ∧
      after.threads = Function.update s.threads event.1 l := by
  obtain ⟨⟨names, l⟩, step, rfl⟩ := Option.map_eq_some_iff.mp runs
  exact ⟨l, step, rfl⟩

/-- **One step** keeps the account of the names. -/
theorem purc_step {event : Thread × LocalEvent} {after : PurcState Thread} (inv : PurcInv s)
    (runs : purcExec naming s event = some after) : PurcInv after := by
  obtain ⟨l, step, threads⟩ := purcExec_cases runs
  obtain ⟨names, accounted⟩ := localExec_spec (inv.accounted event.1)
    (fun name holds => (inv.claims.exact name).mpr ⟨event.1, holds⟩) step
  have held : after.held = Function.update s.held event.1 l.held := by
    funext thread
    rw [PurcState.held, threads]
    by_cases same : thread = event.1
    · rw [same, Function.update_self, Function.update_self]
    · rw [Function.update_of_ne same, Function.update_of_ne same, PurcState.held]
  constructor
  · rw [held]
    generalize after.names = names' at names
    cases names with
    | keeps same =>
      rw [same, show (s.threads event.1).held = s.held event.1 from rfl, Function.update_eq_self]
      exact inv.claims
    | takes free nothing takes =>
      rw [takes]
      exact inv.claims.acquire free nothing
    | gives mine nothing =>
      rw [nothing]
      exact inv.claims.release mine
  · intro thread
    rw [threads]
    by_cases same : thread = event.1
    · rw [same, Function.update_self]
      exact accounted
    · rw [Function.update_of_ne same]
      exact inv.accounted thread

theorem endpoint_claims (reached : (purcSystem naming Thread).Reachable s) : PurcInv s := by
  refine reached.invariant PurcInv ?_ ?_
  · rintro _ rfl
    refine ⟨.empty, fun thread => ?_⟩
    rintro outcome ⟨⟩
  · exact fun _ _ _ _ inv _ runs => purc_step inv runs

/-- **Endpoint names are unique among live instances.** Between the calls the live instances have
distinct names, and these are the interned ones. A call that failed or was rejected made no change
to the names, or took one back that it had interned. A step of a thread changes no other thread, and
what it does to the names is written down. -/
theorem endpoint_names_unique (reached : (purcSystem naming Thread).Reachable s) :
    (s.Idle → (∀ thread other name, s.LiveName thread name → s.LiveName other name → thread = other) ∧
      ∀ name, name ∈ s.names ↔ ∃ thread, s.LiveName thread name) ∧
    (∀ thread outcome, (s.threads thread).point = .idle → (s.threads thread).last = some outcome →
      outcome.Fails → Neutral (s.threads thread).changes) ∧
    ∀ event after, purcExec naming s event = some after →
      (∀ other, other ≠ event.1 → (after.threads other).inst = (s.threads other).inst) ∧
      Recorded s.names (s.threads event.1) after.names (after.threads event.1) := by
  have inv := endpoint_claims reached
  refine ⟨fun idle => ?_, fun thread outcome idle last fails => ?_, fun event after runs => ?_⟩
  · have live : ∀ thread name, s.LiveName thread name ↔ s.held thread = some name := by
      intro thread name
      unfold PurcState.LiveName PurcState.held Local.held Local.holds
      rw [idle thread, ← Option.isSome_iff_ne_none]
      dsimp only
      by_cases named : (s.threads thread).inst.appName.isSome = true
      · simp [named]
      · simp [named]
    simp only [live]
    exact ⟨inv.claims.distinct, inv.claims.exact⟩
  · have accounted := inv.accounted thread
    unfold Local.Accounted at accounted
    rw [idle] at accounted
    exact accounted outcome last fails
  · obtain ⟨l, step, threads⟩ := purcExec_cases runs
    refine ⟨fun other differs => ?_, ?_⟩
    · rw [threads, Function.update_of_ne differs]
    · rw [threads, Function.update_self]
      exact localExec_recorded step

/-- Names without rules, in a buffer that is large enough. -/
def plainNaming : Naming :=
  ⟨1, true, "unknown", fun _ => true, fun _ => true, fun app runner => (1, app ++ "/" ++ runner), 128⟩

/-- One thread registers a name, and another one is rejected with it. -/
def sameName : List (Bool × LocalEvent) :=
  [(true, .init true 0 (some "app") (some "main")), (true, .step []), (true, .step []), (true, .step []),
    (false, .init true 0 (some "app") (some "main")), (false, .step [])]

theorem endpoint_names_unique_two : ∃ s : PurcState Bool, s.Idle ∧ s.names = {"app/main"} ∧
    (s.threads false).last = some (.init .duplicated) ∧
    ∀ name, name ∈ s.names ↔ ∃ thread, s.LiveName thread name := by
  have facts : (runEvents (purcExec plainNaming) ⟨∅, fun _ => Local.initial⟩ sameName).map
      (fun s => (s.names, (s.threads true).point, (s.threads false).point, (s.threads false).last)) =
      some ({"app/main"}, .idle, .idle, some (.init .duplicated)) := by decide +kernel
  obtain ⟨s, runs, values⟩ := Option.map_eq_some_iff.mp facts
  obtain ⟨names, rest⟩ := Prod.mk.inj values
  obtain ⟨idle, rest⟩ := Prod.mk.inj rest
  obtain ⟨idle', last⟩ := Prod.mk.inj rest
  have start : (purcSystem plainNaming Bool).Reachable ⟨∅, fun _ => Local.initial⟩ := .start rfl
  have allIdle : s.Idle := by
    rintro (_ | _)
    · exact idle'
    · exact idle
  have unique := endpoint_names_unique (start.run (fun _ _ _ ran => ⟨trivial, ran⟩) runs)
  exact ⟨s, allIdle, names, last, (unique.1 allIdle).2⟩

end Aple.Purc
