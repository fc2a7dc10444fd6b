/-
**Initialising a thread again.**

* `Session` — the fields of `struct pcinst` that `purc_init_ex` sets, with the log file and the
  settings of the fetcher and the renderer.
* `purcInitEx`, `purcCleanup` — the two functions as one call each, for one thread and the interned
  names.
* `purcInitEx_steps` — a call is a run of the step model of `Endpoints`.
* `left_by_cleanup` — what a successful call and its clean-up leave behind; `endsAlike_iff` — when the
  next call makes the same of it as of a fresh thread.
* `Reinits` — the next call ends as on a fresh thread; `LeavesNothing` — what the two calls have to
  agree on for this.
* **`reinits_iff`** — the one holds exactly when the other does.

The callbacks of the modules work on the data of their modules, and none of these fields is theirs.
-/

import Aple.Purc.Endpoints

namespace Aple.Purc

open Aple.Lib

/-! ### Data -/

/-- `fp_log`: `NULL`, `LOG_FILE_SYSLOG`, or an open file. -/
inductive FpLog
  | null | syslog
  | file (path : String)
deriving DecidableEq, Repr

/-- `struct pcinst`. -/
structure Session extends Pcinst where
  enableRemoteFetcher : Bool
  autoSwitchingRdr : Bool
  maxConns : ℕ
  cacheQuota : ℕ
  fpLog : FpLog

/-- A thread-local instance nobody has written to. -/
def Session.fresh : Session := ⟨⟨0, 0, none, none, ""⟩, false, false, 0, 0, .null⟩

/-- The arguments of `purc_init_ex`, and the values of `PURC_LOG_ENABLE` and `PURC_LOG_SYSLOG` in the
environment. -/
structure InitCall (Extra : Type) where
  modules : BitVec 32
  appName : Option String
  runnerName : Option String
  extraInfo : Extra
  logEnable : Option String
  logSyslog : Option String

/-- What the code takes from elsewhere: the constants; the file that `purc_enable_log_ex` leaves in
`fp_log`; the module table, with what the initialisers return on an instance. -/
structure Library (Extra : Type) where
  naming : Naming
  haveFetcherR : BitVec 32
  logMaskDefault : BitVec 32
  logMaskAll : BitVec 32
  logMaskInfo : BitVec 32
  logMaskDebug : BitVec 32
  purcEnableLogEx : BitVec 32 → Bool → Pcinst → FpLog
  table : Extra → Session → List Pcmodule

def fetcherMaxConns : ℕ := 100
def fetcherCacheQuota : ℕ := 10240

/-! ### The two functions -/

section Functions

variable {Extra : Type} (lib : Library Extra)

/-- `strcasecmp (a, b) == 0`. -/
def strcasecmp (a b : String) : Bool := a.toLower == b.toLower

/-- The log mask that `PURC_LOG_ENABLE` asks for. -/
def Library.logMask (value : String) : BitVec 32 :=
  if strcasecmp value "all" then lib.logMaskAll
  else if strcasecmp value "verbose" then lib.logMaskDefault ||| lib.logMaskInfo
  else if strcasecmp value "debug" then lib.logMaskDefault ||| (lib.logMaskInfo ||| lib.logMaskDebug)
  else lib.logMaskDefault

def useSyslog : Option String → Bool
  | none => false
  | some value => value.toList.head? == some '1' || strcasecmp value "true"

/-- `enable_log_on_demand`: the new value of `fp_log`. -/
def enableLogOnDemand (call : InitCall Extra) (inst : Pcinst) (fpLog : FpLog) : FpLog :=
  match call.logEnable with
  | none => fpLog
  | some value => lib.purcEnableLogEx (lib.logMask value) (useSyslog call.logSyslog) inst

/-- `init_modules` up to the loop. -/
def settings (modules : BitVec 32) (s : Session) : Session :=
  { s with
    modules := modules
    modulesInited := 0
    maxConns := fetcherMaxConns
    cacheQuota := fetcherCacheQuota
    enableRemoteFetcher := if modules &&& lib.haveFetcherR ≠ 0 then true else s.enableRemoteFetcher
    autoSwitchingRdr := true }

/-- `fclose` for a file; `LOG_FILE_SYSLOG` is not closed. -/
def FpLog.closed : FpLog → FpLog
  | .file _ => .null
  | other => other

/-- `cleanup_instance`. -/
def cleanupInstance (names : Finset String) (s : Session) : Finset String × Session :=
  (names.erase s.endpointName, { s with
    fpLog := s.fpLog.closed
    appName := none
    runnerName := none
    modules := 0
    modulesInited := 0 })

/-- `purc_init_ex` behind the interning of the endpoint name. -/
def startInstance (call : InitCall Extra) (args : InitArgs) (names : Finset String) (s : Session) :
    InitResult × Finset String × Session :=
  let s := { s with appName := some args.appName, runnerName := some args.runnerName }
  let s := { s with fpLog := enableLogOnDemand lib call s.toPcinst s.fpLog }
  let s := settings lib args.modules s
  let (ret, modulesInited, _) := initModules (lib.table call.extraInfo s) args.modules
  let s := { s with modulesInited := modulesInited }
  if ret ≠ 0 then (.moduleFailed ret, cleanupInstance names s) else (.ok, names, s)

/-- `purc_init_ex`. -/
def purcInitEx (call : InitCall Extra) (names : Finset String) (s : Session) :
    InitResult × Finset String × Session :=
  match checkInit lib.naming true call.modules call.appName call.runnerName s.toPcinst with
  | (inst, .inl result) => (result, names, { s with toPcinst := inst })
  | (inst, .inr args) =>
    if inst.endpointName ∈ names then (.duplicated, names, { s with toPcinst := inst })
    else startInstance lib call args (insert inst.endpointName names) { s with toPcinst := inst }

/-- `purc_cleanup`. -/
def purcCleanup (names : Finset String) (s : Session) : Bool × Finset String × Session :=
  if s.appName = none then (false, names, s) else (true, cleanupInstance names s)

end Functions

/-! ### What should hold -/

section Property

variable {Extra : Type} (lib : Library Extra)

/-- The call gets as far as the modules on a thread without an instance, with these arguments. -/
def Starts (call : InitCall Extra) (names : Finset String) (args : InitArgs) : Prop :=
  ∃ inst, checkInit lib.naming true call.modules call.appName call.runnerName
      Session.fresh.toPcinst = (inst, .inr args) ∧ inst.endpointName ∉ names

/-- **The second call ends as on a fresh thread**, behind a first one and its clean-up. -/
def Reinits (names : Finset String) (s : Session) (a b : InitCall Extra) : Prop :=
  let first := purcInitEx lib a names s
  let left := (purcCleanup first.2.1 first.2.2).2
  (purcInitEx lib b left.1 left.2).1 = (purcInitEx lib b names .fresh).1 ∧
    (purcInitEx lib b left.1 left.2).2.2 = (purcInitEx lib b names .fresh).2.2

/-- The modules that a call asks for. -/
def InitCall.effective (call : InitCall Extra) : BitVec 32 :=
  if call.modules = 0 then lib.naming.moduleAll else call.modules

def InitCall.wantsFetcher (call : InitCall Extra) : Prop :=
  call.effective lib &&& lib.haveFetcherR ≠ 0

/-- The first call, or the state of its thread before, leaves `fp_log` at `LOG_FILE_SYSLOG`. -/
def LogsToSyslog (s : Session) (call : InitCall Extra) : Prop :=
  ∃ inst args, checkInit lib.naming true call.modules call.appName call.runnerName s.toPcinst =
      (inst, .inr args) ∧
    enableLogOnDemand lib call
      { inst with appName := some args.appName, runnerName := some args.runnerName } s.fpLog = .syslog

/-- The second call is not rejected by its checks, asks for the remote fetcher if this was enabled
before, and enables the log if the first call left it to the system log. -/
structure LeavesNothing (names : Finset String) (s : Session) (a b : InitCall Extra) : Prop where
  starts : ∃ args, Starts lib b names args
  fetcher : s.enableRemoteFetcher = true ∨ a.wantsFetcher lib → b.wantsFetcher lib
  log : LogsToSyslog lib s a → b.logEnable ≠ none

end Property

/-! ### The checks -/

/-- An instance that is not in use. -/
structure Blank (inst : Pcinst) : Prop where
  modules : inst.modules = 0
  appName : inst.appName = none
  runnerName : inst.runnerName = none

section Checks

variable {naming : Naming} {modules : BitVec 32} {appName runnerName : Option String}
  {inst inst' : Pcinst} {args : InitArgs}

/-- An instance that passes the checks is not in use, and gets its endpoint name. -/
theorem checkInit_inr (passes : checkInit naming true modules appName runnerName inst =
      (inst', .inr args)) :
    Blank inst ∧
      inst' = { inst with
        endpointName := (naming.assembleEndpointName args.appName args.runnerName).2 } ∧
      args.modules = if modules = 0 then naming.moduleAll else modules := by
  unfold checkInit at passes
  generalize (if modules = 0 then naming.moduleAll else modules) = asked at passes ⊢
  dsimp only at passes
  split at passes
  · cases passes
  · split at passes
    · cases passes
    · split at passes
      · cases passes
      · split at passes
        · cases passes
        · rename_i unused
          split at passes
          · cases passes
          · split at passes
            · cases passes
            · split at passes
              · cases passes
              · obtain ⟨rfl, same⟩ := Prod.mk.inj passes
                rw [← Sum.inr.inj same]
                obtain ⟨noModules, noNames⟩ := not_or.mp unused
                obtain ⟨noApp, noRunner⟩ := not_or.mp noNames
                exact ⟨⟨not_not.mp noModules, by simpa using noApp, by simpa using noRunner⟩, rfl, rfl⟩

/-- The checks alone do not end a call with success. -/
theorem checkInit_ne_ok :
    (checkInit naming true modules appName runnerName inst).2 ≠ .inl .ok := by
  unfold checkInit
  dsimp only
  split_ifs <;> nofun

/-- The checks find the same for any two instances that are not in use. -/
theorem checkInit_blank (naming : Naming) (modules : BitVec 32) (appName runnerName : Option String)
    (blank : Blank inst) (blank' : Blank inst') :
    (checkInit naming true modules appName runnerName inst).2 =
      (checkInit naming true modules appName runnerName inst').2 := by
  have unused : ∀ {i : Pcinst}, Blank i → ¬ (i.modules ≠ 0 ∨ i.appName.isSome ∨ i.runnerName.isSome) := by
    intro i blank
    simp [blank.modules, blank.appName, blank.runnerName]
  unfold checkInit
  dsimp only
  rw [if_neg (unused blank), if_neg (unused blank')]
  generalize (if modules = 0 then naming.moduleAll else modules) = asked
  by_cases noModules : asked = 0
  · rw [if_pos noModules, if_pos noModules]
  rw [if_neg noModules, if_neg noModules]
  by_cases notOk : naming.initOk = false
  · rw [if_pos notOk, if_pos notOk]
  rw [if_neg notOk, if_neg notOk]
  simp only [apply_ite Prod.snd]

end Checks

/-! ### One call -/

section Calls

variable {Extra : Type} {lib : Library Extra} {names : Finset String} {s : Session}
  {a b call : InitCall Extra} {args : InitArgs} {inst : Pcinst}

theorem blank_fresh : Blank Session.fresh.toPcinst := ⟨rfl, rfl, rfl⟩

/-- What a thread that is not in use and the fresh thread have in common. -/
theorem starts_iff (blank : Blank s.toPcinst) : Starts lib call names args ↔
    ∃ inst, checkInit lib.naming true call.modules call.appName call.runnerName s.toPcinst =
      (inst, .inr args) ∧ inst.endpointName ∉ names := by
  have same := checkInit_blank lib.naming call.modules call.appName call.runnerName blank blank_fresh
  unfold Starts
  rcases mine : checkInit lib.naming true call.modules call.appName call.runnerName s.toPcinst
    with ⟨inst, checked⟩
  rcases theirs : checkInit lib.naming true call.modules call.appName call.runnerName
    Session.fresh.toPcinst with ⟨inst', checked'⟩
  rw [mine, theirs] at same
  obtain rfl : checked = checked' := same
  constructor
  · rintro ⟨_, passes, free⟩
    obtain ⟨rfl, rfl⟩ := Prod.mk.inj passes
    obtain ⟨-, named, -⟩ := checkInit_inr theirs
    obtain ⟨-, named', -⟩ := checkInit_inr mine
    refine ⟨inst, rfl, ?_⟩
    rw [named] at free
    rw [named']
    exact free
  · rintro ⟨_, passes, free⟩
    obtain ⟨rfl, rfl⟩ := Prod.mk.inj passes
    obtain ⟨-, named, -⟩ := checkInit_inr mine
    obtain ⟨-, named', -⟩ := checkInit_inr theirs
    refine ⟨inst', rfl, ?_⟩
    rw [named] at free
    rw [named']
    exact free

/-- A call that does not start leaves the settings as they are. -/
theorem purcInitEx_rejected (rejected : ∀ args, ¬ Starts lib call names args) (blank : Blank s.toPcinst) :
    (purcInitEx lib call names s).2.2.maxConns = s.maxConns := by
  unfold purcInitEx
  rcases checks : checkInit lib.naming true call.modules call.appName call.runnerName s.toPcinst
    with ⟨inst, result | args⟩
  · rfl
  · dsimp only
    by_cases taken : inst.endpointName ∈ names
    · rw [if_pos taken]
    · exact absurd ((starts_iff blank).mpr ⟨inst, checks, taken⟩) (rejected args)

/-- What the callbacks of the modules see. -/
def started (lib : Library Extra) (call : InitCall Extra) (args : InitArgs) (s : Session) : Session :=
  let s := { s with appName := some args.appName, runnerName := some args.runnerName }
  settings lib args.modules { s with fpLog := enableLogOnDemand lib call s.toPcinst s.fpLog }

theorem startInstance_eq (lib : Library Extra) (call : InitCall Extra) (args : InitArgs)
    (names : Finset String) (s : Session) : startInstance lib call args names s =
      let (ret, modulesInited, _) :=
        initModules (lib.table call.extraInfo (started lib call args s)) args.modules
      let s := { started lib call args s with modulesInited := modulesInited }
      if ret ≠ 0 then (.moduleFailed ret, cleanupInstance names s) else (.ok, names, s) := rfl

/-- **What a started call leaves**, whether a module fails or not. -/
theorem startInstance_leaves (lib : Library Extra) (call : InitCall Extra) (args : InitArgs)
    (names : Finset String) (s : Session) :
    (startInstance lib call args names s).2.2.enableRemoteFetcher =
        (started lib call args s).enableRemoteFetcher ∧
      ((startInstance lib call args names s).2.2.fpLog = (started lib call args s).fpLog ∨
        (startInstance lib call args names s).2.2.fpLog = (started lib call args s).fpLog.closed) := by
  rw [startInstance_eq]
  dsimp only
  split
  · exact ⟨rfl, .inr rfl⟩
  · exact ⟨rfl, .inl rfl⟩

/-- A thread behind a call and its clean-up. -/
def leftBy (lib : Library Extra) (call : InitCall Extra) (args : InitArgs) (inst : Pcinst) (s : Session) :
    Session :=
  { started lib call args { s with toPcinst := inst } with
    toPcinst := ⟨0, 0, none, none, inst.endpointName⟩
    fpLog := (started lib call args { s with toPcinst := inst }).fpLog.closed }

/-- **A successful call and its clean-up.** -/
theorem left_by_cleanup (ok : (purcInitEx lib a names s).1 = .ok) :
    ∃ inst args, checkInit lib.naming true a.modules a.appName a.runnerName s.toPcinst =
        (inst, .inr args) ∧
      purcCleanup (purcInitEx lib a names s).2.1 (purcInitEx lib a names s).2.2 =
        (true, names, leftBy lib a args inst s) := by
  unfold purcInitEx at ok ⊢
  rcases checks : checkInit lib.naming true a.modules a.appName a.runnerName s.toPcinst
    with ⟨inst, result | args⟩
  · rw [checks] at ok
    obtain rfl : result = .ok := ok
    exact absurd (congrArg Prod.snd checks) checkInit_ne_ok
  · rw [checks] at ok
    dsimp only at ok ⊢
    by_cases taken : inst.endpointName ∈ names
    · rw [if_pos taken] at ok
      cases ok
    · rw [if_neg taken, startInstance_eq] at ok ⊢
      dsimp only at ok ⊢
      split at ok
      · cases ok
      · rename_i succeeds
        refine ⟨inst, args, rfl, ?_⟩
        rw [if_neg succeeds]
        unfold purcCleanup
        rw [if_neg (by simp [started, settings]), cleanupInstance]
        have sameNames : (insert inst.endpointName names).erase inst.endpointName = names :=
          Finset.erase_insert taken
        exact congrArg (fun names => (true, names, leftBy lib a args inst s)) sameNames

/-- A started call on a thread without an instance. -/
theorem purcInitEx_started (blank : Blank s.toPcinst) (noneInited : s.modulesInited = 0)
    (starts : Starts lib call names args) :
    purcInitEx lib call names s = startInstance lib call args
      (insert (lib.naming.assembleEndpointName args.appName args.runnerName).2 names)
      { s with toPcinst := ⟨0, 0, none, none,
        (lib.naming.assembleEndpointName args.appName args.runnerName).2⟩ } := by
  obtain ⟨inst, checks, free⟩ := (starts_iff blank).mp starts
  obtain ⟨-, rfl, -⟩ := checkInit_inr checks
  unfold purcInitEx
  rw [checks]
  dsimp only at free ⊢
  rw [if_neg free, blank.modules, blank.appName, blank.runnerName, noneInited]

theorem startInstance_congr {x y : Session} (same : started lib call args x = started lib call args y) :
    startInstance lib call args names x = startInstance lib call args names y := by
  rw [startInstance_eq, startInstance_eq, same]

/-- The callbacks see the same when nothing is left in the two sticky fields. -/
theorem started_congr {x y : Session} (inst : x.toPcinst = y.toPcinst)
    (fetcher : (started lib call args x).enableRemoteFetcher =
      (started lib call args y).enableRemoteFetcher)
    (log : (started lib call args x).fpLog = (started lib call args y).fpLog) :
    started lib call args x = started lib call args y := by
  obtain ⟨instX, fetcherX, autoX, connsX, quotaX, logX⟩ := x
  obtain ⟨instY, fetcherY, autoY, connsY, quotaY, logY⟩ := y
  obtain rfl : instX = instY := inst
  simp only [started, settings] at fetcher log ⊢
  rw [fetcher, log]

theorem started_fetcher (asked : args.modules = call.effective lib) (x : Session) :
    (started lib call args x).enableRemoteFetcher = true ↔
      call.wantsFetcher lib ∨ x.enableRemoteFetcher = true := by
  show (if args.modules &&& lib.haveFetcherR ≠ 0 then true else x.enableRemoteFetcher) = true ↔ _
  rw [asked]
  unfold InitCall.wantsFetcher
  by_cases wants : call.effective lib &&& lib.haveFetcherR ≠ 0
  · rw [if_pos wants]
    exact iff_of_true rfl (.inl wants)
  · rw [if_neg wants]
    exact (or_iff_right wants).symm

theorem started_log (x : Session) : (started lib call args x).fpLog =
    enableLogOnDemand lib call
      { x.toPcinst with appName := some args.appName, runnerName := some args.runnerName } x.fpLog := rfl

theorem FpLog.closed_eq_syslog {fpLog : FpLog} : fpLog.closed = .syslog ↔ fpLog = .syslog := by
  cases fpLog with
  | file path => exact iff_of_false nofun nofun
  | null | syslog => exact Iff.rfl

theorem FpLog.closed_eq_null {fpLog : FpLog} : fpLog.closed = .null ↔ fpLog ≠ .syslog := by
  cases fpLog with
  | syslog => exact iff_of_false nofun fun differs => differs rfl
  | null | file path => exact iff_of_true rfl nofun

/-- The events of a call in the step model. -/
def callEvents (lib : Library Extra) (call : InitCall Extra) (names : Finset String) (s : Session) :
    List LocalEvent :=
  let first := LocalEvent.init true call.modules call.appName call.runnerName
  match checkInit lib.naming true call.modules call.appName call.runnerName s.toPcinst with
  | (_, .inl _) => [first]
  | (inst, .inr args) =>
    if inst.endpointName ∈ names then [first, .step []]
    else
      let table := lib.table call.extraInfo (started lib call args { s with toPcinst := inst })
      let steps := [first, .step [], .step [], .step table]
      if (initModules table args.modules).1 ≠ 0 then steps ++ [.step [], .step [], .step []] else steps

/-- **A call is a run of the step model** of one thread. -/
theorem purcInitEx_steps (lib : Library Extra) (call : InitCall Extra) (names : Finset String)
    (s : Session) (changes : List NameChange) (last : Option Outcome) :
    ∃ changes', runEvents (fun (here : Finset String × Local) event =>
        localExec lib.naming here.1 here.2 event) (names, ⟨s.toPcinst, .idle, changes, last⟩)
        (callEvents lib call names s) =
      some ((purcInitEx lib call names s).2.1, ⟨(purcInitEx lib call names s).2.2.toPcinst, .idle,
        changes', some (.init (purcInitEx lib call names s).1)⟩) := by
  unfold callEvents purcInitEx
  rcases checks : checkInit lib.naming true call.modules call.appName call.runnerName s.toPcinst
    with ⟨inst, result | args⟩
  · refine ⟨[], ?_⟩
    simp [runEvents, localExec, checks, Local.return]
  · dsimp only
    by_cases taken : inst.endpointName ∈ names
    · rw [if_pos taken, if_pos taken]
      refine ⟨[], ?_⟩
      simp [runEvents, localExec, localStep, checks, taken, Local.return]
    · rw [if_neg taken, if_neg taken, startInstance_eq]
      have seen : (started lib call args { s with toPcinst := inst }).toPcinst =
        ⟨args.modules, 0, some args.appName, some args.runnerName, inst.endpointName⟩ := rfl
      generalize started lib call args { s with toPcinst := inst } = session at seen ⊢
      rcases inits : initModules (lib.table call.extraInfo session) args.modules
        with ⟨ret, modulesInited, calls⟩
      dsimp only
      by_cases fails : ret ≠ 0
      · rw [if_pos fails, if_pos fails]
        refine ⟨[.interned inst.endpointName, .removed inst.endpointName], ?_⟩
        simp [runEvents, localExec, localStep, checks, taken, fails, inits, Local.return, cleanupInstance,
          seen]
      · rw [if_neg fails, if_neg fails]
        refine ⟨[.interned inst.endpointName], ?_⟩
        simp [runEvents, localExec, localStep, checks, taken, not_not.mp fails, inits, Local.return, seen]

/-! ### Two calls -/

/-- What the first call leaves in the two fields that a second one does not always set. -/
theorem leftBy_fetcher (checks : checkInit lib.naming true a.modules a.appName a.runnerName s.toPcinst =
      (inst, .inr args)) :
    (leftBy lib a args inst s).enableRemoteFetcher = true ↔
      s.enableRemoteFetcher = true ∨ a.wantsFetcher lib := by
  rw [or_comm]
  exact started_fetcher (checkInit_inr checks).2.2 { s with toPcinst := inst }

theorem leftBy_log (checks : checkInit lib.naming true a.modules a.appName a.runnerName s.toPcinst =
      (inst, .inr args)) :
    (leftBy lib a args inst s).fpLog = .syslog ↔ LogsToSyslog lib s a := by
  refine FpLog.closed_eq_syslog.trans ⟨fun toSyslog => ⟨inst, args, checks, toSyslog⟩, ?_⟩
  rintro ⟨_, _, checks', toSyslog⟩
  rw [checks] at checks'
  obtain ⟨rfl, same⟩ := Prod.mk.inj checks'
  obtain rfl := Sum.inr.inj same
  exact toSyslog

theorem leftBy_log_or (lib : Library Extra) (call : InitCall Extra) (args : InitArgs) (inst : Pcinst)
    (s : Session) : (leftBy lib call args inst s).fpLog = .syslog ∨
      (leftBy lib call args inst s).fpLog = .null := by
  by_cases toSyslog : (started lib call args { s with toPcinst := inst }).fpLog = .syslog
  · exact .inl (FpLog.closed_eq_syslog.mpr toSyslog)
  · exact .inr (FpLog.closed_eq_null.mpr toSyslog)

/-- The second call on a thread that the first one has left, against a fresh thread. -/
def EndsAlike (lib : Library Extra) (names : Finset String) (b : InitCall Extra) (s : Session) : Prop :=
  (purcInitEx lib b names s).1 = (purcInitEx lib b names .fresh).1 ∧
    (purcInitEx lib b names s).2.2 = (purcInitEx lib b names .fresh).2.2

/-- A started call ends alike on two threads when its modules see the same. -/
theorem startInstance_alike (asked : args.modules = b.effective lib) (inst : Pcinst)
    (log : s.fpLog = .syslog ∨ s.fpLog = .null)
    (fetcher : s.enableRemoteFetcher = true → b.wantsFetcher lib)
    (enables : s.fpLog = .syslog → b.logEnable ≠ none) :
    startInstance lib b args names { s with toPcinst := inst } =
      startInstance lib b args names { Session.fresh with toPcinst := inst } := by
  apply startInstance_congr
  refine started_congr rfl ?_ ?_
  · rw [Bool.eq_iff_iff, started_fetcher asked, started_fetcher asked]
    refine or_congr_right' fun unwanted => ?_
    exact iff_of_false (fun set => unwanted (fetcher set)) nofun
  · rw [started_log, started_log, enableLogOnDemand, enableLogOnDemand]
    cases enable : b.logEnable with
    | some value => rfl
    | none => exact log.resolve_left fun toSyslog => enables toSyslog enable

/-- What two threads that end alike have to agree on. -/
theorem alike_of_startInstance (asked : args.modules = b.effective lib) {inst : Pcinst}
    (same : (startInstance lib b args names { s with toPcinst := inst }).2.2 =
      (startInstance lib b args names { Session.fresh with toPcinst := inst }).2.2) :
    (s.enableRemoteFetcher = true → b.wantsFetcher lib) ∧
      (s.fpLog = .syslog → b.logEnable ≠ none) := by
  obtain ⟨mine, mineLog⟩ := startInstance_leaves lib b args names { s with toPcinst := inst }
  obtain ⟨theirs, theirsLog⟩ :=
    startInstance_leaves lib b args names { Session.fresh with toPcinst := inst }
  rw [same] at mine mineLog
  refine ⟨fun set => ?_, fun toSyslog none_asked => ?_⟩
  · have alsoFresh := (started_fetcher asked { Session.fresh with toPcinst := inst }).mp
      ((theirs.symm.trans mine).trans ((started_fetcher asked _).mpr (.inr set)))
    exact alsoFresh.resolve_right nofun
  · -- without a new log the one thread keeps the system log and the other one has none
    rw [started_log, enableLogOnDemand, none_asked] at mineLog theirsLog
    change _ = s.fpLog ∨ _ = s.fpLog.closed at mineLog
    rw [toSyslog] at mineLog
    have kept : _ = FpLog.syslog := mineLog.elim id id
    have none_there : _ = FpLog.null := theirsLog.elim id id
    exact absurd (kept.symm.trans none_there) nofun

/-- **Alike** when the call starts, and sets the two fields that are not as on a fresh thread. -/
theorem endsAlike_iff (blank : Blank s.toPcinst) (noneInited : s.modulesInited = 0)
    (used : s.maxConns = fetcherMaxConns) (log : s.fpLog = .syslog ∨ s.fpLog = .null) :
    EndsAlike lib names b s ↔ (∃ args, Starts lib b names args) ∧
      (s.enableRemoteFetcher = true → b.wantsFetcher lib) ∧
      (s.fpLog = .syslog → b.logEnable ≠ none) := by
  by_cases starts : ∃ args, Starts lib b names args
  · obtain ⟨args, starts⟩ := starts
    have asked : args.modules = b.effective lib := by
      obtain ⟨_, checks, -⟩ := starts
      exact (checkInit_inr checks).2.2
    unfold EndsAlike
    rw [purcInitEx_started blank noneInited starts, purcInitEx_started blank_fresh rfl starts]
    constructor
    · rintro ⟨-, same⟩
      exact ⟨⟨args, starts⟩, alike_of_startInstance asked same⟩
    · rintro ⟨-, fetcher, enables⟩
      rw [startInstance_alike asked _ log fetcher enables]
      exact ⟨rfl, rfl⟩
  · refine iff_of_false ?_ fun all => starts all.1
    rintro ⟨-, same⟩
    have rejected := not_exists.mp starts
    have conns := congrArg Session.maxConns same
    rw [purcInitEx_rejected rejected blank, purcInitEx_rejected rejected blank_fresh, used] at conns
    cases conns

end Calls

/-- **A thread can be initialised again** as if it were fresh if and only if the second call is not
rejected, and sets what the first one left set. -/
theorem reinits_iff {Extra : Type} (lib : Library Extra) (names : Finset String) (s : Session)
    (a b : InitCall Extra) (ok : (purcInitEx lib a names s).1 = .ok) :
    Reinits lib names s a b ↔ LeavesNothing lib names s a b := by
  obtain ⟨inst, args, checks, left⟩ := left_by_cleanup ok
  have alike : Reinits lib names s a b ↔ EndsAlike lib names b (leftBy lib a args inst s) := by
    unfold Reinits
    dsimp only
    rw [left]
    exact Iff.rfl
  rw [alike, endsAlike_iff ⟨rfl, rfl, rfl⟩ rfl rfl (leftBy_log_or ..), leftBy_fetcher checks,
    leftBy_log checks]
  exact ⟨fun ⟨starts, fetcher, log⟩ => ⟨starts, fetcher, log⟩,
    fun ⟨starts, fetcher, log⟩ => ⟨starts, fetcher, log⟩⟩

/-- Names that are all valid, no modules with callbacks, and the third bit for the fetcher. -/
def tinyLibrary : Library Unit where
  naming := ⟨7, true, "app", fun _ => true, fun _ => true, fun app _ => (1, app), 2⟩
  haveFetcherR := 4
  logMaskDefault := 1
  logMaskAll := 7
  logMaskInfo := 2
  logMaskDebug := 4
  purcEnableLogEx _ useSyslog _ := if useSyslog then .syslog else .file "log"
  table _ _ := []

/-- A call with these modules, and the log settings. -/
def tinyCall (modules : BitVec 32) (log : Option String) : InitCall Unit :=
  ⟨modules, none, none, (), log, log⟩

/-- The second call asks for more than the first one. -/
theorem reinits_iff_more :
    (purcInitEx tinyLibrary (tinyCall 1 none) ∅ .fresh).1 = .ok ∧
      (Reinits tinyLibrary ∅ .fresh (tinyCall 1 none) (tinyCall 5 none) ↔
        LeavesNothing tinyLibrary ∅ .fresh (tinyCall 1 none) (tinyCall 5 none)) :=
  ⟨by decide, reinits_iff _ _ _ _ _ (by decide)⟩

/-- **What stays set**: the remote fetcher for a second call that does not ask for it, and the system
log for one without a log. -/
theorem reinit_keeps :
    ((purcInitEx tinyLibrary (tinyCall 5 none) ∅ .fresh).1 = .ok ∧
      ¬ Reinits tinyLibrary ∅ .fresh (tinyCall 5 none) (tinyCall 1 none)) ∧
    (purcInitEx tinyLibrary (tinyCall 1 (some "1")) ∅ .fresh).1 = .ok ∧
      ¬ Reinits tinyLibrary ∅ .fresh (tinyCall 1 (some "1")) (tinyCall 1 none) := by
  refine ⟨⟨by decide, fun alike => ?_⟩, by decide, fun alike => ?_⟩
  · exact absurd (congrArg Session.enableRemoteFetcher alike.2) (by decide)
  · exact absurd (congrArg Session.fpLog alike.2) (by decide)

end Aple.Purc
