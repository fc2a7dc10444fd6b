/-
**The semaphores of the shared surfaces.**

* `ownerOf`, `Balanced` — who a number is allocated to after the calls on the table, and that every
  call meets a table that fits: a number allocated is free, a number freed belongs to the caller.
* `SemState`, `semExec` — requests and disconnections of any clients, with a table that returns free
  numbers (or negative ones) and slots that are not used again.
* `Owned` — what the lists of the clients say about the table.
* **`shared_sems_owned`** — every call is balanced, and the lists of the connected clients hold the
  allocated numbers, each of them once.
-/

import Aple.ClientServer.Handlers
import Aple.ClientServer.ResList

namespace Aple.ClientServer

open Aple.Lib

/-! ### The table -/

/-- The client that a number is allocated to, after some calls (the newest first). -/
def ownerOf (semNum : Int32) : List SemCall → Option ℕ
  | [] => none
  | .alloc other cli :: past => if other = semNum then some cli else ownerOf semNum past
  | .free other _ :: past => if other = semNum then none else ownerOf semNum past

/-- A number is allocated when it is free, and freed for the client it is allocated to. -/
def Balanced : List SemCall → Prop
  | [] => True
  | .alloc semNum _ :: past => ownerOf semNum past = none ∧ Balanced past
  | .free semNum cli :: past => ownerOf semNum past = some cli ∧ Balanced past

/-- The numbers in a list of entries. -/
def semNums (entries : List (Entry ReleaseProc)) : List Int32 :=
  entries.map fun entry => entry.res.setWidth 32

/-! ### Requests and disconnections -/

/-- The server, and the slots that were released. -/
structure SemState where
  server : Server
  gone : List ℕ

def SemState.initial : SemState := ⟨ResState.initial ⟨[], []⟩, []⟩

/-- A request of a client, with what the table returns; or its end. -/
inductive SemEvent
  | alloc (cli : ℕ) (addr : Addr) (semNum : Int32)
  | free (fuel cli : ℕ) (semNum : Int32)
  | disconnect (fuel cli : ℕ)

def SemEvent.cli : SemEvent → ℕ
  | .alloc cli _ _ => cli
  | .free _ cli _ => cli
  | .disconnect _ cli => cli

/-- The table returns a free number, or a negative one. -/
def SemState.Offers (s : SemState) (semNum : Int32) : Prop :=
  0 ≤ semNum.toInt → ownerOf semNum s.server.world.log = none

instance (s : SemState) (semNum : Int32) : Decidable (s.Offers semNum) :=
  inferInstanceAs (Decidable (_ → _))

/-- Run an event; `none` when it is not possible, or the call faults or does not end. -/
def semExec (key : Word) (s : SemState) (event : SemEvent) : Option SemState :=
  if event.cli ∈ s.gone then none
  else match event with
    | .alloc cli addr semNum =>
      if s.Offers semNum then
        (allocSemForSharedSurf key cli addr semNum s.server).map fun reply => ⟨reply.2, s.gone⟩
      else none
    | .free fuel cli semNum =>
      (freeSemForSharedSurf key fuel cli semNum s.server).map fun reply => ⟨reply.2, s.gone⟩
    | .disconnect fuel cli =>
      (mgReleaseGlobalRes (callReleaseBy cli) fuel cli s.server).map fun server =>
        ⟨server, cli :: s.gone⟩

/-- Every interleaving of requests and disconnections. -/
def semSystem (key : Word) : System SemState SemEvent where
  init s := s = SemState.initial
  step s event after := semExec key s event = some after

/-! ### Lemmas about the table -/

@[simp] theorem setWidth_signExtend (semNum : Int32) :
    (semNum.signExtend 64).setWidth 32 = semNum := by
  refine BitVec.eq_of_getLsbD_eq fun i bound => ?_
  have wide : i < 64 := by omega
  rw [BitVec.getLsbD_setWidth, BitVec.getLsbD_signExtend]
  simp [bound, wide]

/-- Freeing some numbers of one client. -/
def freeAll (cli : ℕ) (semNums : List Int32) (log : List SemCall) : List SemCall :=
  semNums.foldl (fun log semNum => .free semNum cli :: log) log

theorem ownerOf_freeAll (cli : ℕ) (semNum : Int32) (semNums : List Int32) (log : List SemCall) :
    ownerOf semNum (freeAll cli semNums log) =
      if semNum ∈ semNums then none else ownerOf semNum log := by
  induction semNums generalizing log with
  | nil => rfl
  | cons first rest ih =>
    show ownerOf semNum (freeAll cli rest (.free first cli :: log)) = _
    rw [ih]
    by_cases later : semNum ∈ rest
    · rw [if_pos later, if_pos (List.mem_cons_of_mem _ later)]
    · by_cases same : first = semNum
      · simp [ownerOf, same]
      · simp [ownerOf, same, later, Ne.symm same]

theorem balanced_freeAll {cli : ℕ} {semNums : List Int32} {log : List SemCall}
    (balanced : Balanced log) (distinct : semNums.Nodup)
    (owned : ∀ semNum ∈ semNums, ownerOf semNum log = some cli) :
    Balanced (freeAll cli semNums log) := by
  induction semNums generalizing log with
  | nil => exact balanced
  | cons first rest ih =>
    obtain ⟨once, distinct⟩ := List.nodup_cons.mp distinct
    refine ih ⟨owned first List.mem_cons_self, balanced⟩ distinct ?_
    intro semNum member
    have differs : first ≠ semNum := fun same => once (same ▸ member)
    rw [ownerOf, if_neg differs]
    exact owned semNum (List.mem_cons_of_mem _ member)

/-- Releasing semaphores frees their numbers. -/
theorem foldl_log {cli : ℕ} {entries : List (Entry ReleaseProc)}
    (sems : ∀ entry ∈ entries, entry.releaseProc = some .myReleaseSemForSharedSurf)
    (world : ServerWorld) : (entries.foldl (Entry.callOn (callReleaseBy cli)) world).log =
      freeAll cli (semNums entries) world.log := by
  induction entries generalizing world with
  | nil => rfl
  | cons entry rest ih =>
    rw [List.foldl_cons, ih fun other member => sems other (List.mem_cons_of_mem _ member)]
    simp only [Entry.callOn, sems entry List.mem_cons_self, callReleaseBy]
    rfl

/-! ### What the lists say -/

/-- The lists of the connected clients hold the allocated numbers. -/
structure Owned (key : Word) (s : SemState) (lists : ℕ → List (Entry ReleaseProc)) : Prop where
  balanced : Balanced s.server.world.log
  shape : ∀ cli, cli ∉ s.gone → ∀ entry ∈ lists cli, entry.key = key ∧
    entry.releaseProc = some .myReleaseSemForSharedSurf ∧
      entry.res = (entry.res.setWidth 32).signExtend 64
  owner : ∀ semNum cli, ownerOf semNum s.server.world.log = some cli ↔
    cli ∉ s.gone ∧ semNum ∈ semNums (lists cli)
  distinct : ∀ cli, cli ∉ s.gone → (semNums (lists cli)).Nodup

/-- Lists and heap together. -/
def SemInv (key : Word) (s : SemState) : Prop :=
  ∃ lists nodes, Holds (fun cli => cli ∉ s.gone) s.server lists nodes ∧ Owned key s lists

namespace Owned

variable {key : Word} {s : SemState} {lists : ℕ → List (Entry ReleaseProc)} {cli : ℕ}
  {server : Server}

/-- A number that was free is recorded by a connected client. -/
theorem alloc (owned : Owned key s lists) (on : cli ∉ s.gone) {semNum : Int32}
    (free : ownerOf semNum s.server.world.log = none) {entry : Entry ReleaseProc}
    (entry_eq : entry.key = key ∧ entry.res = semNum.signExtend 64 ∧
      entry.releaseProc = some .myReleaseSemForSharedSurf)
    (log : server.world.log = .alloc semNum cli :: s.server.world.log) :
    Owned key ⟨server, s.gone⟩ (Function.update lists cli (entry :: lists cli)) := by
  obtain ⟨isKey, isRes, isProc⟩ := entry_eq
  have number : entry.res.setWidth 32 = semNum := by rw [isRes, setWidth_signExtend]
  have unlisted : ∀ other, other ∉ s.gone → semNum ∉ semNums (lists other) := by
    intro other otherOn member
    rw [(owned.owner semNum other).mpr ⟨otherOn, member⟩] at free
    cases free
  constructor
  case balanced =>
    rw [log]
    exact ⟨free, owned.balanced⟩
  case shape =>
    intro other otherOn mine member
    by_cases same : other = cli
    · subst same
      rw [Function.update_self] at member
      rcases List.mem_cons.mp member with rfl | old
      · exact ⟨isKey, isProc, by rw [number, isRes]⟩
      · exact owned.shape other otherOn mine old
    · rw [Function.update_of_ne same] at member
      exact owned.shape other otherOn mine member
  case owner =>
    intro other someone
    rw [log, ownerOf]
    by_cases same : someone = cli
    · subst same
      rw [Function.update_self, semNums, List.map_cons, number, List.mem_cons]
      by_cases isNew : semNum = other
      · simp [isNew, on]
      · rw [if_neg isNew, owned.owner other someone, or_iff_right (Ne.symm isNew)]
        rfl
    · rw [Function.update_of_ne same]
      by_cases isNew : semNum = other
      · subst isNew
        rw [if_pos rfl]
        constructor
        · intro mine
          exact absurd (Option.some.inj mine).symm same
        · rintro ⟨someoneOn, member⟩
          exact absurd member (unlisted someone someoneOn)
      · rw [if_neg isNew]
        exact owned.owner other someone
  case distinct =>
    intro other otherOn
    by_cases same : other = cli
    · subst same
      rw [Function.update_self, semNums, List.map_cons, number]
      exact List.nodup_cons.mpr ⟨unlisted other otherOn, owned.distinct other otherOn⟩
    · rw [Function.update_of_ne same]
      exact owned.distinct other otherOn

/-- Some records of a client go, and their numbers are freed; a client that goes has none left. -/
theorem drop (owned : Owned key s lists) (on : cli ∉ s.gone) {entries rest : List (Entry ReleaseProc)}
    (perm : (lists cli).Perm (entries ++ rest)) {gone : List ℕ}
    (left : gone = s.gone ∨ gone = cli :: s.gone ∧ rest = [])
    (log : server.world.log = freeAll cli (semNums entries) s.server.world.log) :
    Owned key ⟨server, gone⟩ (Function.update lists cli rest) := by
  have nums : (semNums (lists cli)).Perm (semNums entries ++ semNums rest) := by
    rw [semNums, semNums, semNums, ← List.map_append]
    exact perm.map _
  obtain ⟨distinctEntries, distinctRest, apart⟩ :=
    List.nodup_append.mp ((nums.nodup_iff).mp (owned.distinct cli on))
  have mine : ∀ semNum ∈ semNums entries, ownerOf semNum s.server.world.log = some cli :=
    fun semNum member =>
      (owned.owner semNum cli).mpr ⟨on, nums.mem_iff.mpr (List.mem_append_left _ member)⟩
  have stays : ∀ other, other ∉ gone → other ∉ s.gone := by
    intro other otherOn was
    rcases left with rfl | ⟨rfl, -⟩
    · exact otherOn was
    · exact otherOn (List.mem_cons_of_mem _ was)
  constructor
  case balanced =>
    rw [log]
    exact balanced_freeAll owned.balanced distinctEntries mine
  case shape =>
    intro other otherOn entry member
    by_cases same : other = cli
    · subst same
      rw [Function.update_self] at member
      exact owned.shape other on entry (perm.mem_iff.mpr (List.mem_append_right _ member))
    · rw [Function.update_of_ne same] at member
      exact owned.shape other (stays other otherOn) entry member
  case owner =>
    intro semNum someone
    rw [log, ownerOf_freeAll]
    by_cases same : someone = cli
    · subst same
      rw [Function.update_self]
      have listed : semNum ∈ semNums (lists someone) ↔
          semNum ∈ semNums entries ∨ semNum ∈ semNums rest := by
        rw [nums.mem_iff, List.mem_append]
      by_cases freed : semNum ∈ semNums entries
      · rw [if_pos freed]
        constructor
        · exact nofun
        · rintro ⟨-, remains⟩
          exact absurd rfl (apart semNum freed semNum remains)
      · rw [if_neg freed, owned.owner semNum someone, listed, or_iff_right freed]
        rcases left with rfl | ⟨rfl, rfl⟩
        · rfl
        · constructor
          · rintro ⟨-, none⟩
            cases none
          · rintro ⟨-, none⟩
            cases none
    · rw [Function.update_of_ne same]
      have connected : someone ∉ gone ↔ someone ∉ s.gone := by
        rcases left with rfl | ⟨rfl, -⟩
        · rfl
        · rw [List.mem_cons, not_or, and_iff_right same]
      rw [connected, ← owned.owner semNum someone]
      by_cases freed : semNum ∈ semNums entries
      · rw [if_pos freed, mine semNum freed]
        constructor
        · exact nofun
        · intro other
          exact absurd (Option.some.inj other).symm same
      · rw [if_neg freed]
  case distinct =>
    intro other otherOn
    by_cases same : other = cli
    · subst same
      rw [Function.update_self]
      exact distinctRest
    · rw [Function.update_of_ne same]
      exact owned.distinct other (stays other otherOn)

end Owned

/-! ### Every run -/

variable {key : Word} {s after : SemState} {event : SemEvent}

theorem semInv_initial (key : Word) : SemInv key SemState.initial := by
  refine ⟨fun _ => [], fun _ => [], ⟨fun _ _ => rfl, fun _ _ => rfl, ?_⟩, trivial, nofun, ?_, ?_⟩
  · intro _ _ _ _ _ addr member
    cases member
  · intro semNum cli
    constructor
    · exact nofun
    · rintro ⟨-, member⟩
      cases member
  · exact fun _ _ => List.nodup_nil

/-- **One event** keeps lists and heap. -/
theorem semInv_step (inv : SemInv key s) (runs : semExec key s event = some after) :
    SemInv key after := by
  obtain ⟨lists, nodes, holds, owned⟩ := inv
  unfold semExec at runs
  by_cases gone : event.cli ∈ s.gone
  · rw [if_pos gone] at runs
    cases runs
  rw [if_neg gone] at runs
  cases event with
  | alloc cli addr semNum =>
    have on : cli ∉ s.gone := gone
    by_cases offers : s.Offers semNum
    · simp only [if_pos offers, allocSemForSharedSurf] at runs
      by_cases positive : 0 ≤ semNum.toInt
      · rw [if_pos positive, Option.map_map] at runs
        obtain ⟨server, adds, rfl⟩ := Option.map_eq_some_iff.mp runs
        have called : Holds (fun cli => cli ∉ s.gone) { s.server with world := { s.server.world with
            log := .alloc semNum cli :: s.server.world.log } } lists nodes :=
          ⟨holds.linked, holds.records, holds.apart⟩
        obtain ⟨holds', effect⟩ := addGlobalRes_inv called on adds
        refine ⟨_, _, holds', owned.alloc on (offers positive) ⟨rfl, rfl, rfl⟩ ?_⟩
        show server.world.log = _
        rw [effect.world]
      · rw [if_neg positive] at runs
        obtain rfl := Option.some.inj runs
        exact ⟨lists, nodes, holds, owned⟩
    · simp only [if_neg offers] at runs
      cases runs
  | free fuel cli semNum =>
    have on : cli ∉ s.gone := gone
    simp only [freeSemForSharedSurf, Option.map_map] at runs
    obtain ⟨server, removes, rfl⟩ := Option.map_eq_some_iff.mp runs
    obtain ⟨after', newNodes, yields, holds', dropped⟩ :=
      delGlobalRes_spec (callReleaseBy cli) cli holds on key (semNum.signExtend 64)
    obtain rfl := yields.only fuel server removes
    refine ⟨_, _, holds', owned.drop on (perm_find_eraseP _ _) (.inl rfl) ?_⟩
    show server.world.log = _
    rw [dropped.world, foldl_log]
    intro entry member
    have found := List.mem_of_find?_eq_some (Option.mem_toList.mp member)
    exact (owned.shape cli on entry found).2.1
  | disconnect fuel cli =>
    have on : cli ∉ s.gone := gone
    obtain ⟨server, releases, rfl⟩ := Option.map_eq_some_iff.mp runs
    obtain ⟨after', yields, holds', freed⟩ :=
      mgReleaseGlobalRes_spec (callReleaseBy cli) cli holds on
    obtain rfl := yields.only fuel server releases
    have all : (lists cli).Perm (lists cli ++ []) := by rw [List.append_nil]
    refine ⟨Function.update lists cli [], nodes, ?_, owned.drop on all (.inr ⟨rfl, rfl⟩) ?_⟩
    · have same : (fun other => other ∉ cli :: s.gone) = fun other => other ∉ s.gone ∧ other ≠ cli := by
        funext other
        rw [List.mem_cons, not_or, and_comm]
      show Holds (fun other => other ∉ cli :: s.gone) server _ _
      rw [same]
      exact holds'
    · show server.world.log = _
      rw [freed.dropped.world, foldl_log]
      exact fun entry member => (owned.shape cli on entry member).2.1

/-- What is promised in every state. -/
structure SemsOwned (key : Word) (s : SemState) (recorded : ℕ → List Int32) : Prop where
  /-- Every number is freed for the client it is allocated to, once for each time it is
  allocated. -/
  balanced : Balanced s.server.world.log
  /-- The numbers in the resource list of a connected client. -/
  listed : ∀ cli, cli ∉ s.gone → ∃ entries, Listed s.server cli entries ∧
    entries.map (fun entry => (entry.key, entry.res)) =
      (recorded cli).map fun semNum => (key, semNum.signExtend 64)
  /-- No number is twice in a list. -/
  distinct : ∀ cli, cli ∉ s.gone → (recorded cli).Nodup
  /-- No number is in the lists of two clients. -/
  disjoint : ∀ cli other, cli ∉ s.gone → other ∉ s.gone → cli ≠ other →
    ∀ semNum ∈ recorded cli, semNum ∉ recorded other
  /-- The numbers in the lists are the ones allocated, each to the client that has it there. -/
  union : ∀ semNum cli, ownerOf semNum s.server.world.log = some cli ↔
    cli ∉ s.gone ∧ semNum ∈ recorded cli

/-- **The shared semaphores are owned by the connected clients**, in every state reached. -/
theorem shared_sems_owned (key : Word) {s : SemState} (reached : (semSystem key).Reachable s) :
    ∃ recorded, SemsOwned key s recorded := by
  have inv : SemInv key s := by
    refine reached.invariant (SemInv key) ?_ ?_
    · rintro _ rfl
      exact semInv_initial key
    · exact fun _ _ _ _ inv _ runs => semInv_step inv runs
  obtain ⟨lists, nodes, holds, owned⟩ := inv
  refine ⟨fun cli => semNums (lists cli), owned.balanced, ?_, owned.distinct, ?_, owned.owner⟩
  · intro cli on
    refine ⟨lists cli, holds.listed cli on, ?_⟩
    rw [semNums, List.map_map]
    refine List.map_congr_left fun entry member => ?_
    obtain ⟨isKey, -, isRes⟩ := owned.shape cli on entry member
    rw [isKey]
    exact congrArg (Prod.mk key) isRes
  · intro cli other on otherOn differs semNum mine theirs
    have both := (owned.owner semNum cli).mpr ⟨on, mine⟩
    rw [(owned.owner semNum other).mpr ⟨otherOn, theirs⟩] at both
    exact differs (Option.some.inj both).symm

/-- Two clients, a number that is used again, a foreign request and a disconnection. -/
theorem shared_sems_owned_example : ∃ s recorded, SemsOwned 1 s recorded ∧ s.gone = [0] := by
  have start : (semSystem 1).Reachable SemState.initial := .start rfl
  have first := start.by_event (SemEvent.alloc 0 16 7) trivial rfl
  have second := first.by_event (SemEvent.free 1 1 7) trivial rfl
  have third := second.by_event (SemEvent.disconnect 2 0) trivial rfl
  have fourth := third.by_event (SemEvent.alloc 1 16 7) trivial rfl
  obtain ⟨recorded, owned⟩ := shared_sems_owned 1 fourth
  exact ⟨_, recorded, owned, rfl⟩

end Aple.ClientServer
