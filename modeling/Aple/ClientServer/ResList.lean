/-
**The resource lists of the clients.**

* `Entry` — a record without its pointers. `Holds connected s lists nodes`: the heap of `s`
  represents the lists of the connected slots, and no two of them share a record.
* `addGlobalRes_spec`, `delGlobalRes_spec`, `mgReleaseGlobalRes_spec` — the functions on the heap
  are the list operations `add`, `eraseP` and "all of them".
* `Accounts` — the history of every record added: in a list, or called and freed once.
* `ResOk` — what is promised between two calls, with what the next calls do.
* **`res_list_ok_when_spared`** — it holds in every run that releases empty lists only;
  `released_head_dangles` is a run that releases another one.
-/

import Aple.ClientServer.GlobalRes

namespace Aple.ClientServer

open Aple.Lib

/-! ### Lists of entries -/

/-- A record without its pointers. -/
structure Entry (Proc : Type) where
  key : Word
  res : Word
  releaseProc : Option Proc
  serial : ℕ
deriving DecidableEq, Repr

section Lists

variable {Proc World : Type}

def GlobalRes.entry (record : GlobalRes Proc) : Entry Proc :=
  ⟨record.key, record.res, record.releaseProc, record.serial⟩

/-- The test of `del_global_res`. -/
def Entry.hit (key res : Word) (entry : Entry Proc) : Bool := entry.key == key && entry.res == res

/-- What the release procedure of an entry does. -/
def Entry.callOn (call : Proc → Word → World → World) (world : World) (entry : Entry Proc) : World :=
  match entry.releaseProc with
  | none => world
  | some proc => call proc entry.res world

/-- The entries whose procedure is called when they are released. -/
def calledSerials (entries : List (Entry Proc)) : List ℕ :=
  (entries.filter fun entry => entry.releaseProc.isSome).map Entry.serial

def ResState.entryAt (s : ResState Proc World) (addr : Addr) : Option (Entry Proc) :=
  (s.cells addr).map GlobalRes.entry

/-- The heap represents the lists of the connected slots. -/
structure Holds (connected : ℕ → Prop) (s : ResState Proc World) (lists : ℕ → List (Entry Proc))
    (nodes : ℕ → List Addr) : Prop where
  linked : ∀ cli, connected cli → DList s.next s.prev (s.globalRes cli) (nodes cli)
  records : ∀ cli, connected cli → (nodes cli).map s.entryAt = (lists cli).map some
  apart : ∀ cli cli', connected cli → connected cli' → cli ≠ cli' →
    ∀ addr ∈ nodes cli, addr ∉ nodes cli'

/-- The pointers of two states, and that nothing else differs. -/
structure Links (s after : ResState Proc World) (next prev : Addr → Ptr) : Prop where
  next : after.next = next
  prev : after.prev = prev
  entryAt : after.entryAt = s.entryAt
  globalRes : after.globalRes = s.globalRes
  world : after.world = s.world
  added : after.added = s.added
  released : after.released = s.released
  freed : after.freed = s.freed

variable {connected : ℕ → Prop} {s after : ResState Proc World} {lists : ℕ → List (Entry Proc)}
  {nodes : ℕ → List Addr} {cli : ℕ} {addr : Addr} {record : GlobalRes Proc} {target : Ptr}

/-! ### Writes -/

/-- A write of a record that keeps its entry. -/
theorem store_entryAt (live : s.cells addr = some record) {record' : GlobalRes Proc}
    (same : record'.entry = record.entry) : (s.store addr record').entryAt = s.entryAt := by
  funext other
  by_cases here : other = addr
  · subst here
    simp [ResState.entryAt, ResState.store, live, same]
  · simp [ResState.entryAt, ResState.store, here]

theorem store_next (record' : GlobalRes Proc) :
    (s.store addr record').next = Function.update s.next addr record'.next := by
  funext other
  by_cases here : other = addr
  · subst here
    simp [ResState.next, ResState.store]
  · simp [ResState.next, ResState.store, here]

theorem store_prev (record' : GlobalRes Proc) :
    (s.store addr record').prev = Function.update s.prev addr record'.prev := by
  funext other
  by_cases here : other = addr
  · subst here
    simp [ResState.prev, ResState.store]
  · simp [ResState.prev, ResState.store, here]

theorem setNext_spec (value : Ptr)
    (live : ∀ addr, target = some addr → ∃ record, s.cells addr = some record) :
    ∃ after, s.setNext target value = some after ∧
      Links s after (setAt s.next target value) s.prev := by
  cases target with
  | none => exact ⟨s, rfl, rfl, rfl, rfl, rfl, rfl, rfl, rfl, rfl⟩
  | some addr =>
    obtain ⟨record, found⟩ := live addr rfl
    refine ⟨s.store addr { record with next := value }, ?_, store_next _, ?_, store_entryAt found rfl,
      rfl, rfl, rfl, rfl, rfl⟩
    · simp [ResState.setNext, found]
    · rw [store_prev]
      refine Function.update_eq_iff.mpr ⟨?_, fun _ _ => rfl⟩
      simp [ResState.prev, found]

theorem setPrev_spec (value : Ptr)
    (live : ∀ addr, target = some addr → ∃ record, s.cells addr = some record) :
    ∃ after, s.setPrev target value = some after ∧
      Links s after s.next (setAt s.prev target value) := by
  cases target with
  | none => exact ⟨s, rfl, rfl, rfl, rfl, rfl, rfl, rfl, rfl, rfl⟩
  | some addr =>
    obtain ⟨record, found⟩ := live addr rfl
    refine ⟨s.store addr { record with prev := value }, ?_, ?_, store_prev _, store_entryAt found rfl,
      rfl, rfl, rfl, rfl, rfl⟩
    · simp [ResState.setPrev, found]
    · rw [store_next]
      refine Function.update_eq_iff.mpr ⟨?_, fun _ _ => rfl⟩
      simp [ResState.next, found]

namespace Holds

/-- The records of a list are allocated. -/
theorem live (holds : Holds connected s lists nodes) (on : connected cli) (member : addr ∈ nodes cli) :
    ∃ record, s.cells addr = some record := by
  have listed : s.entryAt addr ∈ (lists cli).map some := by
    rw [← holds.records cli on]
    exact List.mem_map_of_mem member
  obtain ⟨entry, -, found⟩ := List.mem_map.mp listed
  obtain ⟨record, found, -⟩ := Option.map_eq_some_iff.mp found.symm
  exact ⟨record, found⟩

theorem nodup (holds : Holds connected s lists nodes) (on : connected cli) : (nodes cli).Nodup :=
  (holds.linked cli on).nodup

/-- The same lists in another state, where the pointers and entries of their records are the
same. -/
theorem congr (holds : Holds connected s lists nodes) {connected' : ℕ → Prop}
    (fewer : ∀ cli, connected' cli → connected cli)
    (next : ∀ cli, connected' cli → ∀ addr ∈ nodes cli, after.next addr = s.next addr)
    (prev : ∀ cli, connected' cli → ∀ addr ∈ nodes cli, after.prev addr = s.prev addr)
    (entryAt : ∀ cli, connected' cli → ∀ addr ∈ nodes cli, after.entryAt addr = s.entryAt addr)
    (globalRes : ∀ cli, connected' cli → after.globalRes cli = s.globalRes cli) :
    Holds connected' after lists nodes where
  linked cli on := by
    rw [globalRes cli on]
    exact (holds.linked cli (fewer cli on)).congr (next cli on) (prev cli on)
  records cli on := by
    rw [← holds.records cli (fewer cli on)]
    exact List.map_congr_left (entryAt cli on)
  apart cli cli' on on' := holds.apart cli cli' (fewer cli on) (fewer cli' on')

/-- **One list changes**, in records of its own or new ones. -/
theorem change (holds : Holds connected s lists nodes) (on : connected cli) {newNodes : List Addr}
    {newList : List (Entry Proc)} (linked : DList after.next after.prev (after.globalRes cli) newNodes)
    (records : newNodes.map after.entryAt = newList.map some)
    (own : ∀ addr ∈ newNodes, addr ∈ nodes cli ∨ s.cells addr = none)
    (others : ∀ other, other ≠ cli → connected other → ∀ addr ∈ nodes other,
      after.next addr = s.next addr ∧ after.prev addr = s.prev addr ∧
        after.entryAt addr = s.entryAt addr)
    (globalRes : ∀ other, other ≠ cli → after.globalRes other = s.globalRes other) :
    Holds connected after (Function.update lists cli newList)
      (Function.update nodes cli newNodes) := by
  have stranger :
      ∀ other, other ≠ cli → connected other → ∀ addr ∈ newNodes, addr ∉ nodes other := by
    intro other differs otherOn addr member elsewhere
    rcases own addr member with mine | unused
    · exact holds.apart cli other on otherOn (Ne.symm differs) addr mine elsewhere
    · obtain ⟨record, found⟩ := holds.live otherOn elsewhere
      rw [unused] at found
      cases found
  constructor
  case linked =>
    intro other otherOn
    by_cases same : other = cli
    · subst same
      rw [Function.update_self]
      exact linked
    · rw [Function.update_of_ne same, globalRes other same]
      exact (holds.linked other otherOn).congr
        (fun addr member => (others other same otherOn addr member).1)
        fun addr member => (others other same otherOn addr member).2.1
  case records =>
    intro other otherOn
    by_cases same : other = cli
    · subst same
      rw [Function.update_self, Function.update_self]
      exact records
    · rw [Function.update_of_ne same, Function.update_of_ne same, ← holds.records other otherOn]
      exact List.map_congr_left fun addr member => (others other same otherOn addr member).2.2
  case apart =>
    intro first second firstOn secondOn differs addr member
    by_cases isFirst : first = cli
    · subst isFirst
      rw [Function.update_self] at member
      rw [Function.update_of_ne (Ne.symm differs)]
      exact stranger second (Ne.symm differs) secondOn addr member
    · rw [Function.update_of_ne isFirst] at member
      by_cases isSecond : second = cli
      · subst isSecond
        rw [Function.update_self]
        exact fun mine => stranger first isFirst firstOn addr mine member
      · rw [Function.update_of_ne isSecond]
        exact holds.apart first second firstOn secondOn differs addr member

end Holds

/-! ### add_global_res -/

/-- What `add_global_res` leaves: a new record before the head of the slot. -/
structure Added (s after : ResState Proc World) (cli : ℕ) (addr : Addr) (entry : Entry Proc) :
    Prop where
  next : after.next = Function.update s.next addr (s.globalRes cli)
  prev : after.prev = setAt (Function.update s.prev addr none) (s.globalRes cli) (some addr)
  entryAt : after.entryAt = Function.update s.entryAt addr (some entry)
  globalRes : after.globalRes = Function.update s.globalRes cli (some addr)
  world : after.world = s.world
  added : after.added = s.added ++ [(cli, entry.releaseProc)]
  released : after.released = s.released
  freed : after.freed = s.freed

theorem store_entryAt_new (record' : GlobalRes Proc) :
    (s.store addr record').entryAt = Function.update s.entryAt addr (some record'.entry) := by
  funext other
  by_cases here : other = addr
  · subst here
    simp [ResState.entryAt, ResState.store]
  · simp [ResState.entryAt, ResState.store, here]

theorem addGlobalRes_added (unused : s.cells addr = none)
    (head : ∀ first, s.globalRes cli = some first → ∃ record, s.cells first = some record)
    (key res : Word) (releaseProc : Option Proc) :
    ∃ after, addGlobalRes cli addr key res releaseProc s = some after ∧
      Added s after cli addr ⟨key, res, releaseProc, s.added.length⟩ := by
  set record : GlobalRes Proc := ⟨none, none, key, res, releaseProc, s.added.length⟩ with recordEq
  set logged : ResState Proc World :=
    { s with added := s.added ++ [(cli, releaseProc)] } with loggedEq
  by_cases empty : s.globalRes cli = none
  · refine ⟨(logged.store addr record).setHead cli (some addr), ?_, ?_⟩
    · simp [addGlobalRes, unused, empty, loggedEq, recordEq]
    · refine ⟨?_, ?_, store_entryAt_new _, rfl, rfl, rfl, rfl, rfl⟩
      · rw [empty]
        exact store_next _
      · rw [empty]
        exact store_prev _
  · have headLive : ∀ first, s.globalRes cli = some first → ∃ record',
        (logged.store addr { record with next := s.globalRes cli }).cells first = some record' := by
      intro first atHead
      obtain ⟨old, found⟩ := head first atHead
      refine ⟨old, ?_⟩
      have differs : first ≠ addr := by
        rintro rfl
        rw [unused] at found
        cases found
      exact (Function.update_of_ne differs ..).trans found
    obtain ⟨relinked, writes, links⟩ := setPrev_spec (some addr) headLive
    refine ⟨relinked.setHead cli (some addr), ?_, ?_⟩
    · simp only [addGlobalRes, unused]
      show (if s.globalRes cli = none then _ else _) = _
      rw [if_neg empty]
      show Option.map _ (ResState.setPrev _ (s.globalRes cli) (some addr)) = _
      rw [writes]
      rfl
    · refine ⟨?_, ?_, ?_, ?_, links.world, links.added, links.released, links.freed⟩
      · exact links.next.trans (store_next _)
      · refine links.prev.trans ?_
        rw [store_prev]
        rfl
      · refine links.entryAt.trans ?_
        exact store_entryAt_new _
      · show Function.update relinked.globalRes cli (some addr) = _
        rw [links.globalRes]
        rfl

/-- **`add_global_res` puts a record in front.** -/
theorem addGlobalRes_spec (holds : Holds connected s lists nodes) (on : connected cli)
    (unused : s.cells addr = none) (key res : Word) (releaseProc : Option Proc) :
    ∃ after, addGlobalRes cli addr key res releaseProc s = some after ∧
      Holds connected after
        (Function.update lists cli (⟨key, res, releaseProc, s.added.length⟩ :: lists cli))
        (Function.update nodes cli (addr :: nodes cli)) ∧
      Added s after cli addr ⟨key, res, releaseProc, s.added.length⟩ := by
  have linked := holds.linked cli on
  have headListed : ∀ first, s.globalRes cli = some first → first ∈ nodes cli := by
    intro first atHead
    rw [isList_head linked.isList] at atHead
    exact List.mem_of_mem_head? atHead
  obtain ⟨after, adds, effect⟩ := addGlobalRes_added unused
    (fun first atHead => holds.live on (headListed first atHead)) key res releaseProc
  have known : ∀ other ∈ nodes cli, other ≠ addr := by
    rintro other member rfl
    obtain ⟨record, found⟩ := holds.live on member
    rw [unused] at found
    cases found
  refine ⟨after, adds, holds.change on ?_ ?_ ?_ ?_ ?_, effect⟩
  · rw [effect.globalRes, Function.update_self]
    refine linked.pushFront ?_ ?_ ?_ ?_
    · rw [effect.next, Function.update_self]
    · rw [effect.prev, setAt_off fun same => known addr (headListed addr same) rfl,
        Function.update_self]
    · intro other member
      rw [effect.next, Function.update_of_ne (known other member)]
    · intro other member
      rw [effect.prev]
      cases atHead : s.globalRes cli with
      | none => exact Function.update_of_ne (known other member) ..
      | some first =>
        show Function.update (Function.update s.prev addr none) first (some addr) other =
          Function.update s.prev first (some addr) other
        by_cases isHead : other = first
        · rw [isHead, Function.update_self, Function.update_self]
        · rw [Function.update_of_ne isHead, Function.update_of_ne isHead,
            Function.update_of_ne (known other member)]
  · rw [List.map_cons, List.map_cons, effect.entryAt, Function.update_self, ← holds.records cli on]
    refine congrArg _ (List.map_congr_left fun other member => ?_)
    exact Function.update_of_ne (known other member) ..
  · intro other member
    rcases List.mem_cons.mp member with rfl | old
    · exact .inr unused
    · exact .inl old
  · intro other differs otherOn there member
    have apart : there ≠ addr := by
      rintro rfl
      obtain ⟨record, found⟩ := holds.live otherOn member
      rw [unused] at found
      cases found
    rw [effect.next, effect.prev, effect.entryAt, Function.update_of_ne apart,
      Function.update_of_ne apart, setAt_off, Function.update_of_ne apart]
    · exact ⟨rfl, rfl, rfl⟩
    · intro atHead
      exact holds.apart other cli otherOn on differs there member (headListed there atHead)
  · intro other differs
    rw [effect.globalRes, Function.update_of_ne differs]

/-- The same, from a call that returned. -/
theorem addGlobalRes_inv (holds : Holds connected s lists nodes) (on : connected cli)
    {key res : Word}
    {releaseProc : Option Proc} (adds : addGlobalRes cli addr key res releaseProc s = some after) :
    Holds connected after
      (Function.update lists cli (⟨key, res, releaseProc, s.added.length⟩ :: lists cli))
      (Function.update nodes cli (addr :: nodes cli)) ∧
    Added s after cli addr ⟨key, res, releaseProc, s.added.length⟩ := by
  have unused : s.cells addr = none := by
    by_contra used
    obtain ⟨record, found⟩ := Option.ne_none_iff_exists'.mp used
    simp [addGlobalRes, found] at adds
  obtain ⟨after', adds', spec⟩ := addGlobalRes_spec holds on unused key res releaseProc
  rw [Option.some.inj (adds.symm.trans adds')]
  exact spec

/-! ### del_global_res -/

/-- The node a walk stands at holds the record of its entry. -/
theorem Holds.here (holds : Holds connected s lists nodes) (on : connected cli)
    {front back : List Addr} {entries : List (Entry Proc)} (nodes_eq : nodes cli = front ++ addr :: back)
    (backs : (addr :: back).map s.entryAt = entries.map some) :
    ∃ record behind, s.cells addr = some record ∧ entries = record.entry :: behind ∧
      s.entryAt addr = some record.entry ∧ back.map s.entryAt = behind.map some := by
  have member : addr ∈ nodes cli := by
    rw [nodes_eq]
    exact List.mem_append_right _ List.mem_cons_self
  obtain ⟨record, found⟩ := holds.live on member
  obtain ⟨entry, behind, rfl, here, rest⟩ := List.map_eq_cons_iff.mp backs.symm
  have entry_eq : entry = record.entry := by
    rw [ResState.entryAt, found] at here
    exact Option.some.inj here
  subst entry_eq
  exact ⟨record, behind, found, rfl, here.symm, rest.symm⟩

/-- What the removal of `entries` does besides the lists. -/
structure Dropped (call : Proc → Word → World → World) (s after : ResState Proc World)
    (entries : List (Entry Proc)) : Prop where
  world : after.world = entries.foldl (Entry.callOn call) s.world
  added : after.added = s.added
  released : after.released = s.released ++ calledSerials entries
  freed : after.freed = s.freed ++ entries.map Entry.serial

/-- The procedure of a record, on its entry. -/
theorem callReleaseProc_eq (call : Proc → Word → World → World) (record : GlobalRes Proc)
    (s : ResState Proc World) : callReleaseProc call record s = { s with
      world := record.entry.callOn call s.world
      released := s.released ++ calledSerials [record.entry] } := by
  cases proc : record.releaseProc with
  | none => simp [callReleaseProc, proc, Entry.callOn, calledSerials, GlobalRes.entry]
  | some f => simp [callReleaseProc, proc, Entry.callOn, calledSerials, GlobalRes.entry]

/-- Where the search ends: behind the list, or at the first record that is hit. -/
def Searched (s : ResState Proc World) (nodes : List Addr) (entries : List (Entry Proc))
    (key res : Word) : Option (Addr × GlobalRes Proc) → Prop
  | none => ∀ entry ∈ entries, entry.hit key res = false
  | some (addr, record) => s.cells addr = some record ∧ record.entry.hit key res = true ∧
      ∃ front back before behind, nodes = front ++ addr :: back ∧
        entries = before ++ record.entry :: behind ∧ front.map s.entryAt = before.map some ∧
          back.map s.entryAt = behind.map some ∧ ∀ entry ∈ before, entry.hit key res = false

/-- The search goes along the list. -/
theorem search_spec (holds : Holds connected s lists nodes) (on : connected cli) (key res : Word) :
    LoopSpec (searchTurn key res s) (s.globalRes cli) (nodes cli).length
      (Searched s (nodes cli) (lists cli) key res) := by
  -- what is left of the list is the rest of the walk
  refine loop_total (fun bound globalRes => ∃ front back before behind, nodes cli = front ++ back ∧
    lists cli = before ++ behind ∧ front.map s.entryAt = before.map some ∧
      back.map s.entryAt = behind.map some ∧ IsList s.next globalRes back ∧ bound = back.length ∧
        ∀ entry ∈ before, entry.hit key res = false) _ ?_ ?_
  · rintro bound globalRes ⟨front, back, before, behind, nodes_eq, lists_eq, fronts, backs, walk, rfl,
      missed⟩
    cases back with
    | nil =>
      cases walk
      refine ⟨_, rfl, ?_⟩
      obtain rfl : behind = [] := by simpa using backs.symm
      rw [List.append_nil] at lists_eq
      show ∀ entry ∈ lists cli, _
      rw [lists_eq]
      exact missed
    | cons addr back =>
      obtain ⟨rfl, walk⟩ := walk
      obtain ⟨record, behind, found, rfl, here, rest⟩ := holds.here on nodes_eq backs
      refine ⟨_, by simp only [searchTurn, found, Option.map_some]; rfl, ?_⟩
      by_cases hit : record.hit key res = true
      · rw [if_pos hit]
        exact ⟨found, hit, front, back, before, behind, nodes_eq, lists_eq, fronts, rest, missed⟩
      · rw [if_neg hit]
        refine ⟨back.length, Nat.lt_succ_self _, front ++ [addr], back, before ++ [record.entry],
          behind, by simpa using nodes_eq, by simpa using lists_eq, ?_, rest, ?_, rfl, ?_⟩
        · rw [List.map_append, List.map_append, fronts, List.map_singleton, List.map_singleton, here]
        · rw [ResState.next, found] at walk
          exact walk
        · intro other member
          rcases List.mem_append.mp member with old | new
          · exact missed other old
          · rw [List.mem_singleton.mp new]
            exact Bool.eq_false_iff.mpr hit
  · exact ⟨[], nodes cli, [], lists cli, rfl, rfl, rfl, holds.records cli on,
      (holds.linked cli on).isList, rfl, nofun⟩

/-- What taking out one record leaves. -/
structure Unlinked (call : Proc → Word → World → World) (s after : ResState Proc World) (cli : ℕ)
    (addr : Addr) (record : GlobalRes Proc) : Prop where
  next : ∀ other, other ≠ addr →
    after.next other = setAt s.next record.prev record.next other
  prev : ∀ other, other ≠ addr →
    after.prev other = setAt s.prev record.next record.prev other
  entryAt : ∀ other, other ≠ addr → after.entryAt other = s.entryAt other
  globalRes : after.globalRes = Function.update s.globalRes cli
    (if s.globalRes cli = some addr then record.next else s.globalRes cli)
  dropped : Dropped call s after [record.entry]

theorem unlinkGlobalRes_unlinked (call : Proc → Word → World → World) (cli : ℕ)
    (found : s.cells addr = some record)
    (before : ∀ other, record.prev = some other → ∃ record, s.cells other = some record)
    (behind : ∀ other, record.next = some other → ∃ record, s.cells other = some record) :
    ∃ after, unlinkGlobalRes call cli addr record s = some after ∧
      Unlinked call s after cli addr record := by
  set called : ResState Proc World := { s with
    world := record.entry.callOn call s.world
    released := s.released ++ calledSerials [record.entry] } with called_eq
  have before' : ∀ other, record.prev = some other → ∃ record, called.cells other = some record :=
    before
  obtain ⟨forward, writesNext, first⟩ := setNext_spec record.next before'
  have live : ∀ other, record.next = some other → ∃ record, forward.cells other = some record := by
    intro other points
    obtain ⟨old, known⟩ := behind other points
    have same : forward.entryAt other = some old.entry := by
      rw [first.entryAt]
      show (s.cells other).map GlobalRes.entry = some old.entry
      rw [known]
      rfl
    obtain ⟨new, known, -⟩ := Option.map_eq_some_iff.mp same
    exact ⟨new, known⟩
  obtain ⟨relinked, writesPrev, second⟩ := setPrev_spec record.prev live
  have heads : relinked.globalRes = s.globalRes := second.globalRes.trans first.globalRes
  obtain ⟨last, atAddr, sameEntry⟩ : ∃ last, relinked.cells addr = some last ∧
      last.entry = record.entry := by
    have same : relinked.entryAt addr = some record.entry := by
      rw [second.entryAt, first.entryAt]
      show (s.cells addr).map GlobalRes.entry = _
      rw [found]
      rfl
    exact Option.map_eq_some_iff.mp same
  obtain ⟨after, after_eq⟩ : ∃ after : ResState Proc World, after = { relinked with
      cells := Function.update relinked.cells addr none
      globalRes := Function.update s.globalRes cli
        (if s.globalRes cli = some addr then record.next else s.globalRes cli)
      freed := relinked.freed ++ [last.serial] } := ⟨_, rfl⟩
  have elsewhere : ∀ other, other ≠ addr → after.cells other = relinked.cells other := by
    intro other differs
    rw [after_eq]
    exact Function.update_of_ne differs ..
  refine ⟨after, ?_, ?_, ?_, ?_, ?_, ?_, ?_, ?_, ?_⟩
  · have unlinks : unlinkGlobalRes call cli addr record s =
        (if some addr = relinked.globalRes cli then relinked.setHead cli record.next
          else relinked).free addr := by
      rw [unlinkGlobalRes, callReleaseProc_eq, ← called_eq, writesNext]
      show (forward.setPrev record.next record.prev).bind _ = _
      rw [writesPrev]
      rfl
    rw [unlinks, heads]
    by_cases atHead : s.globalRes cli = some addr
    · rw [if_pos atHead.symm, after_eq, if_pos atHead, ← heads]
      show Option.map _ (relinked.cells addr) = _
      rw [atAddr]
      rfl
    · rw [if_neg (Ne.symm atHead), after_eq, if_neg atHead, Function.update_eq_self, ← heads]
      show Option.map _ (relinked.cells addr) = _
      rw [atAddr]
      rfl
  · intro other differs
    rw [ResState.next, elsewhere other differs]
    exact congrFun (second.next.trans first.next) other
  · intro other differs
    rw [ResState.prev, elsewhere other differs]
    exact congrFun (second.prev.trans (congrArg (setAt · record.next record.prev) first.prev)) other
  · intro other differs
    rw [ResState.entryAt, elsewhere other differs]
    exact congrFun (second.entryAt.trans first.entryAt) other
  · rw [after_eq]
  · rw [after_eq]
    exact second.world.trans first.world
  · rw [after_eq]
    exact second.added.trans first.added
  · rw [after_eq]
    exact second.released.trans first.released
  · rw [after_eq]
    show relinked.freed ++ [last.serial] = s.freed ++ [record.entry.serial]
    rw [second.freed, first.freed, ← sameEntry]
    rfl

/-- **Taking out one record of a list.** -/
theorem unlinkGlobalRes_spec (call : Proc → Word → World → World)
    (holds : Holds connected s lists nodes) (on : connected cli)
    (found : s.cells addr = some record)
    {front back : List Addr} {before behind : List (Entry Proc)}
    (nodes_eq : nodes cli = front ++ addr :: back) (fronts : front.map s.entryAt = before.map some)
    (backs : back.map s.entryAt = behind.map some) :
    ∃ after, unlinkGlobalRes call cli addr record s = some after ∧
      Holds connected after (Function.update lists cli (before ++ behind))
        (Function.update nodes cli (front ++ back)) ∧ Dropped call s after [record.entry] := by
  have linked := holds.linked cli on
  rw [nodes_eq] at linked
  have next_eq : s.next addr = record.next := by rw [ResState.next, found]; rfl
  have prev_eq : s.prev addr = record.prev := by rw [ResState.prev, found]; rfl
  have nextListed : ∀ other, record.next = some other → other ∈ front ++ back := by
    intro other points
    rw [← next_eq, linked.next_eq] at points
    exact List.mem_append_right _ (List.mem_of_mem_head? points)
  have prevListed : ∀ other, record.prev = some other → other ∈ front ++ back := by
    intro other points
    rw [← prev_eq] at points
    rcases linked.prev_eq with ⟨head, -⟩ | ⟨last, member, isLast⟩
    · rw [head] at points
      cases points
    · rw [isLast] at points
      rw [← Option.some.inj points]
      exact List.mem_append_left _ member
  have out : addr ∉ front ++ back := (List.nodup_middle.mp linked.nodup).notMem
  have notAddr : ∀ other ∈ front ++ back, other ≠ addr := fun other member same => out (same ▸ member)
  have listed : ∀ other ∈ front ++ back, other ∈ nodes cli := by
    intro other member
    rw [nodes_eq]
    rcases List.mem_append.mp member with old | old
    · exact List.mem_append_left _ old
    · exact List.mem_append_right _ (List.mem_cons_of_mem _ old)
  obtain ⟨after, unlinks, effect⟩ := unlinkGlobalRes_unlinked call cli found
    (fun other points => holds.live on (listed other (prevListed other points)))
    fun other points => holds.live on (listed other (nextListed other points))
  refine ⟨after, unlinks, holds.change on ?_ ?_ ?_ ?_ ?_, effect.dropped⟩
  · have shorter := DList.unlink linked
    rw [next_eq, prev_eq] at shorter
    rw [effect.globalRes, Function.update_self]
    exact shorter.congr (fun other member => effect.next other (notAddr other member))
      fun other member => effect.prev other (notAddr other member)
  · rw [List.map_append, List.map_append, ← fronts, ← backs, ← List.map_append, ← List.map_append]
    exact List.map_congr_left fun other member => effect.entryAt other (notAddr other member)
  · exact fun other member => .inl (listed other member)
  · intro other differs otherOn there member
    have strange : ∀ mine ∈ nodes cli, mine ≠ there := by
      rintro mine listed rfl
      exact holds.apart other cli otherOn on differs mine member listed
    have off : there ≠ addr := by
      refine (strange addr ?_).symm
      rw [nodes_eq]
      exact List.mem_append_right _ List.mem_cons_self
    refine ⟨?_, ?_, effect.entryAt there off⟩
    · rw [effect.next there off, setAt_off]
      intro points
      exact strange there (listed _ (prevListed _ points)) rfl
    · rw [effect.prev there off, setAt_off]
      intro points
      exact strange there (listed _ (nextListed _ points)) rfl
  · intro other differs
    rw [effect.globalRes, Function.update_of_ne differs]

theorem delGlobalRes_eq (call : Proc → Word → World → World) (fuel cli : ℕ) (key res : Word)
    (s : ResState Proc World) : delGlobalRes call fuel cli key res s =
      (loop (searchTurn key res s) fuel (s.globalRes cli)).bind fun
        | none => some s
        | some (addr, record) => unlinkGlobalRes call cli addr record s := by
  rw [delGlobalRes]
  cases loop (searchTurn key res s) fuel (s.globalRes cli) with
  | none => rfl
  | some result => cases result <;> rfl

/-- **`del_global_res` removes the first record that is hit**, and calls its procedure. -/
theorem delGlobalRes_spec (call : Proc → Word → World → World) (cli : ℕ)
    (holds : Holds connected s lists nodes) (on : connected cli) (key res : Word) :
    ∃ after newNodes, Yields (fun fuel => delGlobalRes call fuel cli key res s) (nodes cli).length after ∧
      Holds connected after (Function.update lists cli ((lists cli).eraseP (Entry.hit key res)))
        newNodes ∧
      Dropped call s after ((lists cli).find? (Entry.hit key res)).toList := by
  obtain ⟨result, yields, searched⟩ := (search_spec holds on key res).yields
  simp only [delGlobalRes_eq]
  cases result with
  | none =>
    have missed : ∀ entry ∈ lists cli, entry.hit key res = false := searched
    refine ⟨s, nodes, yields.map _ rfl, ?_, ?_⟩
    · rw [List.eraseP_of_forall_not fun entry member => by simp [missed entry member],
        Function.update_eq_self]
      exact holds
    · rw [List.find?_eq_none.mpr fun entry member => by simp [missed entry member]]
      exact ⟨rfl, rfl, (List.append_nil _).symm, (List.append_nil _).symm⟩
  | some hit =>
    obtain ⟨addr, record⟩ := hit
    obtain ⟨found, isHit, front, back, before, behind, nodes_eq, lists_eq, fronts, backs, missed⟩ :=
      searched
    obtain ⟨after, unlinks, holds', dropped⟩ :=
      unlinkGlobalRes_spec call holds on found nodes_eq fronts backs
    refine ⟨after, Function.update nodes cli (front ++ back), yields.map _ unlinks, ?_, ?_⟩
    · rw [lists_eq, List.eraseP_append_right _ fun entry member => by simp [missed entry member],
        List.eraseP_cons_of_pos isHit]
      exact holds'
    · rw [lists_eq, List.find?_append,
        List.find?_eq_none.mpr fun entry member => by simp [missed entry member], Option.none_or,
        List.find?_cons_of_pos isHit]
      exact dropped

/-! ### __mg_release_global_res -/

theorem calledSerials_append (front back : List (Entry Proc)) :
    calledSerials (front ++ back) = calledSerials front ++ calledSerials back := by
  rw [calledSerials, List.filter_append, List.map_append]
  rfl

theorem Dropped.trans {call : Proc → Word → World → World} {middle : ResState Proc World}
    {front back : List (Entry Proc)} (first : Dropped call s middle front)
    (second : Dropped call middle after back) : Dropped call s after (front ++ back) where
  world := by rw [second.world, first.world, List.foldl_append]
  added := second.added.trans first.added
  released := by rw [second.released, first.released, calledSerials_append, List.append_assoc]
  freed := by rw [second.freed, first.freed, List.map_append, List.append_assoc]

/-- What the bulk release has done when it has freed `freed`. -/
structure Freed (call : Proc → Word → World → World) (s after : ResState Proc World)
    (nodes : List Addr) (entries : List (Entry Proc)) : Prop where
  gone : ∀ addr ∈ nodes, after.cells addr = none
  kept : ∀ addr, addr ∉ nodes → after.cells addr = s.cells addr
  globalRes : after.globalRes = s.globalRes
  dropped : Dropped call s after entries

/-- **`__mg_release_global_res` frees every record**, and calls its procedure. -/
theorem releaseLoop_spec (call : Proc → Word → World → World)
    (holds : Holds connected s lists nodes) (on : connected cli) :
    LoopSpec (releaseTurn call) (s.globalRes cli, s) (nodes cli).length
      (Freed call s · (nodes cli) (lists cli)) := by
  refine loop_total (fun bound v => ∃ front back before behind, nodes cli = front ++ back ∧
    lists cli = before ++ behind ∧ back.map s.entryAt = behind.map some ∧ IsList s.next v.1 back ∧
      bound = back.length ∧ Freed call s v.2 front before) _ ?_ ?_
  · rintro bound ⟨globalRes, now⟩ ⟨front, back, before, behind, nodes_eq, lists_eq, backs, walk, rfl,
      freed⟩
    cases back with
    | nil =>
      cases walk
      refine ⟨_, rfl, ?_⟩
      obtain rfl : behind = [] := by simpa using backs.symm
      rw [List.append_nil] at nodes_eq lists_eq
      rw [nodes_eq, lists_eq]
      exact freed
    | cons addr back =>
      obtain ⟨atAddr, walk⟩ := walk
      have nodup := holds.nodup on
      rw [nodes_eq] at nodup
      have notFront : addr ∉ front := fun member =>
        (List.nodup_middle.mp nodup).notMem (List.mem_append_left _ member)
      obtain ⟨record, behind, found, rfl, here, rest⟩ := holds.here on nodes_eq backs
      have found' : now.cells addr = some record := (freed.kept addr notFront).trans found
      simp only at atAddr
      subst atAddr
      refine ⟨_, by
        simp only [releaseTurn, found', Option.bind_some, callReleaseProc_eq, ResState.free,
          Option.map_some]
        rfl, ?_⟩
      refine ⟨back.length, Nat.lt_succ_self _, front ++ [addr], back, before ++ [record.entry], behind,
        by simpa using nodes_eq, by simpa using lists_eq, rest, ?_, rfl, ?_, ?_, ?_, ?_⟩
      · rw [ResState.next, found] at walk
        exact walk
      · intro other member
        by_cases same : other = addr
        · rw [same]
          exact Function.update_self ..
        · refine (Function.update_of_ne same ..).trans (freed.gone other ?_)
          simpa [same] using member
      · intro other off
        have differs : other ≠ addr := fun same => off (by simp [same])
        exact (Function.update_of_ne differs ..).trans
          (freed.kept other fun member => off (List.mem_append_left _ member))
      · exact freed.globalRes
      · exact freed.dropped.trans ⟨rfl, rfl, rfl, rfl⟩
  · refine ⟨[], nodes cli, [], lists cli, rfl, rfl, holds.records cli on,
      (holds.linked cli on).isList, rfl, nofun, fun _ _ => rfl, rfl, ?_⟩
    exact ⟨rfl, rfl, (List.append_nil _).symm, (List.append_nil _).symm⟩

/-- The bulk release leaves the lists of the other slots. -/
theorem mgReleaseGlobalRes_spec (call : Proc → Word → World → World) (cli : ℕ)
    (holds : Holds connected s lists nodes) (on : connected cli) :
    ∃ after, Yields (fun fuel => mgReleaseGlobalRes call fuel cli s) (nodes cli).length after ∧
      Holds (fun other => connected other ∧ other ≠ cli) after (Function.update lists cli []) nodes ∧
      Freed call s after (nodes cli) (lists cli) := by
  obtain ⟨after, yields, freed⟩ := (releaseLoop_spec call holds on).yields
  refine ⟨after, yields, ?_, freed⟩
  have same : ∀ other, connected other ∧ other ≠ cli → ∀ addr ∈ nodes other,
      after.cells addr = s.cells addr := by
    intro other otherOn addr member
    exact freed.kept addr (holds.apart other cli otherOn.1 on otherOn.2 addr member)
  have fewer : Holds (fun other => connected other ∧ other ≠ cli) after lists nodes := by
    refine holds.congr (fun _ otherOn => otherOn.1) ?_ ?_ ?_ fun other _ =>
      congrFun freed.globalRes other
    · intro other otherOn addr member
      rw [ResState.next, same other otherOn addr member]
      rfl
    · intro other otherOn addr member
      rw [ResState.prev, same other otherOn addr member]
      rfl
    · intro other otherOn addr member
      rw [ResState.entryAt, same other otherOn addr member]
      rfl
  refine ⟨fewer.linked, fun other otherOn => ?_, fewer.apart⟩
  rw [Function.update_of_ne otherOn.2]
  exact fewer.records other otherOn

/-! ### The history of every record -/

/-- A record added is in the list of its slot, or it was freed once and its procedure called
once. -/
structure Accounts (s : ResState Proc World) (lists : ℕ → List (Entry Proc)) : Prop where
  known : ∀ cli, ∀ entry ∈ lists cli, s.added[entry.serial]? = some (cli, entry.releaseProc)
  distinct : ∀ cli, ((lists cli).map Entry.serial).Nodup
  freed : ∀ serial cli proc, s.added[serial]? = some (cli, proc) →
    s.freed.count serial = if serial ∈ (lists cli).map Entry.serial then 0 else 1
  released : ∀ serial cli proc, s.added[serial]? = some (cli, proc) → s.released.count serial =
    if serial ∈ (lists cli).map Entry.serial ∨ proc = none then 0 else 1
  future : ∀ serial, s.added.length ≤ serial →
    s.freed.count serial = 0 ∧ s.released.count serial = 0

variable {call : Proc → Word → World → World} {entries rest : List (Entry Proc)}

theorem mem_calledSerials {serial : ℕ} : serial ∈ calledSerials entries ↔
    ∃ entry ∈ entries, entry.serial = serial ∧ entry.releaseProc ≠ none := by
  simp only [calledSerials, List.mem_map, List.mem_filter, Option.isSome_iff_ne_none]
  constructor
  · rintro ⟨entry, ⟨member, calls⟩, same⟩
    exact ⟨entry, member, same, calls⟩
  · rintro ⟨entry, member, same, calls⟩
    exact ⟨entry, ⟨member, calls⟩, same⟩

theorem calledSerials_nodup (distinct : (entries.map Entry.serial).Nodup) :
    (calledSerials entries).Nodup :=
  distinct.sublist (List.filter_sublist.map _)

/-- The first record that is hit, and the others. -/
theorem perm_find_eraseP {α : Type} (p : α → Bool) (l : List α) :
    l.Perm ((l.find? p).toList ++ l.eraseP p) := by
  induction l with
  | nil => exact .nil
  | cons first rest ih =>
    by_cases hit : p first = true
    · rw [List.find?_cons_of_pos hit, List.eraseP_cons_of_pos hit]
      exact .refl _
    · rw [List.find?_cons_of_neg hit, List.eraseP_cons_of_neg hit]
      exact (ih.cons first).trans List.perm_middle.symm

namespace Accounts

theorem initial (world : World) :
    Accounts (ResState.initial world : ResState Proc World) fun _ => [] where
  known _ _ member := nomatch member
  distinct _ := List.nodup_nil
  freed _ _ _ found := nomatch found
  released _ _ _ found := nomatch found
  future _ _ := ⟨rfl, rfl⟩

/-- The serial of a record in a list is taken. -/
theorem serial_lt (accounts : Accounts s lists) {serial : ℕ}
    (member : serial ∈ (lists cli).map Entry.serial) : serial < s.added.length := by
  obtain ⟨entry, listed, rfl⟩ := List.mem_map.mp member
  have known := accounts.known cli entry listed
  by_contra beyond
  rw [List.getElem?_eq_none (Nat.le_of_not_lt beyond)] at known
  cases known

theorem add (accounts : Accounts s lists) {entry : Entry Proc}
    (effect : Added s after cli addr entry)
    (new : entry.serial = s.added.length) :
    Accounts after (Function.update lists cli (entry :: lists cli)) := by
  have older : ∀ other, entry.serial ∉ (lists other).map Entry.serial := by
    intro other member
    exact absurd (accounts.serial_lt member) (by omega)
  have listed : ∀ other serial, serial < s.added.length →
      (serial ∈ (Function.update lists cli (entry :: lists cli) other).map Entry.serial ↔
        serial ∈ (lists other).map Entry.serial) := by
    intro other serial old
    by_cases same : other = cli
    · subst same
      rw [Function.update_self, List.map_cons, List.mem_cons, or_iff_right]
      omega
    · rw [Function.update_of_ne same]
  have newest : ∀ other, after.added[s.added.length]? = some other →
      other = (cli, entry.releaseProc) := by
    intro other found
    rw [effect.added, List.getElem?_concat_length] at found
    exact (Option.some.inj found).symm
  have split : ∀ serial other, after.added[serial]? = some other →
      serial < s.added.length ∧ s.added[serial]? = some other ∨
        serial = s.added.length ∧ other = (cli, entry.releaseProc) := by
    intro serial other found
    rcases Nat.lt_trichotomy serial s.added.length with old | rfl | beyond
    · rw [effect.added, List.getElem?_append_left old] at found
      exact .inl ⟨old, found⟩
    · exact .inr ⟨rfl, newest other found⟩
    · rw [effect.added, List.getElem?_eq_none (by simp; omega)] at found
      cases found
  have inFront : entry.serial ∈
      (Function.update lists cli (entry :: lists cli) cli).map Entry.serial := by
    rw [Function.update_self]
    exact List.mem_cons_self
  have fresh := accounts.future s.added.length (Nat.le_refl _)
  constructor
  case known =>
    intro other mine member
    have old :
        ∀ mine ∈ lists other, after.added[mine.serial]? = some (other, mine.releaseProc) := by
      intro mine member
      have known := accounts.known other mine member
      rw [effect.added, List.getElem?_append_left (accounts.serial_lt (List.mem_map_of_mem member))]
      exact known
    by_cases same : other = cli
    · subst same
      rw [Function.update_self] at member
      rcases List.mem_cons.mp member with rfl | listed
      · rw [effect.added, new, List.getElem?_concat_length]
      · exact old mine listed
    · rw [Function.update_of_ne same] at member
      exact old mine member
  case distinct =>
    intro other
    by_cases same : other = cli
    · subst same
      rw [Function.update_self]
      exact List.nodup_cons.mpr ⟨older other, accounts.distinct other⟩
    · rw [Function.update_of_ne same]
      exact accounts.distinct other
  case freed =>
    intro serial other proc found
    rw [effect.freed]
    rcases split serial _ found with ⟨old, known⟩ | ⟨rfl, same⟩
    · rw [accounts.freed serial other proc known]
      simp only [listed other serial old]
    · obtain ⟨rfl, -⟩ := Prod.mk.inj same
      rw [fresh.1, ← new, if_pos inFront]
  case released =>
    intro serial other proc found
    rw [effect.released]
    rcases split serial _ found with ⟨old, known⟩ | ⟨rfl, same⟩
    · rw [accounts.released serial other proc known]
      simp only [listed other serial old]
    · obtain ⟨rfl, -⟩ := Prod.mk.inj same
      rw [fresh.2, ← new, if_pos (.inl inFront)]
  case future =>
    intro serial beyond
    rw [effect.freed, effect.released]
    rw [effect.added, List.length_append] at beyond
    exact accounts.future serial (by omega)

/-- Some records of one list are freed, and the others stay. -/
theorem drop (accounts : Accounts s lists) (dropped : Dropped call s after entries)
    (perm : (lists cli).Perm (entries ++ rest)) :
    Accounts after (Function.update lists cli rest) := by
  have serials : ((lists cli).map Entry.serial).Perm
      (entries.map Entry.serial ++ rest.map Entry.serial) := by
    rw [← List.map_append]
    exact perm.map _
  have apart := List.nodup_append.mp ((serials.nodup_iff).mp (accounts.distinct cli))
  have knownEntry : ∀ entry ∈ entries, s.added[entry.serial]? = some (cli, entry.releaseProc) :=
    fun entry member => accounts.known cli entry (perm.mem_iff.mpr (List.mem_append_left _ member))
  have member_split : ∀ serial, serial ∈ (lists cli).map Entry.serial ↔
      serial ∈ entries.map Entry.serial ∨ serial ∈ rest.map Entry.serial := by
    intro serial
    rw [serials.mem_iff, List.mem_append]
  -- which procedures of the records freed are called
  have calls : ∀ serial other proc, s.added[serial]? = some (other, proc) →
      (serial ∈ calledSerials entries ↔ serial ∈ entries.map Entry.serial ∧ proc ≠ none) := by
    intro serial other proc found
    rw [mem_calledSerials, List.mem_map]
    constructor
    · rintro ⟨entry, member, rfl, called⟩
      rw [knownEntry entry member] at found
      obtain ⟨-, rfl⟩ := Prod.mk.inj (Option.some.inj found)
      exact ⟨⟨entry, member, rfl⟩, called⟩
    · rintro ⟨⟨entry, member, rfl⟩, called⟩
      rw [knownEntry entry member] at found
      obtain ⟨-, rfl⟩ := Prod.mk.inj (Option.some.inj found)
      exact ⟨entry, member, rfl, called⟩
  have elsewhere : ∀ serial other proc, s.added[serial]? = some (other, proc) → other ≠ cli →
      serial ∉ entries.map Entry.serial := by
    rintro serial other proc found differs member
    obtain ⟨entry, listed, rfl⟩ := List.mem_map.mp member
    rw [knownEntry entry listed] at found
    exact differs (Prod.mk.inj (Option.some.inj found)).1.symm
  have countCalled : ∀ serial, (calledSerials entries).count serial =
      if serial ∈ calledSerials entries then 1 else 0 :=
    fun _ => (calledSerials_nodup apart.1).count
  constructor
  case known =>
    intro other entry member
    rw [dropped.added]
    by_cases same : other = cli
    · subst same
      rw [Function.update_self] at member
      exact accounts.known other entry (perm.mem_iff.mpr (List.mem_append_right _ member))
    · rw [Function.update_of_ne same] at member
      exact accounts.known other entry member
  case distinct =>
    intro other
    by_cases same : other = cli
    · subst same
      rw [Function.update_self]
      exact apart.2.1
    · rw [Function.update_of_ne same]
      exact accounts.distinct other
  case freed =>
    intro serial other proc found
    rw [dropped.added] at found
    rw [dropped.freed, List.count_append, accounts.freed serial other proc found, apart.1.count]
    by_cases same : other = cli
    · subst same
      have once := apart.2.2 serial
      rw [Function.update_self]
      simp only [member_split]
      grind
    · rw [Function.update_of_ne same, if_neg (elsewhere serial other proc found same), Nat.add_zero]
  case released =>
    intro serial other proc found
    rw [dropped.added] at found
    rw [dropped.released, List.count_append, accounts.released serial other proc found, countCalled]
    simp only [calls serial other proc found]
    by_cases same : other = cli
    · subst same
      have once := apart.2.2 serial
      rw [Function.update_self]
      simp only [member_split]
      grind
    · have notCalled : ¬ (serial ∈ entries.map Entry.serial ∧ proc ≠ none) :=
        fun both => elsewhere serial other proc found same both.1
      rw [Function.update_of_ne same, if_neg notCalled, Nat.add_zero]
  case future =>
    intro serial beyond
    rw [dropped.added] at beyond
    have unlisted : serial ∉ entries.map Entry.serial := by
      intro member
      have taken := accounts.serial_lt (serials.mem_iff.mpr (List.mem_append_left _ member))
      omega
    have uncalled : serial ∉ calledSerials entries := by
      intro member
      obtain ⟨entry, listed, rfl, -⟩ := mem_calledSerials.mp member
      exact unlisted (List.mem_map_of_mem listed)
    obtain ⟨unfreed, unreleased⟩ := accounts.future serial beyond
    rw [dropped.freed, dropped.released, List.count_append, List.count_append, unfreed, unreleased,
      List.count_eq_zero_of_not_mem unlisted, List.count_eq_zero_of_not_mem uncalled]
    exact ⟨rfl, rfl⟩

end Accounts

/-! ### Every run -/

/-- The slot has a finite, well-formed list of live records with these entries. -/
def Listed (s : ResState Proc World) (cli : ℕ) (entries : List (Entry Proc)) : Prop :=
  ∃ nodes, DList s.next s.prev (s.globalRes cli) nodes ∧ nodes.map s.entryAt = entries.map some

/-- What is promised between two calls: the lists, the history, and the effect of the next call. -/
structure ResOk (call : Proc → Word → World → World) (s : ResState Proc World) : Prop where
  /-- Every head is null, or the head of a list of live records. -/
  wellFormed : ∀ cli, ∃ entries, Listed s cli entries
  /-- No record is freed twice, and no procedure is called twice for a record. -/
  atMostOnce : ∀ serial, s.freed.count serial ≤ 1 ∧ s.released.count serial ≤ 1
  /-- `del_global_res` takes out the first record that is hit and calls its procedure once. -/
  removes : ∀ cli key res entries, Listed s cli entries → ∃ bound after,
    Yields (fun fuel => delGlobalRes call fuel cli key res s) bound after ∧
    Listed after cli (entries.eraseP (Entry.hit key res)) ∧
    (∀ other others, other ≠ cli → Listed s other others → Listed after other others) ∧
    Dropped call s after (entries.find? (Entry.hit key res)).toList
  /-- When `__mg_release_global_res` returns, every record added to the slot was freed once and its
  procedure called once. -/
  releases : ∀ cli, ∃ bound after, Yields (fun fuel => mgReleaseGlobalRes call fuel cli s) bound after ∧
    ∀ serial proc, s.added[serial]? = some (cli, proc) →
      after.freed.count serial = 1 ∧ after.released.count serial = if proc = none then 0 else 1

/-- The condition: the list of a slot is empty when it is released. -/
def Spares (s : ResState Proc World) : ResEvent Proc → Prop
  | .release _ cli => s.globalRes cli = none
  | _ => True

/-- A list is determined by its head. -/
theorem Listed.unique {entries' : List (Entry Proc)} (first : Listed s cli entries)
    (second : Listed s cli entries') : entries = entries' := by
  obtain ⟨nodes, linked, records⟩ := first
  obtain ⟨nodes', linked', records'⟩ := second
  rw [isList_unique linked.isList linked'.isList, records'] at records
  exact (List.map_injective_iff.mpr (fun _ _ => Option.some.inj) records).symm

theorem Holds.listed (holds : Holds connected s lists nodes) (cli : ℕ) (on : connected cli) :
    Listed s cli (lists cli) :=
  ⟨nodes cli, holds.linked cli on, holds.records cli on⟩

/-- Lists and history together. -/
def ResInv (s : ResState Proc World) : Prop :=
  ∃ lists nodes, Holds (fun _ => True) s lists nodes ∧ Accounts s lists

theorem resInv_initial (world : World) : ResInv (ResState.initial world : ResState Proc World) := by
  refine ⟨fun _ => [], fun _ => [], ⟨fun _ _ => rfl, fun _ _ => rfl, ?_⟩, Accounts.initial world⟩
  intro _ _ _ _ _ addr member
  cases member

/-- **One call**: every call that meets the condition keeps lists and history. -/
theorem resInv_step (inv : ResInv s) (event : ResEvent Proc) (spares : Spares s event)
    (runs : resExec call s event = some after) : ResInv after := by
  obtain ⟨lists, nodes, holds, accounts⟩ := inv
  cases event with
  | add cli addr key res releaseProc =>
    obtain ⟨holds', effect⟩ := addGlobalRes_inv holds trivial runs
    exact ⟨_, _, holds', accounts.add effect rfl⟩
  | del fuel cli key res =>
    obtain ⟨after', newNodes, yields, holds', dropped⟩ :=
      delGlobalRes_spec call cli holds trivial key res
    obtain rfl := yields.only fuel after runs
    exact ⟨_, _, holds', accounts.drop dropped (perm_find_eraseP _ _)⟩
  | release fuel cli =>
    have empty : s.globalRes cli = none := spares
    cases fuel with
    | zero => cases runs
    | succ fuel =>
      have leaves : releaseTurn call (s.globalRes cli, s) = some (.inr s) := by
        rw [empty]
        rfl
      have runs' := (loop_exit leaves).symm.trans runs
      obtain rfl : s = after := Option.some.inj runs'
      exact ⟨lists, nodes, holds, accounts⟩

/-- Lists and history give what is promised. -/
theorem ResInv.ok (inv : ResInv s) (call : Proc → Word → World → World) : ResOk call s := by
  obtain ⟨lists, nodes, holds, accounts⟩ := inv
  constructor
  case wellFormed => exact fun cli => ⟨lists cli, holds.listed cli trivial⟩
  case atMostOnce =>
    intro serial
    rcases Nat.lt_or_ge serial s.added.length with taken | beyond
    · obtain ⟨⟨cli, proc⟩, found⟩ : ∃ pair, s.added[serial]? = some pair :=
        ⟨_, List.getElem?_eq_getElem taken⟩
      rw [accounts.freed serial cli proc found, accounts.released serial cli proc found]
      constructor <;> split <;> omega
    · obtain ⟨unfreed, unreleased⟩ := accounts.future serial beyond
      rw [unfreed, unreleased]
      exact ⟨Nat.zero_le _, Nat.zero_le _⟩
  case removes =>
    intro cli key res entries listed
    obtain rfl := listed.unique (holds.listed cli trivial)
    obtain ⟨after, newNodes, yields, holds', dropped⟩ :=
      delGlobalRes_spec call cli holds trivial key res
    refine ⟨_, after, yields, ?_, ?_, dropped⟩
    · have mine := holds'.listed cli trivial
      rwa [Function.update_self] at mine
    · intro other others differs otherListed
      obtain rfl := otherListed.unique (holds.listed other trivial)
      have theirs := holds'.listed other trivial
      rwa [Function.update_of_ne differs] at theirs
  case releases =>
    intro cli
    obtain ⟨after, yields, -, freed⟩ := mgReleaseGlobalRes_spec call cli holds trivial
    refine ⟨_, after, yields, fun serial proc found => ?_⟩
    have all : (lists cli).Perm (lists cli ++ []) := by rw [List.append_nil]
    have settled := accounts.drop freed.dropped all
    rw [← freed.dropped.added] at found
    have frees := settled.freed serial cli proc found
    have releases := settled.released serial cli proc found
    rw [Function.update_self] at frees releases
    rw [frees, releases]
    simp

/-- A release of records leaves a head that dangles. -/
theorem release_dangles (inv : ResInv s) {fuel : ℕ} (head : s.globalRes cli ≠ none)
    (runs : mgReleaseGlobalRes call fuel cli s = some after) :
    ∃ first, after.globalRes cli = some first ∧ after.cells first = none := by
  obtain ⟨lists, nodes, holds, accounts⟩ := inv
  obtain ⟨after', yields, -, freed⟩ := mgReleaseGlobalRes_spec call cli holds trivial
  obtain rfl := yields.only fuel after runs
  obtain ⟨first, atHead⟩ := Option.ne_none_iff_exists'.mp head
  refine ⟨first, (congrFun freed.globalRes cli).trans atHead, freed.gone first ?_⟩
  have head_eq := isList_head (holds.linked cli trivial).isList
  rw [atHead] at head_eq
  exact List.mem_of_mem_head? head_eq.symm

theorem not_ok_of_dangling (cli : ℕ) (first : Addr) (atHead : s.globalRes cli = some first)
    (gone : s.cells first = none) : ¬ ResOk call s := by
  intro ok
  obtain ⟨entries, nodes, linked, records⟩ := ok.wellFormed cli
  cases nodes with
  | nil =>
    have null := dseg_nil.mp linked
    rw [atHead] at null
    cases null
  | cons node nodes =>
    obtain ⟨atHead', -⟩ := linked
    obtain rfl : first = node := Option.some.inj (atHead.symm.trans atHead')
    obtain ⟨entry, others, rfl, here, -⟩ := List.map_eq_cons_iff.mp records.symm
    rw [ResState.entryAt, gone] at here
    cases here

/-- **The resource lists are right as long as only empty lists are released.** The condition is
exact: from such a state, a call keeps the promise if and only if it meets the condition. -/
theorem res_list_ok_when_spared (call : Proc → Word → World → World) {s : ResState Proc World}
    (reached : (resSystem call).ReachableBy Spares s) :
    ResOk call s ∧ ∀ event after, resExec call s event = some after →
      (ResOk call after ↔ Spares s event) := by
  have inv : ResInv s := by
    refine reached.invariant ResInv ?_ ?_
    · rintro _ ⟨world, rfl⟩
      exact resInv_initial world
    · exact fun _ event _ _ inv spares runs => resInv_step inv event spares runs
  refine ⟨inv.ok call, fun event after runs => ⟨fun ok => ?_, fun spares => ?_⟩⟩
  · cases event with
    | add => trivial
    | del => trivial
    | release fuel cli =>
      by_contra records
      obtain ⟨first, atHead, gone⟩ := release_dangles inv records runs
      exact not_ok_of_dangling cli first atHead gone ok
  · exact (resInv_step inv event spares runs).ok call

end Lists

/-- A release procedure that notes what it is called with. -/
def noteCall (_ : Unit) (res : Word) (called : List Word) : List Word := called ++ [res]

/-- Two records come and one goes, and an empty list is released. -/
theorem res_list_ok_example : ∃ s, ResOk noteCall s ∧ s.freed = [0] ∧ s.released = [0] := by
  have start : (resSystem noteCall).ReachableBy Spares (ResState.initial []) := .start ⟨[], rfl⟩
  have first := start.by_event (ResEvent.add 0 16 1 1 (some ())) trivial rfl
  have second := first.by_event (ResEvent.add 0 32 1 2 none) trivial rfl
  have third := second.by_event (ResEvent.del 3 0 1 1) trivial rfl
  have fourth := third.by_event (ResEvent.release 1 1) rfl rfl
  exact ⟨_, (res_list_ok_when_spared noteCall fourth).1, rfl, rfl⟩

/-- **A released head dangles**: the next call on the slot reads a freed record. -/
theorem released_head_dangles : ∃ s : ResState Unit (List Word),
    runEvents (resExec noteCall) (ResState.initial [])
      [.add 0 16 1 1 (some ()), .release 2 0] = some s ∧
    (resSystem noteCall).Reachable s ∧ s.globalRes 0 = some 16 ∧ s.cells 16 = none ∧
    (∀ fuel, delGlobalRes noteCall fuel 0 1 1 s = none) ∧ ¬ ResOk noteCall s := by
  have start : (resSystem noteCall).Reachable (ResState.initial []) := .start ⟨[], rfl⟩
  have first := start.by_event (ResEvent.add 0 16 1 1 (some ())) trivial rfl
  have second := first.by_event (ResEvent.release 2 0) trivial rfl
  refine ⟨_, rfl, second, rfl, rfl, ?_, ?_⟩
  · intro fuel
    cases fuel <;> rfl
  · exact not_ok_of_dangling 0 16 rfl rfl

end Aple.ClientServer
