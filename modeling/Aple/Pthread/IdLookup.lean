/-
**Which `pthread_t` values are looked up inside the table, and what they stand for.**

An identifier is the slot of its thread in its low ten bits and a cookie above them. The table has
fewer slots than ten bits can name, and the lookup does not compare.

* `IdEvent`, `idExec` — the sections of the layer, where the functions that take a `pthread_t` are
  called with any value; `Numbered` adds the number of its creation to every block.
* `Kept` — what every section but `pthread_create` keeps of the table.
* **`id_lookup_iff`** — in every run of creations inside the table, a lookup is right if and only if
  the low bits of the value are a slot; identifiers of fewer than `2 ^ 22` creations never meet.
-/

import Aple.Pthread.Bookkeeping
import Aple.Pthread.Reaper
import Aple.Pthread.SlotSearch

namespace Aple.Pthread

open Aple.Lib

/-! ### The functions that take a `pthread_t` -/

/-- The index at which `pthread_info_id` reads the table. -/
def infoIndex (id : PthreadT) : ℕ := (id &&& threadIdCookieMask).toNat

/-- The section of `pthread_cancel`. It writes fields of the block that are not modelled. A thread with asynchronous
cancellation is made to exit by a caller that holds the mutex already and waits for itself. -/
def cancelSection (asynchronous : Bool) (thread : PthreadT) (s : PthreadState) :
    Option (Errno × PthreadState) :=
  match pthreadInfoId thread s with
  | none => some (.esrch, s)
  | some _ => if asynchronous then none else some (.ok, s)

/-- The section of `pthread_setschedparam`; `checked` is whether it accepts the policy and the parameters. -/
def setschedparamSection (checked : Bool) (thread : PthreadT) (s : PthreadState) :
    Errno × PthreadState :=
  if checked then (if pthreadInfoId thread s = none then .esrch else .ok, s) else (.einval, s)

/-- The section of `pthread_getschedparam`. -/
def getschedparamSection (thread : PthreadT) (s : PthreadState) : Errno × PthreadState :=
  (if pthreadInfoId thread s = none then .esrch else .ok, s)

/-- One section under the mutex. -/
inductive IdEvent
  | call (event : PthreadEvent)
  | cancel (asynchronous : Bool) (thread : PthreadT)
  | setschedparam (checked : Bool) (thread : PthreadT)
  | getschedparam (thread : PthreadT)

/-- Run one section. A caller may pass any value for a `pthread_t`. -/
def idExec (s : PthreadState) : IdEvent → Option PthreadState
  | .call (.join reaps self thread) => (pthreadJoin reaps self thread s).map Prod.snd
  | .call (.detach status thread) => (pthreadDetach status thread s).map Prod.snd
  | .call event => pthreadExec s event
  | .cancel asynchronous thread => (cancelSection asynchronous thread s).map Prod.snd
  | .setschedparam checked thread => some (setschedparamSection checked thread s).2
  | .getschedparam thread => some (getschedparamSection thread s).2

/-- The table, and which creation a block belongs to. -/
structure Numbered where
  table : PthreadState
  number : Addr → ℕ

/-- The creations are counted from 0; `ids` holds the latest identifier first. -/
def Numbered.given (t : Numbered) (number : ℕ) : Option PthreadT := t.table.ids.reverse[number]?

/-- A creation numbers the block of its thread. -/
def Numbered.next (t : Numbered) (event : IdEvent) (after : PthreadState) : Numbered where
  table := after
  number :=
    match event with
    | .call (.create _ _ _ nthread _) =>
      if after.ids.length = t.table.ids.length then t.number
      else Function.update t.number nthread t.table.ids.length
    | _ => t.number

/-- Every order of sections. -/
def idSystem : System Numbered IdEvent where
  init t := pthreadSystem.init t.table
  step t event t' := ∃ after, idExec t.table event = some after ∧ t' = t.next event after

/-! ### What a lookup should do -/

/-- The thread of a block has the identifier: the block is listed and in use, its state is neither
`FREE` nor `EXITED`. -/
structure Named (s : PthreadState) (id : PthreadT) (addr : Addr) : Prop where
  listed : ∃ slot < threadsMax, s.threadTable slot = some addr
  live : s.live addr = true
  notFree : (s.blocks addr).state ≠ .free
  notExited : (s.blocks addr).state ≠ .exited
  same : (s.blocks addr).id = id

/-- The lookup of an identifier reads a slot of the table, and finds exactly the thread that has
it. -/
structure LookupOk (s : PthreadState) (id : PthreadT) : Prop where
  inBounds : infoIndex id < threadsMax
  exactly : ∀ addr, pthreadInfoId id s = some addr ↔ Named s id addr

/-- No two creations gave the same identifier, and a lookup inside the table leads to the thread that
the identifier was given to. -/
structure IdsUnique (t : Numbered) : Prop where
  nodup : t.table.ids.Nodup
  resolves : ∀ id addr number, infoIndex id < threadsMax → pthreadInfoId id t.table = some addr →
    t.given number = some id → t.number addr = number

/-- The condition on a section: a creation stays inside the table, and its `taskInit` succeeds; a
`pthread_t` names a slot in its low bits. -/
def IndexInTable (t : Numbered) : IdEvent → Prop
  | .call (.create _ _ _ _ taskInits) => t.table.threadInfoNext < threadsMax ∧ taskInits = true
  | .call (.join _ _ thread) => infoIndex thread < threadsMax
  | .call (.detach _ thread) => infoIndex thread < threadsMax
  | .call _ => True
  | .cancel _ thread => infoIndex thread < threadsMax
  | .setschedparam _ thread => infoIndex thread < threadsMax
  | .getschedparam thread => infoIndex thread < threadsMax

/-! ### What the sections keep -/

/-- No slot gets another block, and the listed blocks stay in use and keep their identifiers. -/
structure Kept (s after : PthreadState) : Prop where
  table : ∀ slot < threadsMax, ∀ addr, after.threadTable slot = some addr →
    s.threadTable slot = some addr
  live : ∀ slot < threadsMax, ∀ addr, after.threadTable slot = some addr → s.live addr = true →
    after.live addr = true
  id : ∀ slot < threadsMax, ∀ addr, after.threadTable slot = some addr →
    (after.blocks addr).id = (s.blocks addr).id
  ids : after.ids = s.ids
  cookie : after.threadIdCookie = s.threadIdCookie

namespace Kept

variable {s middle after : PthreadState} {addr : Addr}

theorem refl (s : PthreadState) : Kept s s :=
  ⟨fun _ _ _ holds => holds, fun _ _ _ _ live => live, fun _ _ _ _ => rfl, rfl, rfl⟩

theorem trans (first : Kept s middle) (second : Kept middle after) : Kept s after where
  table slot low addr holds := first.table slot low addr (second.table slot low addr holds)
  live slot low addr holds live :=
    second.live slot low addr holds
      (first.live slot low addr (second.table slot low addr holds) live)
  id slot low addr holds :=
    (second.id slot low addr holds).trans
      (first.id slot low addr (second.table slot low addr holds))
  ids := second.ids.trans first.ids
  cookie := second.cookie.trans first.cookie

/-- A block is written; it keeps its identifier if it is listed. -/
theorem ofBlock {info : PthreadInfo} (table : after.threadTable = s.threadTable)
    (live : after.live = s.live) (blocks : after.blocks = Function.update s.blocks addr info)
    (same : s.Unlisted addr ∨ info.id = (s.blocks addr).id) (ids : after.ids = s.ids)
    (cookie : after.threadIdCookie = s.threadIdCookie) : Kept s after where
  table slot _ addr holds := table ▸ holds
  live slot _ addr _ used := live ▸ used
  id slot low other holds := by
    rw [table] at holds
    rw [blocks]
    by_cases equal : other = addr
    · rw [equal, Function.update_self]
      rcases same with unlisted | same
      · exact absurd (equal ▸ holds) (unlisted slot low)
      · exact same
    · rw [Function.update_of_ne equal]
  ids := ids
  cookie := cookie

end Kept

section Sections

variable {s after : PthreadState}

/-- The reaper frees the stacks of the threads whose slots it clears, and no others. -/
theorem reap_kept {status : TaskStatus} (distinct : s.Distinct)
    (returns : pthreadReap status s = some after) : Kept s after := by
  have pass := pthreadReap_pass returns
  refine ⟨fun slot low addr => pass.kept low, fun slot low addr holds live => ?_,
    fun slot _ addr _ => by rw [pass.blocks], pass.ids, pass.cookie⟩
  rcases pass.live addr with same | ⟨slot', low', holds', cleared⟩
  · rw [same, live]
  · obtain rfl := distinct slot low slot' low' addr (pass.kept low holds) holds'
    rw [cleared] at holds
    cases holds

theorem finishJoin_kept {status : TaskStatus} {joinee : Addr} {result : BitVec 64 × PthreadState}
    (distinct : s.Distinct) (returns : finishJoin status joinee s = some result) :
    Kept s result.2 := by
  obtain ⟨reaped, reaps, rfl⟩ := Option.map_eq_some_iff.mp returns
  refine Kept.trans ?_ (reap_kept (by exact distinct) reaps)
  exact .ofBlock rfl rfl rfl (.inr rfl) rfl rfl

theorem exit_kept (thread : Addr) (retval : BitVec 64) (s : PthreadState) :
    Kept s (pthreadExit thread retval s) := by
  unfold pthreadExit
  by_cases detached : (s.blocks thread).state = .detached
  · rw [if_pos detached]
    exact .ofBlock rfl rfl rfl (.inr rfl) rfl rfl
  · rw [if_neg detached]
    exact .ofBlock rfl rfl rfl (.inr rfl) rfl rfl

theorem join_kept {reaps : TaskStatus × TaskStatus} {self : Addr} {thread : PthreadT}
    {outcome : JoinOutcome} (distinct : s.Distinct)
    (returns : pthreadJoin reaps self thread s = some (outcome, after)) : Kept s after := by
  unfold pthreadJoin at returns
  split at returns
  · cases returns
  rename_i reaped first
  have kept := reap_kept distinct first
  have distinct' : reaped.Distinct := fun slot low slot' low' addr holds holds' =>
    distinct slot low slot' low' addr (kept.table slot low addr holds)
      (kept.table slot' low' addr holds')
  refine kept.trans ?_
  split at returns
  · obtain ⟨-, rfl⟩ := Prod.mk.inj (Option.some.inj returns)
    exact .refl _
  split at returns
  · obtain ⟨-, rfl⟩ := Prod.mk.inj (Option.some.inj returns)
    exact .refl _
  split at returns
  · obtain ⟨-, rfl⟩ := Prod.mk.inj (Option.some.inj returns)
    exact { Kept.refl reaped with }
  · obtain ⟨result, finished, eq⟩ := Option.map_eq_some_iff.mp returns
    obtain ⟨-, rfl⟩ := Prod.mk.inj eq
    exact finishJoin_kept distinct' finished
  · obtain ⟨-, rfl⟩ := Prod.mk.inj (Option.some.inj returns)
    exact .refl _

theorem joinResume_kept {status : TaskStatus} {joinee : Addr} {cancelled : Bool}
    {outcome : JoinOutcome} (distinct : s.Distinct)
    (returns : joinResume status joinee cancelled s = some (outcome, after)) : Kept s after := by
  unfold joinResume at returns
  have waits : Kept s { s with joiners := s.joiners.erase joinee } := { Kept.refl s with }
  split at returns
  · obtain ⟨-, rfl⟩ := Prod.mk.inj (Option.some.inj returns)
    exact waits
  split at returns
  · obtain ⟨-, rfl⟩ := Prod.mk.inj (Option.some.inj returns)
    exact .refl _
  · obtain ⟨result, finished, eq⟩ := Option.map_eq_some_iff.mp returns
    obtain ⟨-, rfl⟩ := Prod.mk.inj eq
    exact waits.trans (finishJoin_kept (by exact distinct) finished)
  · obtain ⟨-, rfl⟩ := Prod.mk.inj (Option.some.inj returns)
    exact waits

theorem detach_kept {status : TaskStatus} {thread : PthreadT} {err : Errno} (distinct : s.Distinct)
    (returns : pthreadDetach status thread s = some (err, after)) : Kept s after := by
  simp only [pthreadDetach] at returns
  obtain ⟨reaped, reaps, eq⟩ := Option.map_eq_some_iff.mp returns
  obtain ⟨-, rfl⟩ := Prod.mk.inj eq
  cases found : pthreadInfoId thread s with
  | none =>
    rw [found] at reaps
    exact reap_kept distinct reaps
  | some detachee =>
    rw [found] at reaps
    by_cases already : (s.blocks detachee).state = .detached
    · simp only [if_pos already] at reaps
      exact reap_kept distinct reaps
    · simp only [if_neg already] at reaps
      refine Kept.trans ?_ (reap_kept (by exact distinct) reaps)
      exact .ofBlock rfl rfl rfl (.inr rfl) rfl rfl

theorem writeBehind_kept {slot : ℕ} (far : threadsMax ≤ slot) (value : Option Addr)
    (s : PthreadState) : Kept s { s with threadTable := Function.update s.threadTable slot value } := by
  have same : ∀ slot' < threadsMax, Function.update s.threadTable slot value slot' =
      s.threadTable slot' := fun slot' low => Function.update_of_ne (by omega) _ _
  exact ⟨fun slot' low addr holds => (same slot' low).symm.trans holds, fun _ _ _ _ live => live,
    fun _ _ _ _ => rfl, rfl, rfl⟩

/-- **A section that creates nothing** keeps the table. -/
theorem exec_kept {event : IdEvent} (distinct : s.Distinct)
    (used : ∀ slot < threadsMax, ∀ addr, s.threadTable slot = some addr → s.live addr = true)
    (creates : ∀ status joinable freestack nthread taskInits,
      event ≠ .call (.create status joinable freestack nthread taskInits))
    (runs : idExec s event = some after) : Kept s after := by
  cases event with
  | call event =>
    cases event with
    | create => exact absurd rfl (creates _ _ _ _ _)
    | exit thread retval =>
      obtain ⟨-, exits⟩ := Option.ite_none_right_eq_some.mp runs
      rw [← Option.some.inj exits]
      exact exit_kept thread retval s
    | join reaps self thread =>
      obtain ⟨⟨outcome, _⟩, joined, rfl⟩ := Option.map_eq_some_iff.mp runs
      exact join_kept distinct joined
    | joinResume status joinee cancelled =>
      obtain ⟨-, returns⟩ := Option.ite_none_right_eq_some.mp runs
      obtain ⟨⟨outcome, _⟩, resumed, rfl⟩ := Option.map_eq_some_iff.mp returns
      exact joinResume_kept distinct resumed
    | detach status thread =>
      obtain ⟨⟨err, _⟩, detached, rfl⟩ := Option.map_eq_some_iff.mp runs
      exact detach_kept distinct detached
    | writeBlock addr info =>
      obtain ⟨outside, writes⟩ := Option.ite_none_right_eq_some.mp runs
      rw [← Option.some.inj writes]
      refine .ofBlock rfl rfl rfl (.inl fun slot low holds => ?_) rfl rfl
      rcases outside with dead | unlisted
      · rw [used slot low addr holds] at dead
        cases dead
      · exact unlisted slot low holds
    | writeBehind slot value =>
      obtain ⟨far, writes⟩ := Option.ite_none_right_eq_some.mp runs
      rw [← Option.some.inj writes]
      exact writeBehind_kept far value s
  | cancel asynchronous thread =>
    obtain ⟨⟨err, _⟩, returns, rfl⟩ := Option.map_eq_some_iff.mp runs
    unfold cancelSection at returns
    split at returns
    · obtain ⟨-, rfl⟩ := Prod.mk.inj (Option.some.inj returns)
      exact .refl _
    · split at returns
      · cases returns
      · obtain ⟨-, rfl⟩ := Prod.mk.inj (Option.some.inj returns)
        exact .refl _
  | setschedparam checked thread =>
    obtain rfl := Option.some.inj runs
    unfold setschedparamSection
    split <;> exact .refl _
  | getschedparam thread =>
    obtain rfl := Option.some.inj runs
    exact .refl _

end Sections

/-! ### Identifiers -/

/-- The identifier of the creation with a number, in a slot. -/
def idOf (slot number : ℕ) : PthreadT :=
  BitVec.ofNat 32 slot + BitVec.ofNat 32 (1024 * (number + 2))

theorem idOf_toNat {slot : ℕ} (low : slot < threadsMax) (number : ℕ) :
    (idOf slot number).toNat = slot + 1024 * ((number + 2) % 2 ^ 22) := by
  have small : slot < 64 := low
  rw [idOf, BitVec.toNat_add, BitVec.toNat_ofNat, BitVec.toNat_ofNat]
  omega

theorem infoIndex_eq (id : PthreadT) : infoIndex id = id.toNat % 1024 := by
  have mask : threadIdCookieMask.toNat = 2 ^ 10 - 1 := by decide
  rw [infoIndex, BitVec.toNat_and, mask, Nat.and_two_pow_sub_one_eq_mod]

theorem infoIndex_idOf {slot : ℕ} (low : slot < threadsMax) (number : ℕ) :
    infoIndex (idOf slot number) = slot := by
  have small : slot < 64 := low
  rw [infoIndex_eq, idOf_toNat low]
  omega

/-- Fewer than `2 ^ 22` creations do not repeat an identifier, whatever their slots are. -/
theorem idOf_inj {slot slot' number number' : ℕ} (low : slot < threadsMax) (low' : slot' < threadsMax)
    (few : number < 2 ^ 22) (few' : number' < 2 ^ 22) (same : idOf slot number = idOf slot' number') :
    number = number' := by
  have values : (idOf slot number).toNat = (idOf slot' number').toNat := by rw [same]
  have small : slot < 64 := low
  have small' : slot' < 64 := low'
  rw [idOf_toNat low, idOf_toNat low'] at values
  omega

/-! ### The invariant -/

/-- The invariant. -/
structure IdInv (t : Numbered) : Prop where
  distinct : t.table.Distinct
  live : ∀ slot < threadsMax, ∀ addr, t.table.threadTable slot = some addr → t.table.live addr = true
  /-- A listed block has the identifier of its creation, whose low bits are its slot. -/
  owner : ∀ slot < threadsMax, ∀ addr, t.table.threadTable slot = some addr →
    t.given (t.number addr) = some (t.table.blocks addr).id ∧ infoIndex (t.table.blocks addr).id = slot
  given : ∀ number id, t.given number = some id → ∃ slot < threadsMax, id = idOf slot number
  cookie : t.table.threadIdCookie = BitVec.ofNat 32 (1024 * (t.table.ids.length + 1))

namespace IdInv

variable {t : Numbered} {after : PthreadState}

/-- A table that was kept. -/
theorem kept (inv : IdInv t) (keeps : Kept t.table after) : IdInv ⟨after, t.number⟩ where
  distinct slot low slot' low' addr holds holds' :=
    inv.distinct slot low slot' low' addr (keeps.table slot low addr holds)
      (keeps.table slot' low' addr holds')
  live slot low addr holds :=
    keeps.live slot low addr holds (inv.live slot low addr (keeps.table slot low addr holds))
  owner slot low addr holds := by
    show after.ids.reverse[t.number addr]? = some (after.blocks addr).id ∧ _
    rw [keeps.ids, keeps.id slot low addr holds]
    exact inv.owner slot low addr (keeps.table slot low addr holds)
  given number id holds := by
    refine inv.given number id ?_
    rw [Numbered.given, ← keeps.ids]
    exact holds
  cookie := by rw [keeps.cookie, keeps.ids, inv.cookie]

/-- The next identifier is given to the thread of a block that no slot held. -/
theorem fill (inv : IdInv t) {slot : ℕ} {nthread : Addr} (low : slot < threadsMax)
    (unlisted : t.table.Unlisted nthread)
    (table : after.threadTable = Function.update t.table.threadTable slot (some nthread))
    (live : after.live = Function.update t.table.live nthread true)
    (others : ∀ addr, addr ≠ nthread → after.blocks addr = t.table.blocks addr)
    (block : (after.blocks nthread).id = idOf slot t.table.ids.length)
    (ids : after.ids = idOf slot t.table.ids.length :: t.table.ids)
    (cookie : after.threadIdCookie = t.table.threadIdCookie + threadIdCookieInc) :
    IdInv ⟨after, Function.update t.number nthread t.table.ids.length⟩ := by
  have reversed : after.ids.reverse = t.table.ids.reverse ++ [idOf slot t.table.ids.length] := by
    rw [ids, List.reverse_cons]
  have before : ∀ number id, t.given number = some id → after.ids.reverse[number]? = some id := by
    intro number id old
    rw [reversed]
    exact (List.getElem?_append_left (List.getElem?_eq_some_iff.mp old).1).trans old
  constructor
  case distinct =>
    show PthreadState.Distinct after
    rw [PthreadState.Distinct, table]
    exact inv.distinct.fill unlisted
  case live =>
    show ∀ slot < threadsMax, ∀ addr, after.threadTable slot = some addr → after.live addr = true
    rw [table, live]
    exact live_fill unlisted inv.live
  case owner =>
    intro slot' low' addr holds
    show after.ids.reverse[Function.update t.number nthread t.table.ids.length addr]? = _ ∧ _
    have holds : Function.update t.table.threadTable slot (some nthread) slot' = some addr :=
      table ▸ holds
    rcases filled_cases unlisted low' holds with ⟨rfl, rfl⟩ | ⟨differs, old⟩
    · rw [Function.update_self, block, reversed]
      refine ⟨?_, infoIndex_idOf low _⟩
      rw [List.getElem?_append_right (by rw [List.length_reverse]), List.length_reverse,
        Nat.sub_self]
      rfl
    · rw [Function.update_of_ne differs, others addr differs]
      obtain ⟨given, index⟩ := inv.owner slot' low' addr old
      exact ⟨before _ _ given, index⟩
  case given =>
    intro number id holds
    change after.ids.reverse[number]? = some id at holds
    rw [reversed] at holds
    by_cases old : number < t.table.ids.length
    · rw [List.getElem?_append_left (by rw [List.length_reverse]; exact old)] at holds
      exact inv.given number id holds
    · rw [List.getElem?_append_right (by rw [List.length_reverse]; omega),
        List.length_reverse] at holds
      obtain ⟨last, value⟩ := List.getElem?_eq_some_iff.mp holds
      have exact_number : number = t.table.ids.length := by
        rw [List.length_singleton] at last
        omega
      exact ⟨slot, low, by rw [← value, List.getElem_singleton, exact_number]⟩
  case cookie =>
    show after.threadIdCookie = BitVec.ofNat 32 (1024 * (after.ids.length + 1))
    have inc : threadIdCookieInc = BitVec.ofNat 32 1024 := by decide
    rw [cookie, inv.cookie, inc, ids, List.length_cons, ← BitVec.ofNat_add,
      Nat.mul_add_one 1024 (t.table.ids.length + 1)]

end IdInv

/-- **A creation** keeps the invariant if it stays inside the table. -/
theorem create_idInv {t : Numbered} {after : PthreadState} {status : TaskStatus}
    {joinable freestack taskInits : Bool} {nthread : Addr} (inv : IdInv t)
    (inTable : IndexInTable t (.call (.create status joinable freestack nthread taskInits)))
    (runs : idExec t.table (.call (.create status joinable freestack nthread taskInits)) =
      some after) :
    IdInv (t.next (.call (.create status joinable freestack nthread taskInits)) after) := by
  obtain ⟨inside, inits⟩ := inTable
  obtain ⟨⟨unlisted, -⟩, returns⟩ := Option.ite_none_right_eq_some.mp runs
  obtain ⟨⟨err, _⟩, created, rfl⟩ := Option.map_eq_some_iff.mp returns
  unfold pthreadCreate at created
  split at created
  · cases created
  rename_i reaped reaps
  have pass := pthreadReap_pass reaps
  have keeps := reap_kept inv.distinct reaps
  have unlisted' := pass.unlisted unlisted
  have sameNumbers : ∀ {s : PthreadState}, s.ids = reaped.ids →
      t.next (.call (.create status joinable freestack nthread taskInits)) s = ⟨s, t.number⟩ := by
    intro s same
    unfold Numbered.next
    simp only [same, keeps.ids, if_true]
  split at created
  · cases created
  · obtain ⟨-, rfl⟩ := Prod.mk.inj (Option.some.inj created)
    rw [sameNumbers (by cases freestack <;> rfl)]
    refine inv.kept (keeps.trans ?_)
    cases freestack with
    | false => exact .refl _
    | true =>
      refine ⟨fun _ _ _ holds => holds, fun slot low addr holds live => ?_, fun _ _ _ _ => rfl, rfl,
        rfl⟩
      show Function.update reaped.live nthread false addr = true
      have differs : addr ≠ nthread := by
        rintro rfl
        exact unlisted' slot low holds
      rw [Function.update_of_ne differs]
      exact live
  · rename_i slot found
    have low : slot < threadsMax := by
      rcases (findSlot_spec found).2 with rfl | low
      · rw [pass.next]
        exact inside
      · exact low
    have cookie : reaped.threadIdCookie + threadIdCookieInc =
        BitVec.ofNat 32 (1024 * (reaped.ids.length + 2)) := by
      have inc : threadIdCookieInc = BitVec.ofNat 32 1024 := by decide
      rw [(inv.kept keeps).cookie, inc, ← BitVec.ofNat_add,
        Nat.mul_add_one 1024 (reaped.ids.length + 1)]
    have identifier : BitVec.ofNat 32 slot + (reaped.threadIdCookie + threadIdCookieInc) =
        idOf slot reaped.ids.length := by rw [cookie, idOf]
    simp only [if_pos inits, Option.some.injEq, Prod.mk.injEq] at created
    obtain ⟨-, rfl⟩ := created
    have longer : (idOf slot reaped.ids.length :: reaped.ids).length ≠ t.table.ids.length := by
      rw [keeps.ids, List.length_cons]
      omega
    unfold Numbered.next
    simp only [identifier, if_neg longer]
    rw [← keeps.ids]
    refine (inv.kept keeps).fill low unlisted' rfl rfl (fun addr differs => ?_) ?_ rfl rfl
    · exact Function.update_of_ne differs _ _
    · show (Function.update reaped.blocks nthread _ nthread).id = _
      rw [Function.update_self]

/-- **Each section** keeps the invariant. -/
theorem id_step {t : Numbered} {after : PthreadState} {event : IdEvent} (inv : IdInv t)
    (inTable : IndexInTable t event) (runs : idExec t.table event = some after) :
    IdInv (t.next event after) := by
  by_cases creates : ∃ status joinable freestack nthread taskInits,
      event = .call (.create status joinable freestack nthread taskInits)
  · obtain ⟨status, joinable, freestack, nthread, taskInits, rfl⟩ := creates
    exact create_idInv inv inTable runs
  · have keeps := exec_kept inv.distinct inv.live
      (fun status joinable freestack nthread taskInits same =>
        creates ⟨status, joinable, freestack, nthread, taskInits, same⟩) runs
    have numbers : t.next event after = ⟨after, t.number⟩ := by
      cases event with
      | call event =>
        cases event with
        | create status joinable freestack nthread taskInits =>
          exact absurd ⟨status, joinable, freestack, nthread, taskInits, rfl⟩ creates
        | _ => rfl
      | _ => rfl
    rw [numbers]
    exact inv.kept keeps

theorem id_run {t : Numbered} (reached : idSystem.ReachableBy IndexInTable t) : IdInv t := by
  refine reached.invariant IdInv ?_ ?_
  · rintro ⟨_, number⟩ ⟨behind, blocks, rfl⟩
    have empty : ∀ slot < threadsMax, (PthreadState.initial behind blocks).threadTable slot = none :=
      fun slot low => if_pos low
    have unheld : ∀ {slot addr}, slot < threadsMax →
        (PthreadState.initial behind blocks).threadTable slot = some addr → False := by
      intro slot addr low holds
      rw [empty slot low] at holds
      cases holds
    refine ⟨fun slot low _ _ _ holds => (unheld low holds).elim,
      fun slot low _ holds => (unheld low holds).elim,
      fun slot low _ holds => (unheld low holds).elim, fun _ _ holds => (by cases holds), ?_⟩
    show threadIdCookieInc = BitVec.ofNat 32 (1024 * 1)
    decide
  · rintro t event _ - inv inTable ⟨after, runs, rfl⟩
    exact id_step inv inTable runs

/-! ### The result -/

/-- The lookup compares all that is to be compared, once it looks into the table. -/
theorem lookup_exact {t : Numbered} {id : PthreadT} (inv : IdInv t)
    (inBounds : infoIndex id < threadsMax) (addr : Addr) :
    pthreadInfoId id t.table = some addr ↔ Named t.table id addr := by
  constructor
  · intro found
    obtain ⟨holds, notFree, notExited⟩ := pthreadInfoId_inv found
    refine ⟨⟨infoIndex id, inBounds, holds⟩, inv.live _ inBounds addr holds, notFree, notExited, ?_⟩
    by_contra differs
    rw [pthreadInfoId, holds] at found
    simp only [notFree, notExited, differs, or_self, if_false, ne_eq, not_false_eq_true,
      if_true] at found
    cases found
  · rintro ⟨⟨slot, low, holds⟩, -, notFree, notExited, rfl⟩
    obtain ⟨-, rfl⟩ := inv.owner slot low addr holds
    have place : t.table.threadTable ((t.table.blocks addr).id &&& threadIdCookieMask).toNat =
      some addr := holds
    rw [pthreadInfoId, place]
    simp only [notFree, notExited, or_self, if_false, ne_eq, not_true_eq_false]

/-- **The lookup of a `pthread_t`.** In every run whose creations stay inside the table and whose
callers pass identifiers with a slot in their low bits, the lookup of any value is right if and only
if its low bits are a slot; and as long as there were fewer than `2 ^ 22` creations, an identifier
leads to no thread but the one that it was given to. -/
theorem id_lookup_iff {t : Numbered} (reached : idSystem.ReachableBy IndexInTable t) :
    (∀ id, LookupOk t.table id ↔ infoIndex id < threadsMax) ∧
      (t.table.ids.length < 2 ^ 22 → IdsUnique t) := by
  have inv := id_run reached
  refine ⟨fun id => ⟨LookupOk.inBounds, fun inBounds => ⟨inBounds, lookup_exact inv inBounds⟩⟩, ?_⟩
  intro few
  have count : ∀ number id, t.given number = some id → number < t.table.ids.length := by
    intro number id given
    have bound := (List.getElem?_eq_some_iff.mp given).1
    rwa [List.length_reverse] at bound
  -- two creations with one identifier are the same creation
  have apart : ∀ number number' id, t.given number = some id → t.given number' = some id →
      number = number' := by
    intro number number' id given given'
    obtain ⟨slot, low, rfl⟩ := inv.given number id given
    obtain ⟨slot', low', same⟩ := inv.given number' _ given'
    have first := count number _ given
    have second := count number' _ given'
    exact idOf_inj low low' (by omega) (by omega) same
  constructor
  · rw [← List.nodup_reverse, List.nodup_iff_getElem?_ne_getElem?]
    intro number number' before bound same
    have given : t.given number' = some t.table.ids.reverse[number'] :=
      List.getElem?_eq_some_iff.mpr ⟨bound, rfl⟩
    exact absurd (apart number number' _ (same.trans given) given) (by omega)
  · intro id addr number inBounds found given
    obtain ⟨⟨slot, low, holds⟩, -, -, -, rfl⟩ := (lookup_exact inv inBounds addr).mp found
    exact apart _ _ _ (inv.owner slot low addr holds).1 given

/-- One thread was created and exited. -/
theorem id_lookup_iff_exited : ∃ t, t.table.ids = [0x800] ∧
    (∀ id, LookupOk t.table id ↔ infoIndex id < threadsMax) ∧ IdsUnique t := by
  have start : idSystem.ReachableBy IndexInTable ⟨PthreadState.zeroed, fun _ => 0⟩ :=
    .start zeroed_init
  have created := start.by_event (IdEvent.call (.create allDead true true 100 true))
    ⟨by decide, rfl⟩ ⟨_, rfl, rfl⟩
  have exited := created.by_event (IdEvent.call (.exit 100 7)) trivial ⟨_, rfl, rfl⟩
  exact ⟨_, rfl, (id_lookup_iff exited).1, (id_lookup_iff exited).2 (by decide)⟩

/-- The word behind the table holds the address of something that looks like a block. -/
def PthreadState.behindTable : PthreadState :=
  .initial (fun _ => some 500) fun _ => ⟨.running, 64, 0, false⟩

/-- **An identifier with 64 in its low bits** is looked up behind the table, and found there before
any thread was created. -/
theorem lookup_behind_table : ∃ t, idSystem.Reachable t ∧ pthreadInfoId 64 t.table = some 500 ∧
    ¬ infoIndex 64 < threadsMax ∧ ¬ LookupOk t.table 64 := by
  refine ⟨⟨.behindTable, fun _ => 0⟩, .start ⟨_, _, rfl⟩, rfl, by decide, fun ok => ?_⟩
  exact absurd ok.inBounds (by decide)

end Aple.Pthread
