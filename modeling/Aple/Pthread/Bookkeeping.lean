/-
**The bookkeeping of the thread table.**

* `TableOk` — the counters agree with the table, its blocks are in use, an exited thread stays so.
* `TableInv` — the invariant behind it; `view` is the table as the blocks its slots hold, so that a
  step changes the counts by one slot's share (`Lib.total_update`).
* `OrderlyUse` — the steps that keep it: `taskInit` succeeds, the slot search does not start behind
  the table, no exited thread is detached, no join goes on with a block that was reaped.
* **`table_ok_when_orderly`** — then the table is right in every state; `detached_after_exit` and
  `failed_init_leaks` are runs where it is not.
-/

import Aple.Lib.Claims
import Aple.Lib.Total
import Aple.Pthread.Table

namespace Aple.Pthread

open Aple.Lib

/-! ### The table as blocks -/

/-- What the slots of a table hold. -/
def viewOf (threadTable : ℕ → Option Addr) (blocks : Addr → PthreadInfo) (slot : Fin threadsMax) :
    Option PthreadInfo :=
  (threadTable slot).map blocks

/-- How much the slots of a table contribute. -/
def tally (share : Option PthreadInfo → ℕ) (threadTable : ℕ → Option Addr)
    (blocks : Addr → PthreadInfo) : ℤ :=
  (total share (viewOf threadTable blocks) : ℕ)

/-- A slot that is not null. -/
def occupied : Option PthreadInfo → ℕ
  | some _ => 1
  | none => 0

/-- A slot whose block is in the given state. -/
def inState (state : ThreadState) : Option PthreadInfo → ℕ
  | some info => if info.state = state then 1 else 0
  | none => 0

/-- The bookkeeping of the table. -/
structure TableOk (s : PthreadState) : Prop where
  count : s.pthreadCount = tally occupied s.threadTable s.blocks
  exited : s.pthreadsExited = tally (inState .exited) s.threadTable s.blocks
  tobejoined : s.pthreadsTobejoined = tally (inState .join) s.threadTable s.blocks
  live : ∀ slot < threadsMax, ∀ addr, s.threadTable slot = some addr → s.live addr = true
  /-- A thread that has exited is waiting to be joined or to be reaped. -/
  stays : ∀ slot < threadsMax, ∀ addr, s.threadTable slot = some addr → s.phase addr = .finished →
    (s.blocks addr).state = .join ∨ (s.blocks addr).state = .exited

/-- No two slots hold the same block. -/
def PthreadState.Distinct (s : PthreadState) : Prop :=
  ∀ slot < threadsMax, ∀ slot' < threadsMax, ∀ addr, s.threadTable slot = some addr →
    s.threadTable slot' = some addr → slot = slot'

/-- The phase of a listed thread and the state of its block: on its way, or exited. -/
def Agrees (phase : Phase) (state : ThreadState) : Prop :=
  phase = .active ∧ (state = .running ∨ state = .detached) ∨
    phase = .finished ∧ (state = .join ∨ state = .exited)

/-- The invariant. -/
structure TableInv (s : PthreadState) : Prop where
  count : s.pthreadCount = tally occupied s.threadTable s.blocks
  exited : s.pthreadsExited = tally (inState .exited) s.threadTable s.blocks
  tobejoined : s.pthreadsTobejoined = tally (inState .join) s.threadTable s.blocks
  live : ∀ slot < threadsMax, ∀ addr, s.threadTable slot = some addr → s.live addr = true
  phase : ∀ slot < threadsMax, ∀ addr, s.threadTable slot = some addr →
    Agrees (s.phase addr) (s.blocks addr).state
  listed : ∀ addr, s.phase addr = .active → ∃ slot < threadsMax, s.threadTable slot = some addr
  distinct : s.Distinct
  next : s.threadInfoNext ≤ threadsMax
  cookie : s.threadIdCookie.toNat % 1024 = 0
  ids : ∀ id ∈ s.ids, (id &&& threadIdCookieMask).toNat < threadsMax

theorem TableInv.ok {s : PthreadState} (inv : TableInv s) : TableOk s where
  count := inv.count
  exited := inv.exited
  tobejoined := inv.tobejoined
  live := inv.live
  stays slot low addr holds finished := by
    rcases inv.phase slot low addr holds with ⟨active, -⟩ | ⟨-, state⟩
    · rw [finished] at active
      cases active
    · exact state

theorem tableInv_initial (behind : ℕ → Option Addr) (blocks : Addr → PthreadInfo) :
    TableInv (PthreadState.initial behind blocks) := by
  have empty : ∀ slot < threadsMax, (PthreadState.initial behind blocks).threadTable slot = none :=
    fun slot low => if_pos low
  have unseen :
      ∀ slot, viewOf (PthreadState.initial behind blocks).threadTable blocks slot = none := by
    intro slot
    unfold viewOf
    rw [empty slot slot.isLt]
    rfl
  have zero : ∀ share : Option PthreadInfo → ℕ, share none = 0 →
      0 = tally share (PthreadState.initial behind blocks).threadTable blocks := by
    intro share nothing
    unfold tally
    rw [total_eq_zero fun slot => by rw [unseen slot, nothing]]
    rfl
  constructor
  case count => exact zero occupied rfl
  case exited => exact zero (inState .exited) rfl
  case tobejoined => exact zero (inState .join) rfl
  case live =>
    intro slot low addr holds
    rw [empty slot low] at holds
    cases holds
  case phase =>
    intro slot low addr holds
    rw [empty slot low] at holds
    cases holds
  case listed =>
    intro addr active
    cases active
  case distinct =>
    intro slot low slot' low' addr holds
    rw [empty slot low] at holds
    cases holds
  case next => exact Nat.zero_le _
  case cookie =>
    show threadIdCookieInc.toNat % 1024 = 0
    decide
  case ids =>
    intro id member
    cases member

/-! ### Changing one slot -/

section Slots

variable {s : PthreadState} {slot : ℕ} {addr : Addr}

/-- Writing a block changes the view of the slot that lists it. -/
theorem viewOf_setBlock (low : slot < threadsMax) (holds : s.threadTable slot = some addr)
    (distinct : s.Distinct) (info : PthreadInfo) :
    viewOf s.threadTable (Function.update s.blocks addr info) =
      Function.update (viewOf s.threadTable s.blocks) ⟨slot, low⟩ (some info) := by
  funext other
  by_cases same : other = ⟨slot, low⟩
  · rw [same, Function.update_self, viewOf, holds, Option.map_some, Function.update_self]
  · rw [Function.update_of_ne same, viewOf, viewOf]
    cases held : s.threadTable other with
    | none => rfl
    | some addr' =>
      have differs : addr' ≠ addr := by
        rintro rfl
        exact same (Fin.ext (distinct other other.isLt slot low addr' held holds))
      rw [Option.map_some, Option.map_some, Function.update_of_ne differs]

/-- Writing a block that is not listed changes nothing. -/
theorem viewOf_unlisted (unlisted : s.Unlisted addr) (info : PthreadInfo) :
    viewOf s.threadTable (Function.update s.blocks addr info) = viewOf s.threadTable s.blocks := by
  funext other
  rw [viewOf, viewOf]
  cases held : s.threadTable other with
  | none => rfl
  | some addr' =>
    have differs : addr' ≠ addr := by
      rintro rfl
      exact unlisted other other.isLt held
    rw [Option.map_some, Option.map_some, Function.update_of_ne differs]

/-- Writing a slot changes the view of that slot. -/
theorem viewOf_setSlot (low : slot < threadsMax) (value : Option Addr) (blocks : Addr → PthreadInfo) :
    viewOf (Function.update s.threadTable slot value) blocks =
      Function.update (viewOf s.threadTable blocks) ⟨slot, low⟩ (value.map blocks) := by
  funext other
  by_cases same : other = ⟨slot, low⟩
  · rw [same, Function.update_self, viewOf, Function.update_self]
  · have differs : other.val ≠ slot := fun equal => same (Fin.ext equal)
    rw [Function.update_of_ne same, viewOf, viewOf, Function.update_of_ne differs]

/-- **What the slots hold after a new block was stored** in one of them: this block there, or what
they held, which is another block. -/
theorem filled_cases {slot' : ℕ} {addr' : Addr} (unlisted : s.Unlisted addr)
    (low : slot' < threadsMax)
    (holds : Function.update s.threadTable slot (some addr) slot' = some addr') :
    slot' = slot ∧ addr' = addr ∨ addr' ≠ addr ∧ s.threadTable slot' = some addr' := by
  rcases update_eq_some holds with ⟨same, new⟩ | ⟨-, old⟩
  · exact .inl ⟨same, (Option.some.inj new).symm⟩
  · refine .inr ⟨?_, old⟩
    rintro rfl
    exact unlisted slot' low old

theorem PthreadState.Distinct.fill (distinct : s.Distinct) (unlisted : s.Unlisted addr) :
    ∀ first < threadsMax, ∀ second < threadsMax, ∀ addr',
      Function.update s.threadTable slot (some addr) first = some addr' →
      Function.update s.threadTable slot (some addr) second = some addr' → first = second := by
  intro first low second low' addr' holds holds'
  rcases filled_cases unlisted low holds with ⟨here, new⟩ | ⟨old, there⟩
  · rcases filled_cases unlisted low' holds' with ⟨here', -⟩ | ⟨old', -⟩
    · rw [here, here']
    · exact absurd new old'
  · rcases filled_cases unlisted low' holds' with ⟨-, new'⟩ | ⟨-, there'⟩
    · exact absurd new' old
    · exact distinct first low second low' addr' there there'

/-- The new block is in use, and the others stay so. -/
theorem live_fill (unlisted : s.Unlisted addr)
    (live : ∀ slot < threadsMax, ∀ addr, s.threadTable slot = some addr → s.live addr = true) :
    ∀ slot' < threadsMax, ∀ addr',
      Function.update s.threadTable slot (some addr) slot' = some addr' →
      Function.update s.live addr true addr' = true := by
  intro slot' low addr' holds
  rcases filled_cases unlisted low holds with ⟨-, rfl⟩ | ⟨old, there⟩
  · exact Function.update_self ..
  · exact (Function.update_of_ne old _ _).trans (live slot' low addr' there)

/-- **A slot that changes moves a tally by its own share.** -/
theorem tally_update {threadTable : ℕ → Option Addr} {blocks : Addr → PthreadInfo}
    {before after : Option PthreadInfo} (share : Option PthreadInfo → ℕ) (low : slot < threadsMax)
    (held : viewOf s.threadTable s.blocks ⟨slot, low⟩ = before)
    (view : viewOf threadTable blocks =
      Function.update (viewOf s.threadTable s.blocks) ⟨slot, low⟩ after) :
    tally share threadTable blocks + share before = tally share s.threadTable s.blocks + share after := by
  have moved := total_update share (viewOf s.threadTable s.blocks) ⟨slot, low⟩ after
  rw [held] at moved
  unfold tally
  rw [view]
  omega

end Slots

/-! ### Steps of the invariant -/

namespace TableInv

variable {s : PthreadState} {slot : ℕ} {addr : Addr}

/-- A listed block gets another state, and the counters move with it. -/
theorem change (inv : TableInv s) (low : slot < threadsMax) (holds : s.threadTable slot = some addr)
    {info : PthreadInfo} {phase : Addr → Phase} {exited tobejoined : ℤ}
    (others : ∀ other, other ≠ addr → phase other = s.phase other)
    (agrees : Agrees (phase addr) info.state)
    (exits : exited + inState .exited (some (s.blocks addr)) =
      s.pthreadsExited + inState .exited (some info))
    (joins : tobejoined + inState .join (some (s.blocks addr)) =
      s.pthreadsTobejoined + inState .join (some info)) :
    TableInv { s.setBlock addr info with
      phase := phase, pthreadsExited := exited, pthreadsTobejoined := tobejoined } := by
  have held : viewOf s.threadTable s.blocks ⟨slot, low⟩ = some (s.blocks addr) :=
    congrArg (Option.map s.blocks) holds
  have moved := fun share => tally_update share low held (viewOf_setBlock low holds inv.distinct info)
  constructor
  case count => exact inv.count.trans (add_right_cancel (moved occupied)).symm
  case exited =>
    show exited = tally (inState .exited) s.threadTable (Function.update s.blocks addr info)
    have shares := moved (inState .exited)
    have before := inv.exited
    omega
  case tobejoined =>
    show tobejoined = tally (inState .join) s.threadTable (Function.update s.blocks addr info)
    have shares := moved (inState .join)
    have before := inv.tobejoined
    omega
  case live => exact inv.live
  case phase =>
    intro slot' low' addr' holds'
    show Agrees (phase addr') (Function.update s.blocks addr info addr').state
    by_cases same : addr' = addr
    · rw [same, Function.update_self]
      exact agrees
    · rw [Function.update_of_ne same, others addr' same]
      exact inv.phase slot' low' addr' holds'
  case listed =>
    intro addr' active
    by_cases same : addr' = addr
    · exact ⟨slot, low, same ▸ holds⟩
    · refine inv.listed addr' ?_
      rw [← others addr' same]
      exact active
  case distinct => exact inv.distinct
  case next => exact inv.next
  case cookie => exact inv.cookie
  case ids => exact inv.ids

/-- A slot whose thread has exited is given up, and its block may be freed. -/
theorem clear (inv : TableInv s) (low : slot < threadsMax) (holds : s.threadTable slot = some addr)
    (exited : (s.blocks addr).state = .exited) {live : Addr → Bool}
    (others : ∀ other, other ≠ addr → live other = s.live other) :
    TableInv { s with
      threadTable := Function.update s.threadTable slot none
      pthreadCount := s.pthreadCount - 1
      pthreadsExited := s.pthreadsExited - 1
      live := live } := by
  have held : viewOf s.threadTable s.blocks ⟨slot, low⟩ = some (s.blocks addr) :=
    congrArg (Option.map s.blocks) holds
  have moved := fun share => tally_update share low held (viewOf_setSlot low none s.blocks)
  have kept : ∀ slot' addr', Function.update s.threadTable slot none slot' = some addr' →
      slot' ≠ slot ∧ s.threadTable slot' = some addr' := fun _ _ => update_none_eq_some
  constructor
  case count =>
    show s.pthreadCount - 1 = tally occupied (Function.update s.threadTable slot none) s.blocks
    have shares := moved occupied
    have before := inv.count
    simp only [occupied, Option.map_none] at shares
    omega
  case exited =>
    show s.pthreadsExited - 1 =
      tally (inState .exited) (Function.update s.threadTable slot none) s.blocks
    have shares := moved (inState .exited)
    have before := inv.exited
    simp only [inState, exited, if_true, Option.map_none] at shares
    omega
  case tobejoined =>
    show s.pthreadsTobejoined =
      tally (inState .join) (Function.update s.threadTable slot none) s.blocks
    have shares := moved (inState .join)
    have before := inv.tobejoined
    simp [inState, exited] at shares
    omega
  case live =>
    intro slot' low' addr' holds'
    obtain ⟨differs, holds'⟩ := kept slot' addr' holds'
    have other : addr' ≠ addr := by
      rintro rfl
      exact differs (inv.distinct slot' low' slot low addr' holds' holds)
    exact (others addr' other).trans (inv.live slot' low' addr' holds')
  case phase =>
    intro slot' low' addr' holds'
    exact inv.phase slot' low' addr' (kept slot' addr' holds').2
  case listed =>
    intro addr' active
    obtain ⟨slot', low', holds'⟩ := inv.listed addr' active
    refine ⟨slot', low', ?_⟩
    have differs : slot' ≠ slot := by
      rintro rfl
      obtain rfl : addr' = addr := Option.some.inj (holds'.symm.trans holds)
      rcases inv.phase slot' low' addr' holds' with ⟨-, running | detached⟩ | ⟨finished, -⟩
      · rw [exited] at running
        cases running
      · rw [exited] at detached
        cases detached
      · rw [finished] at active
        cases active
    show Function.update s.threadTable slot none slot' = some addr'
    rw [Function.update_of_ne differs]
    exact holds'
  case distinct =>
    intro first low' second low'' addr' holds' holds''
    exact inv.distinct first low' second low'' addr' (kept first addr' holds').2
      (kept second addr' holds'').2
  case next => exact inv.next
  case cookie => exact inv.cookie
  case ids => exact inv.ids

/-- A free slot gets the block of a new thread. -/
theorem fill (inv : TableInv s) (low : slot < threadsMax) (empty : s.threadTable slot = none)
    (unlisted : s.Unlisted addr) {info : PthreadInfo} {cookie id : PthreadT}
    (fresh : info.state = .running ∨ info.state = .detached) (cookies : cookie.toNat % 1024 = 0)
    (index : (id &&& threadIdCookieMask).toNat < threadsMax) :
    TableInv { s with
      threadTable := Function.update s.threadTable slot (some addr)
      threadInfoNext := slot + 1
      threadIdCookie := cookie
      blocks := Function.update s.blocks addr info
      live := Function.update s.live addr true
      pthreadCount := s.pthreadCount + 1
      phase := Function.update s.phase addr .active
      ids := id :: s.ids } := by
  have held : viewOf s.threadTable s.blocks ⟨slot, low⟩ = none :=
    congrArg (Option.map s.blocks) empty
  have view : viewOf (Function.update s.threadTable slot (some addr))
      (Function.update s.blocks addr info) =
      Function.update (viewOf s.threadTable s.blocks) ⟨slot, low⟩ (some info) := by
    rw [viewOf_setSlot low, viewOf_unlisted unlisted, Option.map_some, Function.update_self]
  have moved := fun share => tally_update share low held view
  have uncounted : ∀ state, state = .exited ∨ state = .join → inState state (some info) = 0 := by
    intro state ended
    refine if_neg ?_
    rintro rfl
    rcases fresh with fresh | fresh <;> rcases ended with ended | ended <;> rw [fresh] at ended <;>
      cases ended
  constructor
  case count =>
    show s.pthreadCount + 1 = tally occupied (Function.update s.threadTable slot (some addr))
      (Function.update s.blocks addr info)
    have shares := moved occupied
    have before := inv.count
    simp only [occupied] at shares
    omega
  case exited =>
    show s.pthreadsExited = tally (inState .exited) (Function.update s.threadTable slot (some addr))
      (Function.update s.blocks addr info)
    have shares := moved (inState .exited)
    have before := inv.exited
    rw [uncounted .exited (.inl rfl)] at shares
    simp only [inState] at shares
    omega
  case tobejoined =>
    show s.pthreadsTobejoined = tally (inState .join)
      (Function.update s.threadTable slot (some addr)) (Function.update s.blocks addr info)
    have shares := moved (inState .join)
    have before := inv.tobejoined
    rw [uncounted .join (.inr rfl)] at shares
    simp only [inState] at shares
    omega
  case live => exact live_fill unlisted inv.live
  case phase =>
    intro slot' low' addr' holds'
    show Agrees (Function.update s.phase addr .active addr')
      (Function.update s.blocks addr info addr').state
    rcases filled_cases unlisted low' holds' with ⟨-, rfl⟩ | ⟨differs, old⟩
    · rw [Function.update_self, Function.update_self]
      exact .inl ⟨rfl, fresh⟩
    · rw [Function.update_of_ne differs, Function.update_of_ne differs]
      exact inv.phase slot' low' addr' old
  case listed =>
    intro addr' active
    by_cases same : addr' = addr
    · refine ⟨slot, low, ?_⟩
      rw [same]
      exact Function.update_self ..
    · change Function.update s.phase addr .active addr' = .active at active
      rw [Function.update_of_ne same] at active
      obtain ⟨slot', low', holds'⟩ := inv.listed addr' active
      have differs : slot' ≠ slot := by
        rintro rfl
        rw [empty] at holds'
        cases holds'
      refine ⟨slot', low', ?_⟩
      show Function.update s.threadTable slot (some addr) slot' = some addr'
      rw [Function.update_of_ne differs]
      exact holds'
  case distinct => exact inv.distinct.fill unlisted
  case next => exact low
  case cookie => exact cookies
  case ids =>
    intro id' member
    rcases List.mem_cons.mp member with new | old
    · rw [new]
      exact index
    · exact inv.ids id' old

/-- A block that is not listed may be freed. -/
theorem freeUnlisted (inv : TableInv s) (unlisted : s.Unlisted addr) :
    TableInv (s.freeStack addr) where
  count := inv.count
  exited := inv.exited
  tobejoined := inv.tobejoined
  live slot low addr' holds := by
    show Function.update s.live addr false addr' = true
    have differs : addr' ≠ addr := by
      rintro rfl
      exact unlisted slot low holds
    rw [Function.update_of_ne differs]
    exact inv.live slot low addr' holds
  phase := inv.phase
  listed := inv.listed
  distinct := inv.distinct
  next := inv.next
  cookie := inv.cookie
  ids := inv.ids

/-- The waiting joins are not part of the bookkeeping. -/
theorem withJoiners (inv : TableInv s) (joiners : List Addr) :
    TableInv { s with joiners := joiners } :=
  ⟨inv.count, inv.exited, inv.tobejoined, inv.live, inv.phase, inv.listed, inv.distinct, inv.next,
    inv.cookie, inv.ids⟩

end TableInv

/-! ### The reaper -/

/-- What the reaper leaves alone. -/
structure Reaped (s after : PthreadState) : Prop where
  blocks : after.blocks = s.blocks
  phase : after.phase = s.phase
  next : after.threadInfoNext = s.threadInfoNext
  cookie : after.threadIdCookie = s.threadIdCookie
  joiners : after.joiners = s.joiners
  ids : after.ids = s.ids
  table : ∀ slot addr, after.threadTable slot = some addr → s.threadTable slot = some addr
  behind : ∀ slot, threadsMax ≤ slot → after.threadTable slot = s.threadTable slot

namespace Reaped

variable {s middle after : PthreadState}

theorem refl (s : PthreadState) : Reaped s s :=
  ⟨rfl, rfl, rfl, rfl, rfl, rfl, fun _ _ holds => holds, fun _ _ => rfl⟩

theorem trans (first : Reaped s middle) (second : Reaped middle after) : Reaped s after where
  blocks := second.blocks.trans first.blocks
  phase := second.phase.trans first.phase
  next := second.next.trans first.next
  cookie := second.cookie.trans first.cookie
  joiners := second.joiners.trans first.joiners
  ids := second.ids.trans first.ids
  table slot addr holds := first.table slot addr (second.table slot addr holds)
  behind slot far := (second.behind slot far).trans (first.behind slot far)

end Reaped

theorem reapSlot_inv {status : TaskStatus} {slot : ℕ} {s after : PthreadState} (inv : TableInv s)
    (low : slot < threadsMax) (returns : reapSlot status slot s = some after) :
    TableInv after ∧ Reaped s after := by
  rcases reapSlot_cases returns with rfl | ⟨thread, live, holds, exited, -, others, rfl⟩
  · exact ⟨inv, .refl after⟩
  · have table : ∀ slot' addr, Function.update s.threadTable slot none slot' = some addr →
        s.threadTable slot' = some addr := fun _ _ holds' => (update_none_eq_some holds').2
    have behind : ∀ slot', threadsMax ≤ slot' →
        Function.update s.threadTable slot none slot' = s.threadTable slot' := by
      intro slot' far
      exact Function.update_of_ne (by omega) _ _
    exact ⟨inv.clear low holds exited others, rfl, rfl, rfl, rfl, rfl, rfl, table, behind⟩

theorem reapSlots_inv {status : TaskStatus} {slots : List ℕ} {s after : PthreadState}
    (inv : TableInv s) (low : ∀ slot ∈ slots, slot < threadsMax)
    (returns : reapSlots status slots s = some after) : TableInv after ∧ Reaped s after := by
  induction slots generalizing s with
  | nil =>
    rw [← Option.some.inj returns]
    exact ⟨inv, .refl s⟩
  | cons slot rest ih =>
    rw [reapSlots] at returns
    split at returns
    · obtain ⟨middle, first, others⟩ := Option.bind_eq_some_iff.mp returns
      obtain ⟨inv', reaped⟩ := reapSlot_inv inv (low slot List.mem_cons_self) first
      obtain ⟨inv'', reaped'⟩ :=
        ih inv' (fun other member => low other (List.mem_cons_of_mem _ member))
        others
      exact ⟨inv'', reaped.trans reaped'⟩
    · rw [← Option.some.inj returns]
      exact ⟨inv, .refl s⟩

/-- **The reaper** keeps the invariant. -/
theorem pthreadReap_inv {status : TaskStatus} {s after : PthreadState} (inv : TableInv s)
    (returns : pthreadReap status s = some after) : TableInv after ∧ Reaped s after :=
  reapSlots_inv inv (fun _ member => List.mem_range.mp member) returns

/-! ### Lookup -/

theorem pthreadInfoId_inv {thread : PthreadT} {s : PthreadState} {addr : Addr}
    (found : pthreadInfoId thread s = some addr) :
    s.threadTable (thread &&& threadIdCookieMask).toNat = some addr ∧
      (s.blocks addr).state ≠ .free ∧ (s.blocks addr).state ≠ .exited := by
  simp only [pthreadInfoId] at found
  split at found
  · cases found
  rename_i info holds
  split at found
  · cases found
  rename_i usable
  split at found
  · cases found
  · obtain rfl : info = addr := Option.some.inj found
    exact ⟨holds, fun free => usable (.inl free), fun exited => usable (.inr exited)⟩

theorem slotAfter_lt (slot : ℕ) : slotAfter slot < threadsMax := by
  unfold slotAfter
  split
  · decide
  · omega

/-- The search ends at an empty slot: the one it started at, or one of the table. -/
theorem findSlot_spec {s : PthreadState} {slot : ℕ} (found : findSlot s = some (some slot)) :
    s.threadTable slot = none ∧ (slot = s.threadInfoNext ∨ slot < threadsMax) := by
  refine loop_partial (fun next => next = s.threadInfoNext ∨ next < threadsMax)
    (fun result => ∀ slot, result = some slot →
      s.threadTable slot = none ∧ (slot = s.threadInfoNext ∨ slot < threadsMax)) ?_
    (.inl rfl) found slot rfl
  intro next out within turned
  unfold slotTurn at turned
  by_cases empty : s.threadTable next = none
  · rw [if_pos empty] at turned
    rw [← Option.some.inj turned]
    rintro _ same
    rw [← Option.some.inj same]
    exact ⟨empty, within⟩
  · rw [if_neg empty] at turned
    split at turned
    · rw [← Option.some.inj turned]
      rintro _ impossible
      cases impossible
    · rw [← Option.some.inj turned]
      exact .inr (slotAfter_lt next)

/-- The low bits of an identifier are its slot. -/
theorem id_index {slot : ℕ} {cookie : PthreadT} (low : slot < threadsMax)
    (cookies : cookie.toNat % 1024 = 0) :
    ((BitVec.ofNat 32 slot + cookie) &&& threadIdCookieMask).toNat = slot := by
  have mask : threadIdCookieMask.toNat = 2 ^ 10 - 1 := by decide
  unfold threadsMax at low
  rw [BitVec.toNat_and, mask, Nat.and_two_pow_sub_one_eq_mod, BitVec.toNat_add, BitVec.toNat_ofNat]
  omega

theorem cookie_step {cookie : PthreadT} (cookies : cookie.toNat % 1024 = 0) :
    (cookie + threadIdCookieInc).toNat % 1024 = 0 := by
  have inc : threadIdCookieInc.toNat = 1024 := by decide
  rw [BitVec.toNat_add, inc]
  omega

/-! ### Section by section -/

/-- The uses that keep the bookkeeping: a `pthread_create` whose `taskInit` succeeds and whose slot
search does not end behind the table, a `pthread_detach` of a thread that has not exited, a join
that does not take a reaped block for one to be joined. -/
def OrderlyUse (s : PthreadState) : PthreadEvent → Prop
  | .create _ _ _ _ taskInits => taskInits = true ∧
      (s.threadInfoNext < threadsMax ∨ s.threadTable s.threadInfoNext ≠ none)
  | .joinResume _ joinee cancelled => cancelled = false → (s.blocks joinee).state = .join →
      ¬ s.Unlisted joinee
  | .detach _ thread => ∀ detachee, pthreadInfoId thread s = some detachee →
      (s.blocks detachee).state ≠ .join
  | _ => True

section Sections

variable {s after : PthreadState}

theorem create_inv (inv : TableInv s) {status : TaskStatus} {joinable freestack taskInits : Bool}
    {nthread : Addr} (orderly : OrderlyUse s (.create status joinable freestack nthread taskInits))
    (runs : pthreadExec s (.create status joinable freestack nthread taskInits) = some after) :
    TableInv after := by
  obtain ⟨⟨unlisted, dead⟩, returns⟩ := Option.ite_none_right_eq_some.mp runs
  obtain ⟨inits, inside⟩ := orderly
  obtain ⟨⟨err, s'⟩, created, rfl⟩ := Option.map_eq_some_iff.mp returns
  unfold pthreadCreate at created
  split at created
  · cases created
  rename_i reapedState reaps
  obtain ⟨inv', reaped⟩ := pthreadReap_inv inv reaps
  have unlisted' : reapedState.Unlisted nthread := fun slot low holds =>
    unlisted slot low (reaped.table slot nthread holds)
  split at created
  · cases created
  · obtain ⟨-, rfl⟩ := Prod.mk.inj (Option.some.inj created)
    show TableInv (if freestack then reapedState.freeStack nthread else reapedState)
    split
    · exact inv'.freeUnlisted unlisted'
    · exact inv'
  · rename_i threadNext found
    obtain ⟨empty, place⟩ := findSlot_spec found
    have low : threadNext < threadsMax := by
      rcases place with rfl | low
      · rcases inside with low | behind
        · rw [reaped.next]
          exact low
        · -- the word behind the table is not null, and the reaper does not touch it
          by_contra far
          rw [reaped.next] at empty far
          rw [reaped.behind _ (Nat.not_lt.mp far)] at empty
          exact behind empty
      · exact low
    have cookies := cookie_step inv'.cookie
    simp only [if_pos inits, Option.some.injEq, Prod.mk.injEq] at created
    rw [← created.2]
    refine inv'.fill low empty unlisted' ?_ cookies ?_
    · cases joinable
      · exact .inr rfl
      · exact .inl rfl
    · rw [id_index low cookies]
      exact low

/-- **pthread_exit** of a thread on its way. -/
theorem exit_inv (inv : TableInv s) {thread : Addr} {retval : BitVec 64}
    (runs : pthreadExec s (.exit thread retval) = some after) : TableInv after := by
  obtain ⟨active, exits⟩ := Option.ite_none_right_eq_some.mp runs
  rw [← Option.some.inj exits]
  obtain ⟨slot, low, holds⟩ := inv.listed thread active
  have others : ∀ other, other ≠ thread →
      Function.update s.phase thread .finished other = s.phase other := fun other differs =>
    Function.update_of_ne differs _ _
  have finished : Function.update s.phase thread Phase.finished thread = .finished :=
    Function.update_self ..
  rcases inv.phase slot low thread holds with ⟨-, state⟩ | ⟨finished', -⟩
  · unfold pthreadExit
    rcases state with running | detached
    · have notDetached : (s.blocks thread).state ≠ .detached := by simp [running]
      rw [if_neg notDetached]
      refine inv.change low holds others (.inr ⟨finished, .inl rfl⟩) ?_ ?_
      · simp [inState, running, PthreadState.setBlock]
      · simp [inState, running]
    · rw [if_pos detached]
      refine inv.change low holds others (.inr ⟨finished, .inr rfl⟩) ?_ ?_
      · simp [inState, detached]
      · simp [inState, detached, PthreadState.setBlock]
  · rw [active] at finished'
    cases finished'

/-- The end of a join, for a listed thread. -/
theorem finishJoin_inv (inv : TableInv s) {status : TaskStatus} {joinee : Addr} {slot : ℕ}
    {result : BitVec 64 × PthreadState} (low : slot < threadsMax)
    (holds : s.threadTable slot = some joinee) (join : (s.blocks joinee).state = .join)
    (returns : finishJoin status joinee s = some result) : TableInv result.2 := by
  obtain ⟨reapedState, reaps, rfl⟩ := Option.map_eq_some_iff.mp returns
  refine (pthreadReap_inv ?_ reaps).1
  have finished : s.phase joinee = .finished := by
    rcases inv.phase slot low joinee holds with ⟨-, running | detached⟩ | ⟨finished, -⟩
    · rw [join] at running
      cases running
    · rw [join] at detached
      cases detached
    · exact finished
  refine inv.change low holds (fun _ _ => rfl) (.inr ⟨finished, .inr rfl⟩) ?_ ?_
  · simp [inState, join]
  · simp [inState, join]

theorem join_inv (inv : TableInv s) {reaps : TaskStatus × TaskStatus} {self : Addr}
    {thread : PthreadT} (runs : pthreadExec s (.join reaps self thread) = some after) :
    TableInv after := by
  obtain ⟨known, returns⟩ := Option.ite_none_right_eq_some.mp runs
  obtain ⟨⟨outcome, s'⟩, joined, rfl⟩ := Option.map_eq_some_iff.mp returns
  unfold pthreadJoin at joined
  split at joined
  · cases joined
  rename_i reapedState reaped
  obtain ⟨inv', frame⟩ := pthreadReap_inv inv reaped
  split at joined
  · obtain ⟨-, rfl⟩ := Prod.mk.inj (Option.some.inj joined)
    exact inv'
  rename_i joinee found
  split at joined
  · obtain ⟨-, rfl⟩ := Prod.mk.inj (Option.some.inj joined)
    exact inv'
  obtain ⟨holds, -, -⟩ := pthreadInfoId_inv found
  split at joined
  · obtain ⟨-, rfl⟩ := Prod.mk.inj (Option.some.inj joined)
    exact inv'.withJoiners _
  · rename_i join
    obtain ⟨result, finished, eq⟩ := Option.map_eq_some_iff.mp joined
    obtain ⟨-, rfl⟩ := Prod.mk.inj eq
    exact finishJoin_inv inv' (inv.ids thread known) holds join finished
  · obtain ⟨-, rfl⟩ := Prod.mk.inj (Option.some.inj joined)
    exact inv'

theorem joinResume_inv (inv : TableInv s) {status : TaskStatus} {joinee : Addr} {cancelled : Bool}
    (orderly : OrderlyUse s (.joinResume status joinee cancelled))
    (runs : pthreadExec s (.joinResume status joinee cancelled) = some after) : TableInv after := by
  obtain ⟨-, returns⟩ := Option.ite_none_right_eq_some.mp runs
  obtain ⟨⟨outcome, s'⟩, resumed, rfl⟩ := Option.map_eq_some_iff.mp returns
  unfold joinResume at resumed
  cases cancelled with
  | true =>
    obtain ⟨-, rfl⟩ := Prod.mk.inj (Option.some.inj resumed)
    exact inv.withJoiners _
  | false =>
    rw [if_neg (by simp)] at resumed
    split at resumed
    · obtain ⟨-, rfl⟩ := Prod.mk.inj (Option.some.inj resumed)
      exact inv
    · rename_i join
      obtain ⟨result, finished, eq⟩ := Option.map_eq_some_iff.mp resumed
      obtain ⟨-, rfl⟩ := Prod.mk.inj eq
      have listed := orderly rfl join
      unfold PthreadState.Unlisted at listed
      push Not at listed
      obtain ⟨slot, low, holds⟩ := listed
      exact finishJoin_inv (inv.withJoiners (s.joiners.erase joinee)) low holds join finished
    · obtain ⟨-, rfl⟩ := Prod.mk.inj (Option.some.inj resumed)
      exact inv.withJoiners _

theorem detach_inv (inv : TableInv s) {status : TaskStatus} {thread : PthreadT}
    (orderly : OrderlyUse s (.detach status thread))
    (runs : pthreadExec s (.detach status thread) = some after) : TableInv after := by
  obtain ⟨known, returns⟩ := Option.ite_none_right_eq_some.mp runs
  obtain ⟨⟨ret, s'⟩, detached, rfl⟩ := Option.map_eq_some_iff.mp returns
  simp only [pthreadDetach] at detached
  obtain ⟨reapedState, reaps, eq⟩ := Option.map_eq_some_iff.mp detached
  obtain ⟨-, rfl⟩ := Prod.mk.inj eq
  refine (pthreadReap_inv ?_ reaps).1
  cases found : pthreadInfoId thread s with
  | none => exact inv
  | some detachee =>
    show TableInv (if (s.blocks detachee).state = .detached then (Errno.einval, s) else _).2
    split
    · exact inv
    · rename_i notDetached
      obtain ⟨holds, notFree, notExited⟩ := pthreadInfoId_inv found
      have notJoin := orderly detachee found
      have low := inv.ids thread known
      rcases inv.phase _ low detachee holds with ⟨active, running | detached⟩ | ⟨-, join | exited⟩
      · refine inv.change low holds (fun _ _ => rfl) (.inl ⟨active, .inr rfl⟩) ?_ ?_
        · simp [inState, running]
        · simp [inState, running]
      · exact absurd detached notDetached
      · exact absurd join notJoin
      · exact absurd exited notExited

/-- Other code writes to memory that no slot points to. -/
theorem writeBlock_inv (inv : TableInv s) {addr : Addr} {info : PthreadInfo}
    (runs : pthreadExec s (.writeBlock addr info) = some after) : TableInv after := by
  obtain ⟨outside, writes⟩ := Option.ite_none_right_eq_some.mp runs
  rw [← Option.some.inj writes]
  have unlisted : s.Unlisted addr := by
    rcases outside with dead | unlisted
    · intro slot low holds
      rw [inv.live slot low addr holds] at dead
      cases dead
    · exact unlisted
  have view := viewOf_unlisted unlisted info
  have same : ∀ share, tally share s.threadTable (Function.update s.blocks addr info) =
      tally share s.threadTable s.blocks := by
    intro share
    unfold tally
    rw [view]
  refine { inv with
    count := inv.count.trans (same _).symm
    exited := inv.exited.trans (same _).symm
    tobejoined := inv.tobejoined.trans (same _).symm
    phase := fun slot low addr' holds => ?_ }
  show Agrees (s.phase addr') (Function.update s.blocks addr info addr').state
  have differs : addr' ≠ addr := by
    rintro rfl
    exact unlisted slot low holds
  rw [Function.update_of_ne differs]
  exact inv.phase slot low addr' holds

/-- Other code writes to the words behind the table. -/
theorem writeBehind_inv (inv : TableInv s) {slot : ℕ} {value : Option Addr}
    (runs : pthreadExec s (.writeBehind slot value) = some after) : TableInv after := by
  obtain ⟨far, writes⟩ := Option.ite_none_right_eq_some.mp runs
  rw [← Option.some.inj writes]
  have same : ∀ slot' < threadsMax, Function.update s.threadTable slot value slot' =
      s.threadTable slot' := fun slot' low => Function.update_of_ne (by omega) _ _
  have view : viewOf (Function.update s.threadTable slot value) s.blocks =
      viewOf s.threadTable s.blocks := by
    funext slot'
    rw [viewOf, viewOf, same slot' slot'.isLt]
  have tallies : ∀ share, tally share (Function.update s.threadTable slot value) s.blocks =
      tally share s.threadTable s.blocks := by
    intro share
    unfold tally
    rw [view]
  exact { inv with
    count := inv.count.trans (tallies _).symm
    exited := inv.exited.trans (tallies _).symm
    tobejoined := inv.tobejoined.trans (tallies _).symm
    live := fun slot' low addr holds => inv.live slot' low addr ((same slot' low).symm.trans holds)
    phase := fun slot' low addr holds => inv.phase slot' low addr ((same slot' low).symm.trans holds)
    listed := fun addr active => by
      obtain ⟨slot', low, holds⟩ := inv.listed addr active
      exact ⟨slot', low, (same slot' low).trans holds⟩
    distinct := fun first low second low' addr holds holds' =>
      inv.distinct first low second low' addr ((same first low).symm.trans holds)
        ((same second low').symm.trans holds') }

end Sections

/-! ### Runs -/

/-- **Each orderly section keeps the invariant.** -/
theorem pthread_step {s after : PthreadState} {event : PthreadEvent} (inv : TableInv s)
    (orderly : OrderlyUse s event) (runs : pthreadExec s event = some after) : TableInv after := by
  cases event with
  | create => exact create_inv inv orderly runs
  | exit => exact exit_inv inv runs
  | join => exact join_inv inv runs
  | joinResume => exact joinResume_inv inv orderly runs
  | detach => exact detach_inv inv orderly runs
  | writeBlock => exact writeBlock_inv inv runs
  | writeBehind => exact writeBehind_inv inv runs

/-- **The bookkeeping is right** in every state of every run whose sections are all orderly. -/
theorem table_ok_when_orderly {s : PthreadState}
    (reached : pthreadSystem.ReachableBy OrderlyUse s) : TableOk s := by
  refine (reached.invariant TableInv ?_ ?_).ok
  · rintro _ ⟨behind, blocks, rfl⟩
    exact tableInv_initial behind blocks
  · rintro s event after - inv orderly runs
    exact pthread_step inv orderly runs

/-- A table over zeroed memory. -/
def PthreadState.zeroed : PthreadState :=
  PthreadState.initial (fun _ => none) fun _ => ⟨.free, 0, 0, false⟩

theorem zeroed_init : pthreadSystem.init PthreadState.zeroed := ⟨_, _, rfl⟩

/-- Every task is dead when the reaper looks at it. -/
def allDead : TaskStatus := fun _ => some true

/-- A joinable thread is created, exits and is joined. -/
theorem table_ok_when_orderly_joined :
    ∃ s, runEvents pthreadExec PthreadState.zeroed
        [.create allDead true true 100 true, .exit 100 7, .join (allDead, allDead) 200 0x800] = some s ∧
      s.pthreadCount = 0 ∧ TableOk s := by
  have start : pthreadSystem.ReachableBy OrderlyUse PthreadState.zeroed := .start zeroed_init
  have created := start.by_event (PthreadEvent.create allDead true true 100 true)
    ⟨rfl, .inl (by decide)⟩ rfl
  have exited := created.by_event (PthreadEvent.exit 100 7) trivial rfl
  have joined := exited.by_event (PthreadEvent.join (allDead, allDead) 200 0x800) trivial rfl
  exact ⟨_, rfl, rfl, table_ok_when_orderly joined⟩

/-- **A thread that is detached after it exited** goes back to `DETACHED`: its slot is never reaped,
and it stays counted among the threads to be joined. -/
theorem detached_after_exit :
    ∃ s, pthreadSystem.Reachable s ∧ runEvents pthreadExec PthreadState.zeroed
        [.create allDead true true 100 true, .exit 100 7, .detach allDead 0x800] = some s ∧
      ¬ TableOk s := by
  have start : pthreadSystem.Reachable PthreadState.zeroed := .start zeroed_init
  have runs : runEvents pthreadExec PthreadState.zeroed
      [.create allDead true true 100 true, .exit 100 7, .detach allDead 0x800] = some _ := rfl
  refine ⟨_, start.run (fun _ _ _ ran => ⟨trivial, ran⟩) runs, runs, fun ok => ?_⟩
  rcases ok.stays 0 (by decide) 100 rfl rfl with join | exited
  · cases join
  · cases exited

/-- **A `taskInit` that fails** leaves the freed block in its slot. -/
theorem failed_init_leaks :
    ∃ s, pthreadSystem.Reachable s ∧ s.threadTable 0 = some 100 ∧ s.live 100 = false ∧
      s.pthreadCount = 0 := by
  have start : pthreadSystem.Reachable PthreadState.zeroed := .start zeroed_init
  have runs : runEvents pthreadExec PthreadState.zeroed
      [.create allDead true true 100 false] = some _ := rfl
  exact ⟨_, start.run (fun _ _ _ ran => ⟨trivial, ran⟩) runs, rfl, rfl, rfl⟩

end Aple.Pthread
