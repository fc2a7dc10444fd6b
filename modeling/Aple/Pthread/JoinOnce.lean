/-
**One join of a thread succeeds, and none reads a released block.**

* `JoinsInv` — the blocks of the table are the numbered threads, each in a stage of its life; a call
  under way keeps the address of the thread it was called for. One lemma for each kind of change.
* **`joins_ok_when_spared`** — the promise holds in every run where no pass of the reaper releases a
  block that another call of `pthread_join` still points to.
* `two_joins_succeed` — two joins wait; the first one to be woken reaps the thread, the other one
  goes on with the memory of the block and returns 0 as well.
-/

import Aple.Pthread.Bookkeeping
import Aple.Pthread.JoinCalls
import Aple.Pthread.Reaper

namespace Aple.Pthread

open Aple.Lib

/-! ### Released blocks -/

section Released

variable {dead : ℕ → Prop} {s after : PthreadState} {slot : ℕ} {addr : Addr}

/-- A block that lost its slot belongs to a thread that has exited. -/
theorem ReaperPass.cleared (pass : ReaperPass dead s after) (lost : Cleared s after addr) :
    ∃ slot < threadsMax, s.threadTable slot = some addr ∧ (s.blocks addr).state = .exited ∧
      dead slot := by
  obtain ⟨slot, low, holds, differs⟩ := lost
  refine ⟨slot, low, holds, ?_⟩
  rcases pass.slots slot low with same | ⟨addr', holds', -, exited, died⟩
  · rw [same] at differs
    exact absurd holds differs
  · obtain rfl : addr = addr' := Option.some.inj (holds.symm.trans holds')
    exact ⟨exited, died⟩

end Released

/-! ### The invariant -/

/-- How far the thread of a block is: what it left, and what its block says. -/
def Stage (phase : Phase) (exit : Option (BitVec 64)) (info : PthreadInfo) : Prop :=
  phase = .active ∧ exit = none ∧ (info.state = .running ∨ info.state = .detached) ∨
    phase = .finished ∧ exit = some info.retval ∧
      (info.state = .join ∨ info.state = .exited ∨ info.state = .detached)

/-- The invariant. -/
structure JoinsInv (s : JoinState) : Prop where
  distinct : s.table.Distinct
  listed : ∀ slot < threadsMax, ∀ addr, s.table.threadTable slot = some addr →
    ∃ thread, s.serial addr = some thread
  placed : ∀ addr thread, s.serial addr = some thread →
    ∃ slot < threadsMax, s.table.threadTable slot = some addr
  live : ∀ slot < threadsMax, ∀ addr, s.table.threadTable slot = some addr → s.table.live addr = true
  apart : ∀ addr addr' thread, s.serial addr = some thread → s.serial addr' = some thread → addr = addr'
  numbered : ∀ addr thread, s.serial addr = some thread → thread < s.created
  active : ∀ addr, s.table.phase addr = .active → ∃ thread, s.serial addr = some thread
  stage : ∀ addr thread, s.serial addr = some thread →
    Stage (s.table.phase addr) (s.exits thread) (s.table.blocks addr)
  future : ∀ thread, s.created ≤ thread → s.exits thread = none
  returned : ∀ thread retval, (thread, retval) ∈ s.returned →
    ∃ number, thread = some number ∧ s.exits number = some retval
  once : (s.returned.map Prod.fst).Nodup
  /-- A join that returned 0 left the block of its thread as `EXITED`. -/
  unjoined : ∀ addr thread, s.serial addr = some thread → (s.table.blocks addr).state ≠ .exited →
    some thread ∉ s.returned.map Prod.fst
  /-- A call under way keeps the address of its thread. -/
  joining : ∀ call joinee thread, (s.calls call).joining = some (joinee, thread) →
    ∃ number, thread = some number ∧ s.serial joinee = some number
  safe : s.staleReads = []
  next : s.table.threadInfoNext ≤ threadsMax
  cookie : s.table.threadIdCookie.toNat % 1024 = 0
  ids : ∀ id ∈ s.table.ids, (id &&& threadIdCookieMask).toNat < threadsMax

/-- No call points to the block of a thread that has exited and that the reaper finds dead. -/
def Guarded (s : JoinState) (dead : ℕ → Prop) : Prop :=
  ∀ call joinee thread, (s.calls call).joining = some (joinee, thread) → ∀ slot < threadsMax,
    s.table.threadTable slot = some joinee → (s.table.blocks joinee).state = .exited → ¬ dead slot

namespace JoinsInv

variable {s : JoinState} {after : PthreadState} {dead : ℕ → Prop} {addr : Addr} {thread : ℕ}

theorem ok (inv : JoinsInv s) : JoinsOk s where
  once number := List.nodup_iff_count_le_one.mp inv.once (some number)
  value number retval member := by
    obtain ⟨number', same, exits⟩ := inv.returned (some number) retval member
    rw [Option.some.inj same]
    exact exits
  safe := inv.safe

/-- A thread has exited before its block says so. -/
theorem finished (inv : JoinsInv s) (serial : s.serial addr = some thread)
    (exited : (s.table.blocks addr).state = .exited ∨ (s.table.blocks addr).state = .join) :
    s.table.phase addr = .finished ∧ s.exits thread = some (s.table.blocks addr).retval := by
  rcases inv.stage addr thread serial with ⟨-, -, running | detached⟩ | ⟨finished, left, -⟩
  · rw [running] at exited
    rcases exited with exited | exited <;> cases exited
  · rw [detached] at exited
    rcases exited with exited | exited <;> cases exited
  · exact ⟨finished, left⟩

/-! ### One lemma for each kind of change -/

/-- The calls move on, each with the address of its thread. -/
theorem moved (inv : JoinsInv s) {calls : ℕ → JoinPc}
    (joining : ∀ call joinee thread, (calls call).joining = some (joinee, thread) →
      ∃ number, thread = some number ∧ s.serial joinee = some number) :
    JoinsInv { s with calls := calls } :=
  { inv with joining := joining }

theorem goto (inv : JoinsInv s) (call : ℕ) {pc : JoinPc}
    (joining : ∀ joinee thread, pc.joining = some (joinee, thread) →
      ∃ number, thread = some number ∧ s.serial joinee = some number) :
    JoinsInv (s.goto call pc) := by
  refine inv.moved fun other joinee thread pending => ?_
  by_cases same : other = call
  · rw [same, Function.update_self] at pending
    exact joining joinee thread pending
  · rw [Function.update_of_ne same] at pending
    exact inv.joining other joinee thread pending

/-- A call that returns keeps nothing. -/
theorem leaves (inv : JoinsInv s) (call : ℕ) : JoinsInv (s.goto call .outside) :=
  inv.goto call fun joinee thread pending => by cases pending

/-- The semaphores are not part of the invariant. -/
theorem withJoiner (inv : JoinsInv s) (joiner : Addr → Bool) :
    JoinsInv { s with joiner := joiner } :=
  { inv with }

theorem withJoiners (inv : JoinsInv s) (joiners : List Addr) :
    JoinsInv { s with table := { s.table with joiners := joiners } } :=
  { inv with }

/-- A call that keeps the address of its thread reads a block that is still there. -/
theorem reads (inv : JoinsInv s) {call : ℕ} {joinee : Addr} {thread : Option ℕ}
    (pending : (s.calls call).joining = some (joinee, thread)) : s.reads joinee thread = s := by
  obtain ⟨number, same, serial⟩ := inv.joining call joinee thread pending
  refine if_pos ?_
  rw [serial, same]

/-- The block of a listed thread that has not exited is written. -/
theorem change (inv : JoinsInv s) (serial : s.serial addr = some thread)
    (before : (s.table.blocks addr).state ≠ .exited) {info : PthreadInfo} {phase : Addr → Phase}
    {exits : ℕ → Option (BitVec 64)} {exited tobejoined : ℤ}
    (others : ∀ other, other ≠ addr → phase other = s.table.phase other)
    (same : ∀ other, other ≠ thread → exits other = s.exits other)
    (stage : Stage (phase addr) (exits thread) info) :
    JoinsInv { s with
      table := { s.table.setBlock addr info with
        phase := phase, pthreadsExited := exited, pthreadsTobejoined := tobejoined }
      exits := exits } := by
  have notReturned := inv.unjoined addr thread serial before
  have differs : ∀ other number, other ≠ addr → s.serial other = some number → number ≠ thread := by
    rintro other number apart serial' rfl
    exact apart (inv.apart other addr number serial' serial)
  refine { inv with active := ?_, stage := ?_, future := ?_, returned := ?_, unjoined := ?_ }
  · intro other active
    by_cases equal : other = addr
    · exact ⟨thread, equal ▸ serial⟩
    · refine inv.active other ?_
      rw [← others other equal]
      exact active
  · intro other number serial'
    show Stage (phase other) (exits number) (Function.update s.table.blocks addr info other)
    by_cases equal : other = addr
    · obtain rfl : number = thread := Option.some.inj ((equal ▸ serial').symm.trans serial)
      rw [equal, Function.update_self]
      exact stage
    · rw [Function.update_of_ne equal, others other equal, same number (differs other number equal serial')]
      exact inv.stage other number serial'
  · intro number late
    show exits number = none
    have different : number ≠ thread := by
      rintro rfl
      exact absurd (inv.numbered addr number serial) (Nat.not_lt.mpr late)
    rw [same number different]
    exact inv.future number late
  · intro number retval member
    obtain ⟨number', rfl, left⟩ := inv.returned number retval member
    refine ⟨number', rfl, ?_⟩
    have different : number' ≠ thread := by
      rintro rfl
      exact notReturned (List.mem_map_of_mem (f := Prod.fst) member)
    show exits number' = some retval
    rw [same number' different]
    exact left
  · intro other number serial' notExited
    by_cases equal : other = addr
    · obtain rfl : number = thread := Option.some.inj ((equal ▸ serial').symm.trans serial)
      exact notReturned
    · refine inv.unjoined other number serial' ?_
      change (Function.update s.table.blocks addr info other).state ≠ .exited at notExited
      rwa [Function.update_of_ne equal] at notExited

/-- A join returns 0 with the value that its thread left, and its block says `EXITED`. -/
theorem deliver (inv : JoinsInv s) (serial : s.serial addr = some thread)
    (exited : (s.table.blocks addr).state = .exited) {retval : BitVec 64}
    (left : s.exits thread = some retval) (first : some thread ∉ s.returned.map Prod.fst) :
    JoinsInv { s with returned := (some thread, retval) :: s.returned } := by
  refine { inv with returned := ?_, once := ?_, unjoined := ?_ }
  · intro number value member
    rcases List.mem_cons.mp member with new | old
    · obtain ⟨rfl, rfl⟩ := Prod.mk.inj new
      exact ⟨thread, rfl, left⟩
    · exact inv.returned number value old
  · show (some thread :: s.returned.map Prod.fst).Nodup
    exact List.nodup_cons.mpr ⟨first, inv.once⟩
  · intro other number serial' notExited member
    rcases List.mem_cons.mp member with new | old
    · obtain rfl : number = thread := Option.some.inj new
      obtain rfl := inv.apart other addr number serial' serial
      exact notExited exited
    · exact inv.unjoined other number serial' notExited old

theorem settle_serial {number : ℕ} (holds : (s.settle after).serial addr = some number) :
    ¬ Cleared s.table after addr ∧ s.serial addr = some number := by
  change (if Cleared s.table after addr then none else s.serial addr) = some number at holds
  split at holds
  · cases holds
  · exact ⟨by assumption, holds⟩

theorem wake_joining (s : JoinState) (after : PthreadState) (pc : JoinPc) :
    (s.wake after pc).joining = pc.joining := by
  unfold JoinState.wake
  split
  · split <;> rfl
  · rfl

/-- What a pass does not clear keeps its number. -/
theorem serial_settle (serial : s.serial addr = some thread) (kept : ¬ Cleared s.table after addr) :
    (s.settle after).serial addr = some thread := (if_neg kept).trans serial

/-- It keeps its slot, too. -/
theorem slot_kept {slot : ℕ} (low : slot < threadsMax) (holds : s.table.threadTable slot = some addr)
    (kept : ¬ Cleared s.table after addr) : after.threadTable slot = some addr := by
  by_contra lost
  exact kept ⟨slot, low, holds, lost⟩

/-- What is listed behind a pass was not cleared. -/
theorem uncleared (inv : JoinsInv s) (pass : ReaperPass dead s.table after) {slot : ℕ}
    (low : slot < threadsMax) (holds : after.threadTable slot = some addr) :
    ¬ Cleared s.table after addr := by
  rintro ⟨slot', low', holds', lost⟩
  obtain rfl := inv.distinct slot low slot' low' addr (pass.kept low holds) holds'
  exact lost holds

theorem listed_settle (inv : JoinsInv s) (pass : ReaperPass dead s.table after) {slot : ℕ}
    (low : slot < threadsMax) (holds : after.threadTable slot = some addr) :
    ∃ thread, (s.settle after).serial addr = some thread := by
  obtain ⟨thread, serial⟩ := inv.listed slot low addr (pass.kept low holds)
  exact ⟨thread, serial_settle serial (inv.uncleared pass low holds)⟩

theorem placed_settle (inv : JoinsInv s) (serial : (s.settle after).serial addr = some thread) :
    ∃ slot < threadsMax, after.threadTable slot = some addr := by
  obtain ⟨kept, serial⟩ := settle_serial serial
  obtain ⟨slot, low, holds⟩ := inv.placed addr thread serial
  exact ⟨slot, low, slot_kept low holds kept⟩

/-- Only blocks that lost their slots are freed. -/
theorem live_settle (inv : JoinsInv s) (pass : ReaperPass dead s.table after) {slot : ℕ}
    (low : slot < threadsMax) (holds : after.threadTable slot = some addr) : after.live addr = true := by
  have held := pass.kept low holds
  rcases pass.live addr with same | ⟨slot', low', holds', cleared⟩
  · exact same.trans (inv.live slot low addr held)
  · obtain rfl := inv.distinct slot low slot' low' addr held holds'
    rw [cleared] at holds
    cases holds

/-- A running thread loses nothing. -/
theorem active_settle (inv : JoinsInv s) (pass : ReaperPass dead s.table after)
    (active : after.phase addr = .active) : ∃ thread, (s.settle after).serial addr = some thread := by
  rw [pass.phase] at active
  obtain ⟨thread, serial⟩ := inv.active addr active
  refine ⟨thread, serial_settle serial fun lost => ?_⟩
  obtain ⟨-, -, -, exited, -⟩ := pass.cleared lost
  rw [(inv.finished serial (.inl exited)).1] at active
  cases active

/-- Neither does a call. -/
theorem joining_settle (inv : JoinsInv s) (pass : ReaperPass dead s.table after) (guarded : Guarded s dead)
    {call : ℕ} {joinee : Addr} {thread : Option ℕ}
    (pending : (s.wake after (s.calls call)).joining = some (joinee, thread)) :
    ∃ number, thread = some number ∧ (s.settle after).serial joinee = some number := by
  rw [wake_joining] at pending
  obtain ⟨number, same, serial⟩ := inv.joining call joinee thread pending
  refine ⟨number, same, serial_settle serial fun lost => ?_⟩
  obtain ⟨slot, low, holds, exited, died⟩ := pass.cleared lost
  exact guarded call joinee thread pending slot low holds exited died

/-- **A pass of the reaper** that releases no block a call points to. -/
theorem settle (inv : JoinsInv s) (pass : ReaperPass dead s.table after) (guarded : Guarded s dead) :
    JoinsInv (s.settle after) where
  distinct slot low slot' low' addr holds holds' :=
    inv.distinct slot low slot' low' addr (pass.kept low holds) (pass.kept low' holds')
  listed _ low _ holds := inv.listed_settle pass low holds
  placed _ _ serial := inv.placed_settle serial
  live _ low _ holds := inv.live_settle pass low holds
  apart addr addr' thread serial serial' :=
    inv.apart addr addr' thread (settle_serial serial).2 (settle_serial serial').2
  numbered addr thread serial := inv.numbered addr thread (settle_serial serial).2
  active _ active := inv.active_settle pass active
  stage addr thread serial := by
    show Stage (after.phase addr) (s.exits thread) (after.blocks addr)
    rw [pass.phase, pass.blocks]
    exact inv.stage addr thread (settle_serial serial).2
  future := inv.future
  returned := inv.returned
  once := inv.once
  unjoined addr thread serial notExited := by
    change (after.blocks addr).state ≠ .exited at notExited
    rw [pass.blocks] at notExited
    exact inv.unjoined addr thread (settle_serial serial).2 notExited
  joining _ _ _ pending := inv.joining_settle pass guarded pending
  safe := inv.safe
  next := by
    show after.threadInfoNext ≤ threadsMax
    rw [pass.next]
    exact inv.next
  cookie := by
    show after.threadIdCookie.toNat % 1024 = 0
    rw [pass.cookie]
    exact inv.cookie
  ids := by
    show ∀ id ∈ after.ids, (id &&& threadIdCookieMask).toNat < threadsMax
    rw [pass.ids]
    exact inv.ids

/-- A block that is not listed may be freed or written. -/
theorem unlisted (inv : JoinsInv s) (absent : s.table.Unlisted addr) {live : Addr → Bool}
    {blocks : Addr → PthreadInfo} (lives : ∀ other, other ≠ addr → live other = s.table.live other)
    (same : ∀ other, other ≠ addr → blocks other = s.table.blocks other) :
    JoinsInv { s with table := { s.table with live := live, blocks := blocks } } := by
  have differs : ∀ other number, s.serial other = some number → other ≠ addr := by
    rintro other number serial rfl
    obtain ⟨slot, low, holds⟩ := inv.placed other number serial
    exact absent slot low holds
  refine { inv with live := ?_, stage := ?_, unjoined := ?_ }
  · intro slot low other holds
    have apart : other ≠ addr := by
      rintro rfl
      exact absent slot low holds
    exact (lives other apart).trans (inv.live slot low other holds)
  · intro other number serial
    show Stage (s.table.phase other) (s.exits number) (blocks other)
    rw [same other (differs other number serial)]
    exact inv.stage other number serial
  · intro other number serial notExited
    refine inv.unjoined other number serial ?_
    rw [← same other (differs other number serial)]
    exact notExited

/-! ### A new thread -/

/-- A block with a number is the new one or one that had its number before. -/
theorem serial_cases {addr' : Addr} {number : ℕ}
    (serial : Function.update s.serial addr (some s.created) addr' = some number) :
    addr' = addr ∧ number = s.created ∨ addr' ≠ addr ∧ s.serial addr' = some number := by
  rcases update_eq_some serial with ⟨same, new⟩ | old
  · exact .inl ⟨same, (Option.some.inj new).symm⟩
  · exact .inr old

/-- The other blocks keep their numbers. -/
theorem serial_older (inv : JoinsInv s) (absent : s.table.Unlisted addr) {addr' : Addr} {number : ℕ}
    (serial : s.serial addr' = some number) :
    Function.update s.serial addr (some s.created) addr' = some number := by
  refine (Function.update_of_ne ?_ _ _).trans serial
  rintro rfl
  obtain ⟨slot', low', holds⟩ := inv.placed addr' number serial
  exact absent slot' low' holds

theorem listed_fill (inv : JoinsInv s) (absent : s.table.Unlisted addr) {slot slot' : ℕ}
    (low' : slot' < threadsMax) {addr' : Addr}
    (holds : Function.update s.table.threadTable slot (some addr) slot' = some addr') :
    ∃ number, Function.update s.serial addr (some s.created) addr' = some number := by
  rcases filled_cases absent low' holds with ⟨-, rfl⟩ | ⟨-, there⟩
  · exact ⟨s.created, Function.update_self ..⟩
  · obtain ⟨number, serial⟩ := inv.listed slot' low' addr' there
    exact ⟨number, inv.serial_older absent serial⟩

theorem placed_fill (inv : JoinsInv s) {slot : ℕ} (low : slot < threadsMax)
    (empty : s.table.threadTable slot = none) {addr' : Addr} {number : ℕ}
    (serial : Function.update s.serial addr (some s.created) addr' = some number) :
    ∃ slot' < threadsMax,
      Function.update s.table.threadTable slot (some addr) slot' = some addr' := by
  rcases serial_cases serial with ⟨rfl, -⟩ | ⟨-, old⟩
  · exact ⟨slot, low, Function.update_self ..⟩
  · obtain ⟨slot', low', holds⟩ := inv.placed addr' number old
    refine ⟨slot', low', (Function.update_of_ne ?_ _ _).trans holds⟩
    rintro rfl
    rw [empty] at holds
    cases holds

/-- The new number is nobody else's. -/
theorem apart_fill (inv : JoinsInv s) {first second : Addr} {number : ℕ}
    (serial : Function.update s.serial addr (some s.created) first = some number)
    (serial' : Function.update s.serial addr (some s.created) second = some number) :
    first = second := by
  rcases serial_cases serial with ⟨rfl, rfl⟩ | ⟨-, old⟩
  · rcases serial_cases serial' with ⟨rfl, -⟩ | ⟨-, old'⟩
    · rfl
    · exact absurd (inv.numbered second s.created old') (lt_irrefl _)
  · rcases serial_cases serial' with ⟨-, rfl⟩ | ⟨-, old'⟩
    · exact absurd (inv.numbered first s.created old) (lt_irrefl _)
    · exact inv.apart first second number old old'

theorem numbered_fill (inv : JoinsInv s) {addr' : Addr} {number : ℕ}
    (serial : Function.update s.serial addr (some s.created) addr' = some number) :
    number < s.created + 1 := by
  rcases serial_cases serial with ⟨-, rfl⟩ | ⟨-, old⟩
  · exact Nat.lt_succ_self _
  · exact Nat.lt_succ_of_lt (inv.numbered addr' number old)

theorem active_fill (inv : JoinsInv s) (absent : s.table.Unlisted addr) {addr' : Addr}
    (active : Function.update s.table.phase addr .active addr' = .active) :
    ∃ number, Function.update s.serial addr (some s.created) addr' = some number := by
  by_cases same : addr' = addr
  · rw [same]
    exact ⟨s.created, Function.update_self ..⟩
  · rw [Function.update_of_ne same] at active
    obtain ⟨number, serial⟩ := inv.active addr' active
    exact ⟨number, inv.serial_older absent serial⟩

/-- The new thread has not left anything yet. -/
theorem stage_fill (inv : JoinsInv s) {info : PthreadInfo}
    (fresh : info.state = .running ∨ info.state = .detached) {addr' : Addr} {number : ℕ}
    (serial : Function.update s.serial addr (some s.created) addr' = some number) :
    Stage (Function.update s.table.phase addr .active addr') (s.exits number)
      (Function.update s.table.blocks addr info addr') := by
  rcases serial_cases serial with ⟨rfl, rfl⟩ | ⟨old, there⟩
  · rw [Function.update_self, Function.update_self]
    exact .inl ⟨rfl, inv.future s.created le_rfl, fresh⟩
  · rw [Function.update_of_ne old, Function.update_of_ne old]
    exact inv.stage addr' number there

/-- A number that was never given names no join. -/
theorem created_unjoined (inv : JoinsInv s) : some s.created ∉ s.returned.map Prod.fst := by
  intro member
  obtain ⟨⟨thread, retval⟩, member', same⟩ := List.mem_map.mp member
  obtain ⟨number, rfl, left⟩ := inv.returned thread retval member'
  rw [Option.some.inj same, inv.future s.created le_rfl] at left
  cases left

theorem unjoined_fill (inv : JoinsInv s) {info : PthreadInfo} {addr' : Addr} {number : ℕ}
    (serial : Function.update s.serial addr (some s.created) addr' = some number)
    (notExited : (Function.update s.table.blocks addr info addr').state ≠ .exited) :
    some number ∉ s.returned.map Prod.fst := by
  rcases serial_cases serial with ⟨rfl, rfl⟩ | ⟨old, there⟩
  · exact inv.created_unjoined
  · rw [Function.update_of_ne old] at notExited
    exact inv.unjoined addr' number there notExited

/-- **A free slot gets the block of a new thread.** -/
theorem fill (inv : JoinsInv s) {slot : ℕ} (low : slot < threadsMax)
    (empty : s.table.threadTable slot = none) (absent : s.table.Unlisted addr) {info : PthreadInfo}
    {cookie id : PthreadT} {count : ℤ} (fresh : info.state = .running ∨ info.state = .detached)
    (cookies : cookie.toNat % 1024 = 0) (index : (id &&& threadIdCookieMask).toNat < threadsMax) :
    JoinsInv { s with
      table := { s.table with
        threadTable := Function.update s.table.threadTable slot (some addr)
        threadInfoNext := slot + 1
        threadIdCookie := cookie
        blocks := Function.update s.table.blocks addr info
        live := Function.update s.table.live addr true
        pthreadCount := count
        phase := Function.update s.table.phase addr .active
        ids := id :: s.table.ids }
      serial := Function.update s.serial addr (some s.created)
      created := s.created + 1 } where
  distinct := inv.distinct.fill absent
  listed _ low' _ holds := inv.listed_fill absent low' holds
  placed _ _ serial := inv.placed_fill low empty serial
  live := live_fill absent inv.live
  apart _ _ _ serial serial' := inv.apart_fill serial serial'
  numbered _ _ serial := inv.numbered_fill serial
  active _ active := inv.active_fill absent active
  stage _ _ serial := inv.stage_fill fresh serial
  future number late := inv.future number ((Nat.le_succ _).trans late)
  returned := inv.returned
  once := inv.once
  unjoined _ _ serial notExited := inv.unjoined_fill serial notExited
  joining call joinee thread pending := by
    obtain ⟨number, same, serial⟩ := inv.joining call joinee thread pending
    exact ⟨number, same, inv.serial_older absent serial⟩
  safe := inv.safe
  next := low
  cookie := cookies
  ids id' member := by
    rcases List.mem_cons.mp member with new | old
    · rw [new]
      exact index
    · exact inv.ids id' old

end JoinsInv

theorem joinsInv_initial (behind : ℕ → Option Addr) (blocks : Addr → PthreadInfo) :
    JoinsInv (JoinState.initial behind blocks) := by
  have table := tableInv_initial behind blocks
  have empty : ∀ slot < threadsMax, ∀ addr,
      (JoinState.initial behind blocks).table.threadTable slot ≠ some addr := by
    intro slot low addr holds
    rw [show (JoinState.initial behind blocks).table.threadTable slot = none from if_pos low] at holds
    cases holds
  constructor
  case distinct => exact table.distinct
  case listed => exact fun slot low addr holds => absurd holds (empty slot low addr)
  case placed => exact fun addr thread serial => by cases serial
  case live => exact table.live
  case apart => exact fun addr addr' thread serial => by cases serial
  case numbered => exact fun addr thread serial => by cases serial
  case active => exact fun addr active => by cases active
  case stage => exact fun addr thread serial => by cases serial
  case future => exact fun thread late => rfl
  case returned => exact fun thread retval member => by cases member
  case once => exact List.nodup_nil
  case unjoined => exact fun addr thread serial => by cases serial
  case joining => exact fun call joinee thread pending => by cases pending
  case safe => rfl
  case next => exact table.next
  case cookie => exact table.cookie
  case ids => exact table.ids

/-! ### Section by section -/

section Sections

variable {s after : JoinState} {status : TaskStatus}

/-- The calls depend on which blocks were released, not on the rest of the table. -/
theorem settle_congr {first second : PthreadState}
    (same : ∀ addr, Cleared s.table second addr ↔ Cleared s.table first addr) :
    s.settle second = { s.settle first with table := second } := by
  refine JoinState.ext rfl rfl ?_ ?_ rfl rfl rfl rfl
  · funext call
    show s.wake second (s.calls call) = s.wake first (s.calls call)
    unfold JoinState.wake
    split
    · exact if_congr (same _) rfl rfl
    · rfl
  · funext addr
    exact if_congr (same addr) rfl rfl

/-- A block that comes to lie in a free slot takes no other block's place. -/
theorem cleared_fill {before reaped table : PthreadState} {next : ℕ} {nthread : Addr}
    (empty : reaped.threadTable next = none) (absent : before.Unlisted nthread)
    (filled : table.threadTable = Function.update reaped.threadTable next (some nthread))
    (addr : Addr) : Cleared before table addr ↔ Cleared before reaped addr := by
  have differs : ∀ slot < threadsMax, before.threadTable slot = some addr →
      (table.threadTable slot ≠ some addr ↔ reaped.threadTable slot ≠ some addr) := by
    intro slot low holds
    have apart : nthread ≠ addr := by
      rintro rfl
      exact absent slot low holds
    rw [filled]
    by_cases here : slot = next
    · rw [here, Function.update_self, empty]
      exact ⟨fun _ => by simp, fun _ equal => apart (Option.some.inj equal)⟩
    · rw [Function.update_of_ne here]
  constructor
  · rintro ⟨slot, low, holds, lost⟩
    exact ⟨slot, low, holds, (differs slot low holds).mp lost⟩
  · rintro ⟨slot, low, holds, lost⟩
    exact ⟨slot, low, holds, (differs slot low holds).mpr lost⟩

theorem guarded_of_spared (spared : s.Spared none status none) : Guarded s (dead status) :=
  fun call joinee thread pending slot low holds exited died =>
    spared call (by simp) joinee thread pending ⟨slot, low, holds, .inl exited, died⟩

theorem create_joins (inv : JoinsInv s) {joinable freestack taskInits : Bool} {nthread : Addr}
    (sparing : SparingUse s (.create status joinable freestack nthread taskInits))
    (runs : joinsExec s (.create status joinable freestack nthread taskInits) = some after) :
    JoinsInv after := by
  obtain ⟨⟨absent, -⟩, returns⟩ := Option.ite_none_right_eq_some.mp runs
  obtain ⟨inits, inside, spared⟩ := sparing
  obtain ⟨⟨err, table⟩, created, result⟩ := Option.map_eq_some_iff.mp returns
  unfold pthreadCreate at created
  split at created
  · cases created
  rename_i reaped reaps
  have pass := pthreadReap_pass reaps
  have settled := inv.settle pass (guarded_of_spared spared)
  have absent' := pass.unlisted absent
  split at created
  · cases created
  · obtain ⟨rfl, rfl⟩ := Prod.mk.inj (Option.some.inj created)
    rw [← result]
    show JoinsInv (s.settle (if freestack then reaped.freeStack nthread else reaped))
    split
    · exact settled.unlisted absent' (fun other differs => Function.update_of_ne differs _ _)
        fun _ _ => rfl
    · exact settled
  · rename_i threadNext found
    obtain ⟨empty, place⟩ := findSlot_spec found
    have low : threadNext < threadsMax := by
      rcases place with rfl | low
      · rcases inside with low | behind
        · rw [pass.next]
          exact low
        · -- the word behind the table is not null, and the reaper does not touch it
          by_contra far
          rw [pass.next] at empty far
          rw [pass.behind _ (Nat.not_lt.mp far)] at empty
          exact behind empty
      · exact low
    have cookies : (reaped.threadIdCookie + threadIdCookieInc).toNat % 1024 = 0 :=
      cookie_step settled.cookie
    simp only [if_pos inits, Option.some.injEq, Prod.mk.injEq] at created
    obtain ⟨rfl, filled⟩ := created
    rw [← result]
    have same := cleared_fill empty absent (by rw [← filled] : table.threadTable = _)
    show JoinsInv { (s.settle table).giveJoiner nthread with
      serial := Function.update (s.settle table).serial nthread (some s.created)
      created := s.created + 1 }
    rw [settle_congr same, ← filled]
    refine (settled.fill low empty absent' ?_ cookies ?_).withJoiner _
    · cases joinable
      · exact .inr rfl
      · exact .inl rfl
    · rw [id_index low cookies]
      exact low

theorem exit_joins (inv : JoinsInv s) {thread : Addr} {retval : BitVec 64}
    (runs : joinsExec s (.exit thread retval) = some after) : JoinsInv after := by
  obtain ⟨active, exits⟩ := Option.ite_none_right_eq_some.mp runs
  obtain ⟨number, serial⟩ := inv.active thread active
  rw [serial] at exits
  rw [← Option.some.inj exits]
  have others : ∀ other, other ≠ thread →
      Function.update s.table.phase thread .finished other = s.table.phase other :=
    fun other differs => Function.update_of_ne differs _ _
  have same : ∀ other, other ≠ number →
      Function.update s.exits number (some retval) other = s.exits other :=
    fun other differs => Function.update_of_ne differs _ _
  have stage : ∀ state, state = .join ∨ state = .exited ∨ state = .detached →
      Stage (Function.update s.table.phase thread .finished thread)
        (Function.update s.exits number (some retval) number)
        { s.table.blocks thread with retval := retval, state := state } := by
    intro state ended
    rw [Function.update_self, Function.update_self]
    exact .inr ⟨rfl, rfl, ended⟩
  refine JoinsInv.withJoiner (s := { s with
    table := pthreadExit thread retval s.table
    exits := Function.update s.exits number (some retval) }) ?_ _
  rcases inv.stage thread number serial with ⟨-, -, running | detached⟩ | ⟨finished, -⟩
  · have notDetached : (s.table.blocks thread).state ≠ .detached := by simp [running]
    have notExited : (s.table.blocks thread).state ≠ .exited := by simp [running]
    unfold pthreadExit
    rw [if_neg notDetached]
    exact inv.change serial notExited others same (stage .join (.inl rfl))
  · have notExited : (s.table.blocks thread).state ≠ .exited := by simp [detached]
    unfold pthreadExit
    rw [if_pos detached]
    exact inv.change serial notExited others same (stage .exited (.inr (.inl rfl)))
  · rw [finished] at active
    cases active

/-- The end of a join that found its thread in state `JOIN`, after a first pass of the reaper. -/
theorem finish_joins (inv : JoinsInv s) {call number : ℕ} {joinee : Addr}
    {first table : PthreadState}
    {died : ℕ → Prop} {retval : BitVec 64} (serial : s.serial joinee = some number)
    (join : (s.table.blocks joinee).state = .join) (pass : ReaperPass died s.table first)
    (guarded : ∀ other, other ≠ call → ∀ joinee thread,
      (s.calls other).joining = some (joinee, thread) → ∀ slot < threadsMax,
      s.table.threadTable slot = some joinee → (s.table.blocks joinee).state = .exited → ¬ died slot)
    (spared : s.Spared (some call) status (some joinee))
    (finished : finishJoin status joinee first = some (retval, table)) :
    JoinsInv ((s.note call (some number) (.returns .ok (some retval))).settle table) := by
  obtain ⟨reaped, reaps, result⟩ := Option.map_eq_some_iff.mp finished
  obtain ⟨rfl, rfl⟩ := Prod.mk.inj result
  have notExited : (s.table.blocks joinee).state ≠ .exited := by simp [join]
  have left := inv.finished serial (.inr join)
  rw [pass.blocks] at reaps ⊢
  let info : PthreadInfo := { s.table.blocks joinee with state := .exited }
  -- the block is written between the two passes, which is as good as before both
  have before := pass.setBlock notExited info
  have second := pthreadReap_pass reaps
  let written : PthreadState := { first.setBlock joinee info with
    pthreadsExited := first.pthreadsExited + 1
    pthreadsTobejoined := first.pthreadsTobejoined - 1 }
  let joined : PthreadState := { s.table.setBlock joinee info with
    phase := s.table.phase
    pthreadsExited := first.pthreadsExited + 1
    pthreadsTobejoined := first.pthreadsTobejoined - 1 }
  let either : ℕ → Prop := fun slot =>
    died slot ∧ s.table.threadTable slot ≠ some joinee ∨ dead status slot
  have passes : ReaperPass either joined reaped := by
    have first' : ReaperPass either joined written :=
      ⟨before.blocks, before.phase, before.next, before.cookie, before.ids, before.behind,
        (before.mono fun _ died => Or.inl died).slots, before.live⟩
    exact first'.trans (second.mono fun _ died => Or.inr died)
  have marked : JoinsInv { s.goto call .outside with
      table := joined, returned := (some number, (s.table.blocks joinee).retval) :: s.returned } := by
    have exited : JoinsInv { s.goto call .outside with table := joined } :=
      (inv.leaves call).change serial notExited (fun _ _ => rfl) (fun _ _ => rfl)
        (.inr ⟨left.1, left.2, .inr (.inl rfl)⟩)
    refine exited.deliver serial ?_ left.2 (inv.unjoined joinee number serial notExited)
    exact congrArg PthreadInfo.state (Function.update_self joinee info s.table.blocks)
  refine marked.settle passes fun other joinee' thread pending slot low holds exited died' => ?_
  have differs : other ≠ call := by
    rintro rfl
    change (Function.update s.calls other JoinPc.outside other).joining = _ at pending
    rw [Function.update_self] at pending
    cases pending
  change (Function.update s.calls call JoinPc.outside other).joining = _ at pending
  rw [Function.update_of_ne differs] at pending
  change (Function.update s.table.blocks joinee info joinee').state = .exited at exited
  by_cases same : joinee' = joinee
  · rcases died' with ⟨-, elsewhere⟩ | died
    · rw [same] at holds
      exact elsewhere holds
    · exact spared other (by simp [differs]) joinee' thread pending
        ⟨slot, low, holds, .inr (congrArg some same.symm), died⟩
  · rw [Function.update_of_ne same] at exited
    rcases died' with ⟨died, -⟩ | died
    · exact guarded other differs joinee' thread pending slot low holds exited died
    · exact spared other (by simp [differs]) joinee' thread pending
        ⟨slot, low, holds, .inl exited, died⟩

/-- Lookup after a pass of the reaper finds what lookup before it finds. -/
theorem lookup_before {died : ℕ → Prop} {before reaped : PthreadState} {thread : PthreadT}
    {joinee : Addr}
    (pass : ReaperPass died before reaped) (low : (thread &&& threadIdCookieMask).toNat < threadsMax)
    (found : pthreadInfoId thread reaped = some joinee) :
    pthreadInfoId thread before = some joinee := by
  obtain ⟨holds, -, -⟩ := pthreadInfoId_inv found
  rw [pthreadInfoId, holds] at found
  rw [pthreadInfoId, pass.kept low holds, ← pass.blocks]
  exact found

theorem join_joins (inv : JoinsInv s) {call : ℕ} {reaps : TaskStatus × TaskStatus} {self : Addr}
    {thread : PthreadT} (sparing : SparingUse s (.join call reaps self thread))
    (runs : joinsExec s (.join call reaps self thread) = some after) : JoinsInv after := by
  obtain ⟨⟨-, known⟩, returns⟩ := Option.ite_none_right_eq_some.mp runs
  obtain ⟨spared, spared'⟩ := sparing
  obtain ⟨⟨outcome, table⟩, joined, result⟩ := Option.map_eq_some_iff.mp returns
  have low := inv.ids thread known
  unfold pthreadJoin at joined
  split at joined
  · cases joined
  rename_i first reaped
  have pass := pthreadReap_pass reaped
  have guarded : ∀ other, other ≠ call → ∀ joinee thread,
      (s.calls other).joining = some (joinee, thread) → ∀ slot < threadsMax,
      s.table.threadTable slot = some joinee → (s.table.blocks joinee).state = .exited →
      ¬ dead reaps.1 slot := fun other differs joinee thread pending slot low holds exited died =>
    spared other (by simp [differs]) joinee thread pending ⟨slot, low, holds, .inl exited, died⟩
  -- a call that does not stay inside is out of the way of the reaper
  have settled : ∀ pc : JoinPc, (∀ joinee thread, pc.joining = some (joinee, thread) →
      (∃ number, thread = some number ∧ s.serial joinee = some number) ∧
        (s.table.blocks joinee).state ≠ .exited) → JoinsInv ((s.goto call pc).settle first) := by
    intro pc inside
    refine (inv.goto call fun joinee thread pending => (inside joinee thread pending).1).settle pass ?_
    intro other joinee thread pending slot low holds exited died
    by_cases same : other = call
    · change (Function.update s.calls call pc other).joining = _ at pending
      rw [same, Function.update_self] at pending
      exact (inside joinee thread pending).2 exited
    · change (Function.update s.calls call pc other).joining = _ at pending
      rw [Function.update_of_ne same] at pending
      exact guarded other same joinee thread pending slot low holds exited died
  have outside : JoinsInv ((s.goto call .outside).settle first) :=
    settled .outside fun joinee thread pending => by cases pending
  rw [← result]
  split at joined
  · obtain ⟨rfl, rfl⟩ := Prod.mk.inj (Option.some.inj joined)
    exact outside
  rename_i joinee found
  split at joined
  · obtain ⟨rfl, rfl⟩ := Prod.mk.inj (Option.some.inj joined)
    exact outside
  rename_i notSelf
  have found' := lookup_before pass low found
  obtain ⟨holds, -, -⟩ := pthreadInfoId_inv found'
  obtain ⟨number, serial⟩ := inv.listed _ low joinee holds
  have thread_serial : (pthreadInfoId thread s.table).bind s.serial = some number := by
    rw [found', Option.bind_some, serial]
  show JoinsInv ((s.note call ((pthreadInfoId thread s.table).bind s.serial) outcome).settle table)
  rw [thread_serial]
  split at joined
  · rename_i running
    rw [pass.blocks] at running
    obtain ⟨rfl, rfl⟩ := Prod.mk.inj (Option.some.inj joined)
    have waits := settled (.leaving joinee (some number)) (by
      rintro joinee' thread' pending
      obtain ⟨rfl, rfl⟩ := Prod.mk.inj (Option.some.inj pending)
      exact ⟨⟨number, rfl, serial⟩, by simp [running]⟩)
    exact waits.withJoiners _
  · rename_i join
    rw [pass.blocks] at join
    obtain ⟨⟨retval, table'⟩, finished, eq⟩ := Option.map_eq_some_iff.mp joined
    obtain ⟨rfl, rfl⟩ := Prod.mk.inj eq
    exact finish_joins inv serial join pass guarded (spared' joinee found' notSelf join) finished
  · obtain ⟨rfl, rfl⟩ := Prod.mk.inj (Option.some.inj joined)
    exact outside

theorem take_joins (inv : JoinsInv s) {call : ℕ} (runs : joinsExec s (.take call) = some after) :
    JoinsInv after := by
  -- whichever way the semaphore decides, the call keeps its address
  have goes : ∀ joinee thread, (s.calls call).joining = some (joinee, thread) → ∀ pc : JoinPc,
      pc.joining = some (joinee, thread) → JoinsInv (s.goto call pc) := by
    intro joinee thread pending pc keeps
    refine inv.goto call fun joinee' thread' pending' => inv.joining call joinee' thread' ?_
    rw [pending, ← keeps, pending']
  simp only [joinsExec] at runs
  split at runs
  · rename_i joinee thread place
    have pending : (s.calls call).joining = some (joinee, thread) := by rw [place]; rfl
    have goes := goes joinee thread pending
    rw [← Option.some.inj runs, inv.reads pending, JoinState.takeJoiner]
    split
    · exact goes _ rfl
    · split
      · exact (goes (.woken joinee thread true) rfl).withJoiner _
      · exact goes _ rfl
  · rename_i joinee thread place
    obtain ⟨-, taken⟩ := Option.ite_none_right_eq_some.mp runs
    have pending : (s.calls call).joining = some (joinee, thread) := by rw [place]; rfl
    rw [← Option.some.inj taken]
    exact (goes joinee thread pending (.woken joinee thread true) rfl).withJoiner _
  · cases runs

theorem resume_joins (inv : JoinsInv s) {call : ℕ} {cancelled : Bool}
    (sparing : SparingUse s (.resume call status cancelled))
    (runs : joinsExec s (.resume call status cancelled) = some after) : JoinsInv after := by
  simp only [joinsExec] at runs
  split at runs
  case h_2 => cases runs
  rename_i joinee thread taken place
  obtain ⟨-, returns⟩ := Option.ite_none_right_eq_some.mp runs
  obtain ⟨⟨outcome, table⟩, resumed, result⟩ := Option.map_eq_some_iff.mp returns
  have pending : (s.calls call).joining = some (joinee, thread) := by rw [place]; rfl
  rw [inv.reads pending] at result
  rw [← result]
  obtain ⟨number, rfl, serial⟩ := inv.joining call joinee thread pending
  have unguarded : ∀ {s : JoinState}, Guarded s fun _ => False :=
    fun _ _ _ _ _ _ _ _ died => died
  have outside : ∀ joiners, JoinsInv ((s.goto call .outside).settle
      { s.table with joiners := joiners }) := fun joiners =>
    ((inv.leaves call).settle (.refl _ _) unguarded).withJoiners joiners
  unfold joinResume at resumed
  cases cancelled with
  | true =>
    obtain ⟨rfl, rfl⟩ := Prod.mk.inj (Option.some.inj resumed)
    split <;> exact outside _
  | false =>
    rw [if_neg (by simp)] at resumed
    split at resumed
    · obtain ⟨rfl, rfl⟩ := Prod.mk.inj (Option.some.inj resumed)
      have waits : JoinsInv (s.goto call (.leaving joinee (some number))) := by
        refine inv.goto call fun joinee' thread' pending' => ?_
        obtain ⟨rfl, rfl⟩ := Prod.mk.inj (Option.some.inj pending')
        exact ⟨number, rfl, serial⟩
      exact waits.settle (.refl _ _) unguarded
    · rename_i join
      obtain ⟨⟨retval, table'⟩, finished, eq⟩ := Option.map_eq_some_iff.mp resumed
      obtain ⟨rfl, rfl⟩ := Prod.mk.inj eq
      have pass := ReaperPass.refl (fun _ => False) s.table
      have pass' : ReaperPass (fun _ => False) s.table
          { s.table with joiners := s.table.joiners.erase joinee } :=
        ⟨rfl, rfl, rfl, rfl, rfl, pass.behind, pass.slots, pass.live⟩
      exact finish_joins inv serial join pass' (fun _ _ _ _ _ _ _ _ _ died => died)
        (sparing joinee (some number) pending rfl join) finished
    · obtain ⟨rfl, rfl⟩ := Prod.mk.inj (Option.some.inj resumed)
      exact outside _

theorem detach_joins (inv : JoinsInv s) {thread : PthreadT}
    (sparing : SparingUse s (.detach status thread))
    (runs : joinsExec s (.detach status thread) = some after) : JoinsInv after := by
  obtain ⟨known, returns⟩ := Option.ite_none_right_eq_some.mp runs
  obtain ⟨⟨ret, table⟩, detached, result⟩ := Option.map_eq_some_iff.mp returns
  have guarded := guarded_of_spared sparing
  simp only [pthreadDetach] at detached
  obtain ⟨reaped, reaps, eq⟩ := Option.map_eq_some_iff.mp detached
  obtain ⟨rfl, rfl⟩ := Prod.mk.inj eq
  rw [← result]
  cases found : pthreadInfoId thread s.table with
  | none =>
    rw [found] at reaps
    exact inv.settle (pthreadReap_pass reaps) guarded
  | some detachee =>
    rw [found] at reaps
    obtain ⟨holds, notFree, notExited⟩ := pthreadInfoId_inv found
    obtain ⟨number, serial⟩ := inv.listed _ (inv.ids thread known) detachee holds
    by_cases already : (s.table.blocks detachee).state = .detached
    · simp only [if_pos already] at reaps ⊢
      exact inv.settle (pthreadReap_pass reaps) guarded
    · simp only [if_neg already] at reaps ⊢
      let info : PthreadInfo := { s.table.blocks detachee with state := .detached }
      have changed : JoinsInv { s with table := s.table.setBlock detachee info } := by
        refine inv.change serial notExited (fun _ _ => rfl) (fun _ _ => rfl) ?_
        rcases inv.stage detachee number serial with ⟨active, left, -⟩ | ⟨finished, left, -⟩
        · exact .inl ⟨active, left, .inr rfl⟩
        · exact .inr ⟨finished, left, .inr (.inr rfl)⟩
      refine (changed.withJoiner _).settle (pthreadReap_pass reaps) ?_
      intro call joinee thread' pending slot low holds' exited died
      change (Function.update s.table.blocks detachee info joinee).state = .exited at exited
      by_cases same : joinee = detachee
      · rw [same, Function.update_self] at exited
        cases exited
      · rw [Function.update_of_ne same] at exited
        exact guarded call joinee thread' pending slot low holds' exited died

/-- Other code writes to memory that no slot points to. -/
theorem writeBlock_joins (inv : JoinsInv s) {addr : Addr} {info : PthreadInfo}
    (runs : joinsExec s (.writeBlock addr info) = some after) : JoinsInv after := by
  obtain ⟨table, written, result⟩ := Option.map_eq_some_iff.mp runs
  obtain ⟨outside, writes⟩ := Option.ite_none_right_eq_some.mp written
  rw [← result, ← Option.some.inj writes]
  have absent : s.table.Unlisted addr := by
    rcases outside with freed | unlisted
    · intro slot low holds
      rw [inv.live slot low addr holds] at freed
      cases freed
    · exact unlisted
  exact inv.unlisted absent (fun _ _ => rfl) fun other differs => Function.update_of_ne differs _ _

/-- Other code writes to the words behind the table. -/
theorem writeBehind_joins (inv : JoinsInv s) {slot : ℕ} {value : Option Addr}
    (runs : joinsExec s (.writeBehind slot value) = some after) : JoinsInv after := by
  obtain ⟨table, written, result⟩ := Option.map_eq_some_iff.mp runs
  obtain ⟨far, writes⟩ := Option.ite_none_right_eq_some.mp written
  rw [← result, ← Option.some.inj writes]
  have same : ∀ slot' < threadsMax, Function.update s.table.threadTable slot value slot' =
      s.table.threadTable slot' := fun slot' low => Function.update_of_ne (by omega) _ _
  exact { inv with
    distinct := fun first low second low' addr holds holds' =>
      inv.distinct first low second low' addr ((same first low).symm.trans holds)
        ((same second low').symm.trans holds')
    listed := fun slot' low addr holds => inv.listed slot' low addr ((same slot' low).symm.trans holds)
    placed := fun addr thread serial => by
      obtain ⟨slot', low, holds⟩ := inv.placed addr thread serial
      exact ⟨slot', low, (same slot' low).trans holds⟩
    live := fun slot' low addr holds => inv.live slot' low addr ((same slot' low).symm.trans holds) }

end Sections

/-! ### Runs -/

/-- **Each step keeps the invariant**, if it releases no block that a call points to. -/
theorem join_step {s after : JoinState} {event : JoinEvent} (inv : JoinsInv s)
    (sparing : SparingUse s event) (runs : joinsExec s event = some after) : JoinsInv after := by
  cases event with
  | create => exact create_joins inv sparing runs
  | exit => exact exit_joins inv runs
  | join => exact join_joins inv sparing runs
  | take => exact take_joins inv runs
  | resume => exact resume_joins inv sparing runs
  | detach => exact detach_joins inv sparing runs
  | writeBlock => exact writeBlock_joins inv runs
  | writeBehind => exact writeBehind_joins inv runs

/-- **Joins are safe** in every run where no pass of the reaper releases a block that another call
of `pthread_join` still points to. -/
theorem joins_ok_when_spared {s : JoinState} (reached : joinSystem.ReachableBy SparingUse s) :
    JoinsOk s := by
  refine (reached.invariant JoinsInv ?_ ?_).ok
  · rintro _ ⟨behind, blocks, rfl⟩
    exact joinsInv_initial behind blocks
  · rintro s event after - inv sparing runs
    exact join_step inv sparing runs

/-- Joins over zeroed memory. -/
def JoinState.zeroed : JoinState :=
  JoinState.initial (fun _ => none) fun _ => ⟨.free, 0, 0, false⟩

theorem joins_zeroed_init : joinSystem.init JoinState.zeroed := ⟨_, _, rfl⟩

theorem spared_of_outside {s : JoinState} {self : Option ℕ} {status : TaskStatus}
    {joined : Option Addr}
    (outside : ∀ call, s.calls call = .outside) : s.Spared self status joined := by
  intro call _ joinee thread pending
  rw [outside call] at pending
  cases pending

/-- A thread is created, exits and is joined. -/
theorem joins_ok_when_spared_joined :
    ∃ s, runEvents joinsExec JoinState.zeroed
        [.create allDead true true 100 true, .exit 100 7, .join 0 (allDead, allDead) 200 0x800] =
          some s ∧
      s.returned = [(some 0, 7)] ∧ JoinsOk s := by
  have start : joinSystem.ReachableBy SparingUse JoinState.zeroed := .start joins_zeroed_init
  have created := start.by_event (JoinEvent.create allDead true true 100 true)
    ⟨rfl, .inl (by decide), spared_of_outside fun _ => rfl⟩ rfl
  have exited := created.by_event (JoinEvent.exit 100 7) trivial rfl
  have joined := exited.by_event (JoinEvent.join 0 (allDead, allDead) 200 0x800)
    ⟨spared_of_outside fun _ => rfl, fun _ _ _ _ => spared_of_outside fun _ => rfl⟩ rfl
  exact ⟨_, rfl, rfl, joins_ok_when_spared joined⟩

set_option maxRecDepth 4000 in
/-- **Two joins wait for one thread.** Its exit wakes the first, which reaps it; that wakes the
second with an error. The second looks at the freed block, which has been written to since, and
returns 0 as well. -/
theorem two_joins_succeed :
    ∃ s, joinSystem.Reachable s ∧ s.returned = [(some 0, 9), (some 0, 7)] ∧ s.staleReads = [100] ∧
      ¬ JoinsOk s := by
  have start : joinSystem.Reachable JoinState.zeroed := .start joins_zeroed_init
  have runs : runEvents joinsExec JoinState.zeroed
      [.create allDead true true 100 true,
        .join 0 (allDead, allDead) 200 0x800, .take 0, .resume 0 allDead false, .take 0,
        .join 1 (allDead, allDead) 300 0x800, .take 1,
        .exit 100 7, .take 0, .resume 0 allDead false,
        .writeBlock 100 ⟨.join, 0x800, 9, true⟩, .resume 1 allDead false] = some _ := rfl
  refine ⟨_, start.run (fun _ _ _ ran => ⟨trivial, ran⟩) runs, rfl, rfl, fun ok => ?_⟩
  have clean := ok.safe
  cases clean

end Aple.Pthread
