/-
**The reaper with its inner loop.**

* `Environment` — what `taskStatusString` says of the task of a slot after some calls of
  `taskDelay`.
* `waitTurn`, `reapTimed` — the reaper with the inner loop turn by turn, and what it deleted and
  freed; **`reapTimed_eq_pthreadReap`** — its result is the one of `pthreadReap`.
* `ReapOk` — the reaper returns, and every exited thread is reaped.
* **`reap_ok_iff`** — it does so if and only if every exited task is dead at the first look, the
  counter is not too small, and no stack is to be freed twice.
-/

import Aple.Pthread.Table

namespace Aple.Pthread

open Aple.Lib

/-! ### The reaper turn by turn -/

/-- The answers of `taskStatusString` after so many calls of `taskDelay`. -/
abbrev Environment := ℕ → TaskStatus

/-- The state with the calls of `taskDelay`, the slots and blocks reaped, and the stacks freed. -/
structure Reaping where
  state : PthreadState
  delays : ℕ
  reaped : List (ℕ × Addr)
  frees : List Addr

/-- A turn of the inner loop: `task_status` is compared, and a delay does not change it. -/
def waitTurn : Bool × ℕ → Option ((Bool × ℕ) ⊕ ℕ) := fun (isDead, delays) =>
  if isDead then some (.inr delays) else some (.inl (isDead, delays + 1))

/-- From `taskDelete` on. -/
def reapThread (slot : ℕ) (thread : Addr) (delays : ℕ) (r : Reaping) : Reaping :=
  let frees := (r.state.blocks thread).freestack
  let s := if frees then r.state.freeStack thread else r.state
  { state := { s with
      threadTable := Function.update s.threadTable slot none
      pthreadCount := s.pthreadCount - 1
      pthreadsExited := s.pthreadsExited - 1 }
    delays := delays
    reaped := r.reaped ++ [(slot, thread)]
    frees := if frees then r.frees ++ [thread] else r.frees }

/-- The body of the outer loop. -/
def reapSlotTimed (fuel : ℕ) (env : Environment) (slot : ℕ) (r : Reaping) : Option Reaping :=
  match r.state.threadTable slot with
  | none => some r
  | some thread =>
    if (r.state.blocks thread).state = .exited then
      match env r.delays slot with
      | none => some r
      | some isDead =>
        (loop waitTurn fuel (isDead, r.delays)).map fun delays => reapThread slot thread delays r
    else some r

/-- The outer loop. -/
def reapSlotsTimed (fuel : ℕ) (env : Environment) : List ℕ → Reaping → Option Reaping
  | [], r => some r
  | slot :: rest, r =>
    if r.state.pthreadsExited > 0 then
      (reapSlotTimed fuel env slot r).bind (reapSlotsTimed fuel env rest)
    else some r

/-- `pthread_reap`. -/
def reapTimed (fuel : ℕ) (env : Environment) (s : PthreadState) : Option Reaping :=
  reapSlotsTimed fuel env (List.range threadsMax) ⟨s, 0, [], []⟩

/-! ### What it should do -/

/-- The slot holds a thread in state `EXITED`. -/
def PthreadState.exitedAt (s : PthreadState) (slot : ℕ) : Bool :=
  match s.threadTable slot with
  | none => false
  | some thread => decide ((s.blocks thread).state = .exited)

/-- The slots of the table with an exited thread. -/
def PthreadState.exitedSlots (s : PthreadState) : List ℕ := (List.range threadsMax).filter s.exitedAt

/-- The reaper returns with no exited thread left. The slots reaped are null, their stacks freed
exactly once where `freestack` is set and no other one, and the counters count them down. -/
def ReapOk (env : Environment) (s : PthreadState) : Prop :=
  ∃ bound after, Yields (fun fuel => reapTimed fuel env s) bound after ∧
    (∀ slot < threadsMax, after.state.exitedAt slot = false) ∧
    (∀ entry ∈ after.reaped, s.threadTable entry.1 = some entry.2 ∧ s.exitedAt entry.1 = true ∧
      after.state.threadTable entry.1 = none) ∧
    after.frees.Nodup ∧
    (∀ thread, thread ∈ after.frees ↔
      (s.blocks thread).freestack = true ∧ ∃ slot, (slot, thread) ∈ after.reaped) ∧
    after.state.pthreadCount = s.pthreadCount - after.reaped.length ∧
    after.state.pthreadsExited = s.pthreadsExited - after.reaped.length

/-- The condition. -/
structure Reapable (env : Environment) (s : PthreadState) : Prop where
  dead : ∀ slot ∈ s.exitedSlots, env 0 slot = some true
  counted : s.exitedSlots.length ≤ s.pthreadsExited.toNat
  owned : ∀ slot ∈ s.exitedSlots, ∀ slot' ∈ s.exitedSlots, ∀ thread,
    s.threadTable slot = some thread → s.threadTable slot' = some thread →
      (s.blocks thread).freestack = true → slot = slot'

variable {env : Environment} {s : PthreadState} {r after : Reaping} {fuel : ℕ}

/-! ### The inner loop -/

/-- The inner loop leaves at once, or never. -/
theorem wait_dead (delays : ℕ) : loop waitTurn (fuel + 1) (true, delays) = some delays :=
  loop_exit rfl

theorem wait_alive (delays : ℕ) : loop waitTurn fuel (false, delays) = none := by
  induction fuel generalizing delays with
  | zero => rfl
  | succ fuel ih => exact (loop_again rfl).trans (ih (delays + 1))

/-- Whatever it returns with, the status was `DEAD` and no delay was made. -/
theorem wait_returns {isDead : Bool} {before delays : ℕ}
    (returns : loop waitTurn fuel (isDead, before) = some delays) :
    isDead = true ∧ delays = before := by
  cases isDead with
  | false =>
    rw [wait_alive] at returns
    cases returns
  | true =>
    refine ⟨rfl, ?_⟩
    cases fuel with
    | zero => cases returns
    | succ fuel =>
      rw [wait_dead] at returns
      exact (Option.some.inj returns).symm

/-! ### The pass -/

theorem exitedAt_iff {slot : ℕ} : s.exitedAt slot = true ↔
    ∃ thread, s.threadTable slot = some thread ∧ (s.blocks thread).state = .exited := by
  unfold PthreadState.exitedAt
  split
  · rename_i empty
    simp [empty]
  · rename_i thread holds
    simp [holds]

theorem mem_exitedSlots {slot : ℕ} :
    slot ∈ s.exitedSlots ↔ slot < threadsMax ∧ s.exitedAt slot = true := by
  rw [PthreadState.exitedSlots, List.mem_filter, List.mem_range]

/-- What a pass over some slots does, where `news` are the entries it reaps. -/
structure Passed (env : Environment) (slots : List ℕ) (r after : Reaping) (news : List (ℕ × Addr)) :
    Prop where
  blocks : after.state.blocks = r.state.blocks
  delays : after.delays = r.delays
  reaped : after.reaped = r.reaped ++ news
  frees : after.frees =
    r.frees ++ (news.filter fun entry => (r.state.blocks entry.2).freestack).map Prod.snd
  count : after.state.pthreadCount = r.state.pthreadCount - news.length
  exited : after.state.pthreadsExited = r.state.pthreadsExited - news.length
  few : news.length ≤ r.state.pthreadsExited.toNat
  order : (news.map Prod.fst).Sublist (slots.filter r.state.exitedAt)
  entries : ∀ entry ∈ news, r.state.threadTable entry.1 = some entry.2 ∧
    env r.delays entry.1 = some true ∧ after.state.threadTable entry.1 = none
  others : ∀ slot, slot ∉ news.map Prod.fst → after.state.threadTable slot = r.state.threadTable slot
  complete : (∀ slot ∈ slots, r.state.exitedAt slot = true → env r.delays slot = some true →
    slot ∈ news.map Prod.fst) ∨ after.state.pthreadsExited ≤ 0

section Reaped

variable (slot : ℕ) (thread : Addr) (delays : ℕ) (r : Reaping)

theorem reapThread_blocks : (reapThread slot thread delays r).state.blocks = r.state.blocks := by
  cases frees : (r.state.blocks thread).freestack <;> simp only [reapThread, frees] <;> rfl

theorem reapThread_table : (reapThread slot thread delays r).state.threadTable =
    Function.update r.state.threadTable slot none := by
  cases frees : (r.state.blocks thread).freestack <;> simp only [reapThread, frees] <;> rfl

theorem reapThread_exited : (reapThread slot thread delays r).state.pthreadsExited =
    r.state.pthreadsExited - 1 := by
  cases frees : (r.state.blocks thread).freestack <;> simp only [reapThread, frees] <;> rfl

theorem reapThread_count : (reapThread slot thread delays r).state.pthreadCount =
    r.state.pthreadCount - 1 := by
  cases frees : (r.state.blocks thread).freestack <;> simp only [reapThread, frees] <;> rfl

theorem reapThread_exitedAt {other : ℕ} (differs : other ≠ slot) :
    (reapThread slot thread delays r).state.exitedAt other = r.state.exitedAt other := by
  unfold PthreadState.exitedAt
  rw [reapThread_table, reapThread_blocks, Function.update_of_ne differs]

end Reaped

/-- **What the body of the outer loop does.** -/
theorem reapSlotTimed_cases {slot : ℕ} (returns : reapSlotTimed fuel env slot r = some after) :
    (after = r ∧ (r.state.exitedAt slot = true → env r.delays slot ≠ some true)) ∨
      ∃ thread, r.state.threadTable slot = some thread ∧ (r.state.blocks thread).state = .exited ∧
        env r.delays slot = some true ∧ after = reapThread slot thread r.delays r := by
  unfold reapSlotTimed at returns
  split at returns
  · rename_i empty
    refine .inl ⟨(Option.some.inj returns).symm, fun exited => ?_⟩
    obtain ⟨thread, holds, -⟩ := exitedAt_iff.mp exited
    rw [empty] at holds
    cases holds
  · rename_i thread holds
    split at returns
    · rename_i exited
      split at returns
      · rename_i fails
        refine .inl ⟨(Option.some.inj returns).symm, fun _ succeeds => ?_⟩
        rw [fails] at succeeds
        cases succeeds
      · rename_i isDead status
        obtain ⟨delays, waits, rfl⟩ := Option.map_eq_some_iff.mp returns
        obtain ⟨rfl, rfl⟩ := wait_returns waits
        exact .inr ⟨thread, holds, exited, status, rfl⟩
    · rename_i running
      refine .inl ⟨(Option.some.inj returns).symm, fun exited => ?_⟩
      obtain ⟨other, holds', isExited⟩ := exitedAt_iff.mp exited
      obtain rfl := Option.some.inj (holds.symm.trans holds')
      exact absurd isExited running

/-- The loop is at its end, or no exited thread is left. -/
theorem Passed.stop {slots : List ℕ} (ends : slots = [] ∨ r.state.pthreadsExited ≤ 0) :
    Passed env slots r r [] where
  blocks := rfl
  delays := rfl
  reaped := (List.append_nil _).symm
  frees := (List.append_nil _).symm
  count := (Int.sub_zero _).symm
  exited := (Int.sub_zero _).symm
  few := Nat.zero_le _
  order := List.nil_sublist _
  entries := by simp
  others _ _ := rfl
  complete := by
    rcases ends with rfl | none_left
    · exact .inl (by simp)
    · exact .inr none_left

/-- A slot that is left as it is. -/
theorem Passed.skip {slot : ℕ} {rest : List ℕ} {news : List (ℕ × Addr)}
    (later : Passed env rest r after news)
    (left : r.state.exitedAt slot = true → env r.delays slot ≠ some true) :
    Passed env (slot :: rest) r after news where
  __ := later
  order := later.order.trans ((List.sublist_cons_self slot rest).filter _)
  complete := by
    rcases later.complete with all | none_left
    · refine .inl fun other member exited died => ?_
      rcases List.mem_cons.mp member with rfl | inRest
      · exact absurd died (left exited)
      · exact all other inRest exited died
    · exact .inr none_left

/-- A slot that is reaped. -/
theorem Passed.reap {slot : ℕ} {thread : Addr} {rest : List ℕ} {news : List (ℕ × Addr)}
    (holds : r.state.threadTable slot = some thread)
    (isExited : (r.state.blocks thread).state = .exited) (died : env r.delays slot = some true)
    (positive : r.state.pthreadsExited > 0) (fresh : slot ∉ rest)
    (later : Passed env rest (reapThread slot thread r.delays r) after news) :
    Passed env (slot :: rest) r after ((slot, thread) :: news) := by
  have blocks := reapThread_blocks slot thread r.delays r
  have table := reapThread_table slot thread r.delays r
  have exited := reapThread_exited slot thread r.delays r
  have unchanged : ∀ other ∈ rest,
      (reapThread slot thread r.delays r).state.exitedAt other = r.state.exitedAt other :=
    fun other member => reapThread_exitedAt slot thread r.delays r fun same => fresh (same ▸ member)
  have once : slot ∉ news.map Prod.fst := by
    intro member
    have inRest := (later.order.trans List.filter_sublist).subset member
    exact fresh inRest
  refine ⟨later.blocks.trans blocks, later.delays, ?_, ?_, ?_, ?_, ?_, ?_, ?_, ?_, ?_⟩
  · rw [later.reaped]
    exact List.append_assoc ..
  · rw [later.frees, blocks]
    cases frees : (r.state.blocks thread).freestack <;> simp [reapThread, frees]
  · rw [later.count, reapThread_count, List.length_cons]
    omega
  · rw [later.exited, exited, List.length_cons]
    omega
  · have few := later.few
    rw [exited] at few
    rw [List.length_cons]
    omega
  · have here : r.state.exitedAt slot = true := exitedAt_iff.mpr ⟨thread, holds, isExited⟩
    rw [List.filter_cons_of_pos here, List.map_cons]
    refine List.Sublist.cons_cons slot ?_
    rw [← List.filter_congr unchanged]
    exact later.order
  · intro entry member
    rcases List.mem_cons.mp member with rfl | isNew
    · refine ⟨holds, died, ?_⟩
      rw [later.others slot once, table, Function.update_self]
    · obtain ⟨holds', died', cleared⟩ := later.entries entry isNew
      have differs : entry.1 ≠ slot := fun same => once (same ▸ List.mem_map_of_mem isNew)
      rw [table, Function.update_of_ne differs] at holds'
      exact ⟨holds', died', cleared⟩
  · intro other absent
    rw [List.map_cons, List.mem_cons, not_or] at absent
    rw [later.others other absent.2, table, Function.update_of_ne absent.1]
  · rcases later.complete with all | none_left
    · refine .inl fun other member isExited' died' => ?_
      rw [List.map_cons, List.mem_cons]
      rcases List.mem_cons.mp member with rfl | inRest
      · exact .inl rfl
      · exact .inr (all other inRest ((unchanged other inRest).trans isExited') died')
    · exact .inr none_left

/-- **What the outer loop does**, whenever it returns. -/
theorem reapSlotsTimed_passed {slots : List ℕ} (distinct : slots.Nodup)
    (returns : reapSlotsTimed fuel env slots r = some after) :
    ∃ news, Passed env slots r after news := by
  induction slots generalizing r with
  | nil =>
    obtain rfl := Option.some.inj returns
    exact ⟨[], .stop (.inl rfl)⟩
  | cons slot rest ih =>
    obtain ⟨fresh, distinct'⟩ := List.nodup_cons.mp distinct
    rw [reapSlotsTimed] at returns
    split at returns
    · rename_i positive
      obtain ⟨middle, first, others⟩ := Option.bind_eq_some_iff.mp returns
      obtain ⟨news, later⟩ := ih distinct' others
      rcases reapSlotTimed_cases first with ⟨rfl, left⟩ | ⟨thread, holds, isExited, died, rfl⟩
      · exact ⟨news, later.skip left⟩
      · exact ⟨(slot, thread) :: news, .reap holds isExited died positive fresh later⟩
    · rename_i none_left
      obtain rfl := Option.some.inj returns
      exact ⟨[], .stop (.inr (not_lt.mp none_left))⟩

/-! ### The fuel -/

theorem wait_fuel {isDead : Bool} {before delays : ℕ} (more : ℕ)
    (returns : loop waitTurn fuel (isDead, before) = some delays) :
    loop waitTurn (more + 1) (isDead, before) = some delays := by
  obtain ⟨rfl, rfl⟩ := wait_returns returns
  exact wait_dead delays

theorem reapSlotTimed_fuel {slot : ℕ} (more : ℕ)
    (returns : reapSlotTimed fuel env slot r = some after) :
    reapSlotTimed (more + 1) env slot r = some after := by
  unfold reapSlotTimed at returns ⊢
  split at returns
  · exact returns
  · split at returns
    · rename_i exited
      rw [if_pos exited]
      split at returns
      · exact returns
      · obtain ⟨delays, waits, rfl⟩ := Option.map_eq_some_iff.mp returns
        rw [wait_fuel more waits]
        rfl
    · rename_i running
      rw [if_neg running]
      exact returns

/-- A result does not depend on the fuel. -/
theorem reapSlotsTimed_fuel {slots : List ℕ} (more : ℕ)
    (returns : reapSlotsTimed fuel env slots r = some after) :
    reapSlotsTimed (more + 1) env slots r = some after := by
  induction slots generalizing r with
  | nil => exact returns
  | cons slot rest ih =>
    rw [reapSlotsTimed] at returns ⊢
    split at returns
    · rename_i positive
      obtain ⟨middle, first, others⟩ := Option.bind_eq_some_iff.mp returns
      rw [if_pos positive, reapSlotTimed_fuel more first]
      exact ih others
    · rename_i none_left
      rw [if_neg none_left]
      exact returns

/-- The outer loop returns when the tasks of the exited threads are dead. -/
theorem reapSlotsTimed_returns {slots : List ℕ} (distinct : slots.Nodup)
    (dead : ∀ slot ∈ slots, r.state.exitedAt slot = true → env r.delays slot = some true) :
    ∃ after, reapSlotsTimed (fuel + 1) env slots r = some after := by
  induction slots generalizing r with
  | nil => exact ⟨r, rfl⟩
  | cons slot rest ih =>
    obtain ⟨fresh, distinct'⟩ := List.nodup_cons.mp distinct
    have dead' : ∀ other ∈ rest, r.state.exitedAt other = true → env r.delays other = some true :=
      fun other member => dead other (List.mem_cons_of_mem _ member)
    rw [reapSlotsTimed]
    by_cases positive : r.state.pthreadsExited > 0
    · rw [if_pos positive]
      by_cases exited : r.state.exitedAt slot = true
      · obtain ⟨thread, holds, isExited⟩ := exitedAt_iff.mp exited
        have first : reapSlotTimed (fuel + 1) env slot r =
            some (reapThread slot thread r.delays r) := by
          simp only [reapSlotTimed, holds, if_pos isExited, dead slot List.mem_cons_self exited,
            wait_dead]
          rfl
        rw [first]
        refine ih distinct' fun other member isExited' => dead' other member ?_
        rwa [reapThread_exitedAt slot thread r.delays r fun same => fresh (same ▸ member)] at isExited'
      · have first : reapSlotTimed (fuel + 1) env slot r = some r := by
          unfold reapSlotTimed
          split
          · rfl
          · rename_i thread holds
            rw [if_neg fun isExited => exited (exitedAt_iff.mpr ⟨thread, holds, isExited⟩)]
        rw [first]
        exact ih distinct' dead'
    · rw [if_neg positive]
      exact ⟨r, rfl⟩

/-- **The reaper of the table model** is this one with the answers it gets before any delay. -/
theorem reapSlotsTimed_eq_reapSlots (slots : List ℕ) (r : Reaping) :
    (reapSlotsTimed (fuel + 1) env slots r).map Reaping.state =
      reapSlots (env r.delays) slots r.state := by
  induction slots generalizing r with
  | nil => rfl
  | cons slot rest ih =>
    rw [reapSlotsTimed, reapSlots]
    by_cases positive : r.state.pthreadsExited > 0
    · rw [if_pos positive, if_pos positive, reapSlotTimed, reapSlot]
      cases holds : r.state.threadTable slot with
      | none => exact ih r
      | some thread =>
        dsimp only
        by_cases exited : (r.state.blocks thread).state = .exited
        · rw [if_pos exited, if_pos exited]
          cases status : env r.delays slot with
          | none => exact ih r
          | some isDead =>
            cases isDead with
            | false =>
              dsimp only
              rw [wait_alive]
              rfl
            | true =>
              dsimp only
              rw [wait_dead]
              exact ih (reapThread slot thread r.delays r)
        · rw [if_neg exited, if_neg exited]
          exact ih r
    · rw [if_neg positive, if_neg positive]
      rfl

theorem reapTimed_eq_pthreadReap (env : Environment) (s : PthreadState) :
    (reapTimed (fuel + 1) env s).map Reaping.state = pthreadReap (env 0) s :=
  reapSlotsTimed_eq_reapSlots (List.range threadsMax) ⟨s, 0, [], []⟩

/-! ### Every table -/

/-- The exited threads that are left behind a pass are those it did not reap. -/
theorem Passed.exitedAt {slots : List ℕ} {news : List (ℕ × Addr)}
    (pass : Passed env slots r after news)
    (slot : ℕ) : after.state.exitedAt slot = true ↔
      r.state.exitedAt slot = true ∧ slot ∉ news.map Prod.fst := by
  by_cases reaped : slot ∈ news.map Prod.fst
  · obtain ⟨entry, member, rfl⟩ := List.mem_map.mp reaped
    refine iff_of_false (fun exited => ?_) fun both => both.2 reaped
    obtain ⟨thread, holds, -⟩ := exitedAt_iff.mp exited
    rw [(pass.entries entry member).2.2] at holds
    cases holds
  · rw [exitedAt_iff, exitedAt_iff, pass.others slot reaped, pass.blocks]
    exact ⟨fun exited => ⟨exited, reaped⟩, And.left⟩

/-- The state before the loop. -/
def Reaping.start (s : PthreadState) : Reaping := ⟨s, 0, [], []⟩

variable {news : List (ℕ × Addr)}

/-- An entry that is reaped is the one of its slot. -/
theorem Passed.entry {slots : List ℕ} (pass : Passed env slots r after news) {slot : ℕ}
    (reaped : slot ∈ news.map Prod.fst) {thread : Addr} (holds : r.state.threadTable slot = some thread) :
    (slot, thread) ∈ news := by
  obtain ⟨entry, isNew, rfl⟩ := List.mem_map.mp reaped
  have same := holds.symm.trans (pass.entries entry isNew).1
  rwa [Option.some.inj same]

/-- When the tasks are dead and the counter is large enough, all exited threads are reaped. -/
theorem Passed.reaps_all (pass : Passed env (List.range threadsMax) (.start s) after news)
    (dead : ∀ slot ∈ s.exitedSlots, env 0 slot = some true)
    (counted : s.exitedSlots.length ≤ s.pthreadsExited.toNat) :
    ∀ slot ∈ s.exitedSlots, slot ∈ news.map Prod.fst := by
  rcases pass.complete with all | none_left
  · intro slot member
    obtain ⟨low, exited⟩ := List.mem_filter.mp member
    exact all slot low exited (dead slot member)
  · -- the counter is used up, so as many threads were reaped as there are
    have enough : s.exitedSlots.length ≤ (news.map Prod.fst).length := by
      have exited : after.state.pthreadsExited = s.pthreadsExited - news.length := pass.exited
      rw [List.length_map]
      omega
    have all := pass.order.eq_of_length_le enough
    intro slot member
    rw [all]
    exact member

/-- A reaper that did what it should met the condition. -/
theorem ReapOk.reapable (ok : ReapOk env s) : Reapable env s := by
  obtain ⟨bound, after, yields, none_left, -, once, -⟩ := ok
  have distinct : (List.range threadsMax).Nodup := List.nodup_range
  have returns := yields.enough (bound + 1) (Nat.lt_succ_self bound)
  obtain ⟨news, pass⟩ := reapSlotsTimed_passed (r := .start s) distinct returns
  have reaped : ∀ slot ∈ s.exitedSlots, slot ∈ news.map Prod.fst := by
    intro slot member
    obtain ⟨low, exited⟩ := mem_exitedSlots.mp member
    by_contra left
    have still := (pass.exitedAt slot).mpr ⟨exited, left⟩
    rw [none_left slot low] at still
    cases still
  refine ⟨fun slot member => ?_, ?_, ?_⟩
  · obtain ⟨entry, isNew, rfl⟩ := List.mem_map.mp (reaped slot member)
    exact (pass.entries entry isNew).2.1
  · have sub := ((distinct.filter s.exitedAt).subperm reaped).length_le
    rw [List.length_map] at sub
    exact sub.trans pass.few
  · intro slot member slot' member' thread holds holds' frees
    have frees_eq : after.frees = _ := pass.frees
    rw [frees_eq] at once
    have same := List.inj_on_of_nodup_map once
      (List.mem_filter.mpr ⟨pass.entry (reaped slot member) holds, frees⟩)
      (List.mem_filter.mpr ⟨pass.entry (reaped slot' member') holds', frees⟩) rfl
    exact congrArg Prod.fst same

/-- The condition is enough. -/
theorem Reapable.reapOk (reapable : Reapable env s) : ReapOk env s := by
  have distinct : (List.range threadsMax).Nodup := List.nodup_range
  obtain ⟨after, returns⟩ : ∃ after, reapSlotsTimed 1 env (List.range threadsMax) (.start s) =
      some after :=
    reapSlotsTimed_returns distinct fun slot member exited =>
      reapable.dead slot (List.mem_filter.mpr ⟨member, exited⟩)
  obtain ⟨news, pass⟩ := reapSlotsTimed_passed distinct returns
  have all := pass.reaps_all reapable.dead reapable.counted
  have exited : ∀ entry ∈ news, entry.1 ∈ s.exitedSlots := fun entry member =>
    pass.order.subset (List.mem_map_of_mem member)
  have reaped : after.reaped = news := pass.reaped
  have frees : after.frees = (news.filter fun entry => (s.blocks entry.2).freestack).map Prod.snd :=
    pass.frees
  refine ⟨0, after, ⟨fun fuel enough => ?_, fun fuel other returns' => ?_⟩, ?_, ?_, ?_, ?_, ?_, ?_⟩
  · obtain ⟨fuel, rfl⟩ := Nat.exists_eq_add_of_lt enough
    exact reapSlotsTimed_fuel _ returns
  · exact Option.some.inj ((reapSlotsTimed_fuel 0 returns').symm.trans returns)
  · intro slot low
    by_contra left
    obtain ⟨exited, unreaped⟩ := (pass.exitedAt slot).mp (Bool.not_eq_false _ ▸ left)
    exact unreaped (all slot (mem_exitedSlots.mpr ⟨low, exited⟩))
  · rw [reaped]
    intro entry member
    obtain ⟨holds, -, cleared⟩ := pass.entries entry member
    exact ⟨holds, (mem_exitedSlots.mp (exited entry member)).2, cleared⟩
  · rw [frees]
    have nodup : news.Nodup := (pass.order.nodup (distinct.filter _)).of_map
    refine List.Nodup.map_on ?_ (nodup.filter _)
    rintro ⟨slot, thread⟩ member ⟨slot', _⟩ member' rfl
    obtain ⟨isNew, freed⟩ := List.mem_filter.mp member
    obtain ⟨isNew', -⟩ := List.mem_filter.mp member'
    have same := reapable.owned slot (exited _ isNew) slot' (exited _ isNew') thread
      (pass.entries _ isNew).1 (pass.entries _ isNew').1 freed
    rw [same]
  · intro thread
    rw [frees, reaped]
    constructor
    · intro member
      obtain ⟨⟨slot, _⟩, isNew, rfl⟩ := List.mem_map.mp member
      obtain ⟨isNew, freed⟩ := List.mem_filter.mp isNew
      exact ⟨freed, slot, isNew⟩
    · rintro ⟨freed, slot, isNew⟩
      exact List.mem_map.mpr ⟨(slot, thread), List.mem_filter.mpr ⟨isNew, freed⟩, rfl⟩
  · rw [reaped]
    exact pass.count
  · rw [reaped]
    exact pass.exited

/-- **The reaper terminates and reaps every exited thread** if and only if the tasks of the exited
threads are dead when it looks at them first, `pthreads_exited` is not below their number, and they
do not share a stack that is to be freed. -/
theorem reap_ok_iff (env : Environment) (s : PthreadState) : ReapOk env s ↔ Reapable env s :=
  ⟨ReapOk.reapable, Reapable.reapOk⟩

/-- One exited thread, in the first slot. -/
def oneExited : PthreadState :=
  { PthreadState.initial (fun _ => none) (fun _ => ⟨.exited, 0, 0, true⟩) with
    threadTable := fun slot => if slot = 0 then some 1 else none
    pthreadCount := 1
    pthreadsExited := 1 }

/-- Its task is dead after one delay. -/
def deadAfterOne : Environment := fun delays _ => some (decide (1 ≤ delays))

/-- **The reaper waits for ever** for a task that is not dead at the first look. -/
theorem late_task_never_reaped :
    (∀ slot, ∃ delays, ∀ later ≥ delays, deadAfterOne later slot = some true) ∧
      (∀ fuel, reapTimed fuel deadAfterOne oneExited = none) ∧ ¬ ReapOk deadAfterOne oneExited := by
  have never : ∀ fuel, reapTimed fuel deadAfterOne oneExited = none := by
    intro fuel
    have first : reapSlotTimed fuel deadAfterOne 0 (.start oneExited) = none := by
      show (loop waitTurn fuel (false, 0)).map _ = none
      rw [wait_alive]
      rfl
    show (reapSlotTimed fuel deadAfterOne 0 (.start oneExited)).bind _ = none
    rw [first]
    rfl
  refine ⟨fun slot => ⟨1, fun later enough => ?_⟩, never, ?_⟩
  · rw [deadAfterOne, decide_eq_true enough]
  · rintro ⟨bound, after, yields, -⟩
    have returns := yields.enough (bound + 1) (Nat.lt_succ_self bound)
    rw [never] at returns
    cases returns

end Aple.Pthread
