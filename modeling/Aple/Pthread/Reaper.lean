/-
**What a pass of the reaper does.**

* `ReaperPass` — a slot keeps its block, or it is cleared and the thread has exited; only the stacks
  of such threads are freed, and the rest of the table stays.
* **`pthreadReap_pass`** — `pthread_reap` is such a pass, whatever state the table is in.
-/

import Aple.Pthread.Table

namespace Aple.Pthread

/-- The slots whose task is dead when the reaper looks at them. -/
def dead (status : TaskStatus) (slot : ℕ) : Prop := status slot = some true

/-- What a pass of the reaper changes, where `dead` are the slots whose tasks it finds dead. -/
structure ReaperPass (dead : ℕ → Prop) (s after : PthreadState) : Prop where
  blocks : after.blocks = s.blocks
  phase : after.phase = s.phase
  next : after.threadInfoNext = s.threadInfoNext
  cookie : after.threadIdCookie = s.threadIdCookie
  ids : after.ids = s.ids
  behind : ∀ slot, threadsMax ≤ slot → after.threadTable slot = s.threadTable slot
  slots : ∀ slot < threadsMax, after.threadTable slot = s.threadTable slot ∨
    ∃ addr, s.threadTable slot = some addr ∧ after.threadTable slot = none ∧
      (s.blocks addr).state = .exited ∧ dead slot
  live : ∀ addr, after.live addr = s.live addr ∨
    ∃ slot < threadsMax, s.threadTable slot = some addr ∧ after.threadTable slot = none

namespace ReaperPass

variable {dead dead' : ℕ → Prop} {s middle after : PthreadState} {slot : ℕ} {addr : Addr}

theorem refl (dead : ℕ → Prop) (s : PthreadState) : ReaperPass dead s s :=
  ⟨rfl, rfl, rfl, rfl, rfl, fun _ _ => rfl, fun _ _ => .inl rfl, fun _ => .inl rfl⟩

theorem mono (pass : ReaperPass dead s after) (weaken : ∀ slot, dead slot → dead' slot) :
    ReaperPass dead' s after := by
  refine { pass with slots := fun slot low => ?_ }
  rcases pass.slots slot low with same | ⟨addr, holds, cleared, exited, died⟩
  · exact .inl same
  · exact .inr ⟨addr, holds, cleared, exited, weaken slot died⟩

theorem trans (first : ReaperPass dead s middle) (second : ReaperPass dead middle after) :
    ReaperPass dead s after where
  blocks := second.blocks.trans first.blocks
  phase := second.phase.trans first.phase
  next := second.next.trans first.next
  cookie := second.cookie.trans first.cookie
  ids := second.ids.trans first.ids
  behind slot far := (second.behind slot far).trans (first.behind slot far)
  slots slot low := by
    rcases second.slots slot low with same | ⟨addr, holds, cleared, exited, died⟩
    · rw [same]
      exact first.slots slot low
    · refine .inr ⟨addr, ?_, cleared, first.blocks ▸ exited, died⟩
      rcases first.slots slot low with same | ⟨_, -, empty, -⟩
      · rw [← same, holds]
      · rw [empty] at holds
        cases holds
  live addr := by
    have given : (∃ slot < threadsMax, s.threadTable slot = some addr ∧ middle.threadTable slot = none) →
        ∃ slot < threadsMax, s.threadTable slot = some addr ∧ after.threadTable slot = none := by
      rintro ⟨slot, low, holds, empty⟩
      refine ⟨slot, low, holds, ?_⟩
      rcases second.slots slot low with same | ⟨_, holds', -⟩
      · rw [same, empty]
      · rw [empty] at holds'
        cases holds'
    rcases second.live addr with same | ⟨slot, low, holds, cleared⟩
    · rcases first.live addr with same' | freed
      · exact .inl (same.trans same')
      · exact .inr (given freed)
    · refine .inr ⟨slot, low, ?_, cleared⟩
      rcases first.slots slot low with same | ⟨_, -, empty, -⟩
      · rw [← same, holds]
      · rw [empty] at holds
        cases holds

/-- The reaper fills no slot. -/
theorem kept (pass : ReaperPass dead s after) (low : slot < threadsMax)
    (holds : after.threadTable slot = some addr) : s.threadTable slot = some addr := by
  rcases pass.slots slot low with same | ⟨_, -, cleared, -⟩
  · rw [← same, holds]
  · rw [cleared] at holds
    cases holds

theorem unlisted (pass : ReaperPass dead s after) (absent : s.Unlisted addr) :
    after.Unlisted addr :=
  fun slot low holds => absent slot low (pass.kept low holds)

/-- The pass does not look at a block whose thread has not exited, so it may as well be written
before. -/
theorem setBlock (pass : ReaperPass dead s after) (notExited : (s.blocks addr).state ≠ .exited)
    (info : PthreadInfo) :
    ReaperPass (fun slot => dead slot ∧ s.threadTable slot ≠ some addr) (s.setBlock addr info)
      (after.setBlock addr info) := by
  refine { pass with
    blocks := by
      show Function.update after.blocks addr info = Function.update s.blocks addr info
      rw [pass.blocks]
    slots := fun slot low => ?_ }
  rcases pass.slots slot low with same | ⟨addr', holds, cleared, exited, died⟩
  · exact .inl same
  · have differs : addr' ≠ addr := by
      rintro rfl
      exact notExited exited
    refine .inr ⟨addr', holds, cleared, ?_, died, fun holds' => ?_⟩
    · show (Function.update s.blocks addr info addr').state = .exited
      rw [Function.update_of_ne differs]
      exact exited
    · exact differs (Option.some.inj (holds.symm.trans holds'))

end ReaperPass

theorem reapSlot_pass {status : TaskStatus} {slot : ℕ} {s after : PthreadState}
    (low : slot < threadsMax) (returns : reapSlot status slot s = some after) :
    ReaperPass (dead status) s after := by
  rcases reapSlot_cases returns with rfl | ⟨thread, live, holds, exited, died, others, rfl⟩
  · exact .refl _ after
  · have behind : ∀ slot', threadsMax ≤ slot' →
        Function.update s.threadTable slot none slot' = s.threadTable slot' := by
      intro slot' far
      exact Function.update_of_ne (by omega) _ _
    have slots : ∀ slot' < threadsMax,
        Function.update s.threadTable slot none slot' = s.threadTable slot' ∨
          ∃ addr, s.threadTable slot' = some addr ∧
            Function.update s.threadTable slot none slot' = none ∧
            (s.blocks addr).state = .exited ∧ dead status slot' := by
      intro slot' low'
      by_cases same : slot' = slot
      · rw [same]
        exact .inr ⟨thread, holds, Function.update_self .., exited, died⟩
      · exact .inl (Function.update_of_ne same _ _)
    refine ⟨rfl, rfl, rfl, rfl, rfl, behind, slots, fun addr => ?_⟩
    by_cases same : addr = thread
    · rw [same]
      exact .inr ⟨slot, low, holds, Function.update_self ..⟩
    · exact .inl (others addr same)

theorem reapSlots_pass {status : TaskStatus} {slots : List ℕ} {s after : PthreadState}
    (low : ∀ slot ∈ slots, slot < threadsMax) (returns : reapSlots status slots s = some after) :
    ReaperPass (dead status) s after := by
  induction slots generalizing s with
  | nil =>
    rw [← Option.some.inj returns]
    exact .refl _ s
  | cons slot rest ih =>
    rw [reapSlots] at returns
    split at returns
    · obtain ⟨middle, first, others⟩ := Option.bind_eq_some_iff.mp returns
      refine (reapSlot_pass (low slot List.mem_cons_self) first).trans (ih ?_ others)
      exact fun other member => low other (List.mem_cons_of_mem _ member)
    · rw [← Option.some.inj returns]
      exact .refl _ s

/-- **The reaper** clears slots of exited threads and does nothing else to the table. -/
theorem pthreadReap_pass {status : TaskStatus} {s after : PthreadState}
    (returns : pthreadReap status s = some after) : ReaperPass (dead status) s after :=
  reapSlots_pass (fun _ member => List.mem_range.mp member) returns

end Aple.Pthread
