/-
**Resources that are handed out.**

* `Ledger` — what is open is either handed to somebody or still held by a call under way.
* `Ledger.opens`, `hands`, `closes`, `drops` — the four ways it changes.
-/

import Mathlib.Data.Finset.Basic

namespace Aple.Lib

variable {α : Type} [DecidableEq α] {all handed : Finset α} {held held' : α → Prop} {x : α}

/-- **Everything that is open is handed out or held**, and not both. -/
structure Ledger (all handed : Finset α) (held : α → Prop) : Prop where
  mem : ∀ y, y ∈ all ↔ y ∈ handed ∨ held y
  apart : ∀ y, held y → y ∉ handed

namespace Ledger

omit [DecidableEq α] in
theorem congr (ledger : Ledger all handed held) (same : ∀ y, held' y ↔ held y) :
    Ledger all handed held' where
  mem y := (ledger.mem y).trans (or_congr_right (same y).symm)
  apart y now := ledger.apart y ((same y).mp now)

/-- A new one is held. -/
theorem opens (ledger : Ledger all handed held) (fresh : x ∉ all)
    (now : ∀ y, held' y ↔ held y ∨ y = x) : Ledger (insert x all) handed held' where
  mem y := by rw [Finset.mem_insert, ledger.mem, now, or_comm, or_assoc]
  apart y holds := by
    rcases (now y).mp holds with before | rfl
    · exact ledger.apart y before
    · exact fun used => fresh ((ledger.mem y).mpr (.inl used))

/-- One that was held is handed out. -/
theorem hands (ledger : Ledger all handed held) (has : held x)
    (now : ∀ y, held' y ↔ held y ∧ y ≠ x) : Ledger all (insert x handed) held' where
  mem y := by
    rw [ledger.mem, now, Finset.mem_insert]
    by_cases same : y = x
    · subst same
      simp [has]
    · simp [same]
  apart y holds := by
    obtain ⟨before, other⟩ := (now y).mp holds
    rw [Finset.mem_insert, not_or]
    exact ⟨other, ledger.apart y before⟩

/-- One that was held is closed. -/
theorem closes (ledger : Ledger all handed held) (has : held x)
    (now : ∀ y, held' y ↔ held y ∧ y ≠ x) : Ledger (all.erase x) handed held' where
  mem y := by
    rw [Finset.mem_erase, ledger.mem, now]
    constructor
    · rintro ⟨other, was | was⟩
      · exact .inl was
      · exact .inr ⟨was, other⟩
    · rintro (was | ⟨was, other⟩)
      · exact ⟨fun same => ledger.apart x has (same ▸ was), .inl was⟩
      · exact ⟨other, .inr was⟩
  apart y holds := ledger.apart y ((now y).mp holds).1

/-- One that was handed out is closed. -/
theorem drops (ledger : Ledger all handed held) (has : x ∈ handed) :
    Ledger (all.erase x) (handed.erase x) held where
  mem y := by
    rw [Finset.mem_erase, Finset.mem_erase, ledger.mem, and_or_left]
    refine or_congr_right (and_iff_right_of_imp fun was => ?_)
    rintro rfl
    exact ledger.apart y was has
  apart y holds := fun was => ledger.apart y holds (Finset.mem_of_mem_erase was)

end Ledger

end Aple.Lib
