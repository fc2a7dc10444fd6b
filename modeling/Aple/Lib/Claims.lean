/-
**Names that owners hold.**

* `update_eq_some`, `update_none_eq_some` — an entry of a partial map after one of its values was
  set.
* `Claims names held` — the names taken are exactly the ones held, and no two owners hold one.
* `Claims.acquire`, `Claims.release` — an owner takes a free name, or gives its own back.
-/

import Mathlib.Data.Finset.Basic

namespace Aple.Lib

variable {Owner Name : Type}

section Maps

variable [DecidableEq Owner] {held : Owner → Option Name} {owner other : Owner} {name : Name}

/-- An entry after an update is the new one or an old one. -/
theorem update_eq_some {value : Option Name}
    (holds : Function.update held owner value other = some name) :
    other = owner ∧ value = some name ∨ other ≠ owner ∧ held other = some name := by
  by_cases same : other = owner
  · rw [same, Function.update_self] at holds
    exact .inl ⟨same, holds⟩
  · rw [Function.update_of_ne same] at holds
    exact .inr ⟨same, holds⟩

/-- An entry that is left when another one is taken away. -/
theorem update_none_eq_some (holds : Function.update held owner none other = some name) :
    other ≠ owner ∧ held other = some name := by
  rcases update_eq_some holds with ⟨-, taken⟩ | old
  · cases taken
  · exact old

end Maps

variable [DecidableEq Name] {names : Finset Name} {held : Owner → Option Name}

/-- The names taken, and who holds which. -/
structure Claims (names : Finset Name) (held : Owner → Option Name) : Prop where
  exact : ∀ name, name ∈ names ↔ ∃ owner, held owner = some name
  distinct : ∀ owner other name, held owner = some name → held other = some name → owner = other

namespace Claims

omit [DecidableEq Name] in
theorem empty : Claims (∅ : Finset Name) fun _ : Owner => none where
  exact name := by simp
  distinct owner other name holds := by cases holds

variable [DecidableEq Owner] {owner : Owner} {name : Name}

/-- An owner without a name takes one that is free. -/
theorem acquire (claims : Claims names held) (free : name ∉ names) (nothing : held owner = none) :
    Claims (insert name names) (Function.update held owner (some name)) := by
  have others : ∀ other, held other ≠ some name :=
    fun other holds => free ((claims.exact name).mpr ⟨other, holds⟩)
  constructor
  · intro wanted
    rw [Finset.mem_insert, claims.exact]
    constructor
    · rintro (rfl | ⟨other, holds⟩)
      · exact ⟨owner, Function.update_self ..⟩
      · have differs : other ≠ owner := by
          rintro rfl
          rw [nothing] at holds
          cases holds
        exact ⟨other, (Function.update_of_ne differs ..).trans holds⟩
    · rintro ⟨other, holds⟩
      rcases update_eq_some holds with ⟨-, taken⟩ | ⟨-, old⟩
      · exact .inl (Option.some.inj taken).symm
      · exact .inr ⟨other, old⟩
  · intro first second wanted holds holds'
    rcases update_eq_some holds with ⟨same, taken⟩ | ⟨-, old⟩
    · rcases update_eq_some holds' with ⟨same', -⟩ | ⟨-, old'⟩
      · rw [same, same']
      · rw [← taken] at old'
        exact absurd old' (others second)
    · rcases update_eq_some holds' with ⟨-, taken'⟩ | ⟨-, old'⟩
      · rw [← taken'] at old
        exact absurd old (others first)
      · exact claims.distinct first second wanted old old'

/-- An owner gives its name back. -/
theorem release (claims : Claims names held) (mine : held owner = some name) :
    Claims (names.erase name) (Function.update held owner none) := by
  constructor
  · intro wanted
    rw [Finset.mem_erase, claims.exact]
    constructor
    · rintro ⟨differs, other, holds⟩
      have another : other ≠ owner := by
        rintro rfl
        exact differs (Option.some.inj (holds.symm.trans mine))
      exact ⟨other, (Function.update_of_ne another ..).trans holds⟩
    · rintro ⟨other, holds⟩
      obtain ⟨another, old⟩ := update_none_eq_some holds
      refine ⟨?_, other, old⟩
      rintro rfl
      exact another (claims.distinct other owner wanted old mine)
  · intro first second wanted holds holds'
    exact claims.distinct first second wanted (update_none_eq_some holds).2
      (update_none_eq_some holds').2

end Claims

end Aple.Lib
