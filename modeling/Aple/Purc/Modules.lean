/-
**Initialising and cleaning up the modules of an instance.**

* `Pcmodule`, `initModules`, `cleanupModules` — the module table and the two loops over it, with the
  calls they make.
* `RollsBack` — the clean-up calls after `init_modules` are those of the modules that were
  initialised, in the reverse order.
* `Separate` — no other module with a clean-up has an id that the ids of those modules cover.
* **`rolls_back_iff`** — the roll-back is right if and only if the ids are separate;
  `shared_id_cleans_failed` — a module that failed is cleaned up.
-/

import Mathlib.Data.BitVec
import Mathlib.Data.List.Nodup

namespace Aple.Purc

/-! ### The two loops -/

/-- An entry of `_pc_modules`: the id, what `init_instance` returns when it is not null, and whether
there is a `cleanup_instance`. -/
structure Pcmodule where
  id : BitVec 32
  initInstance : Option ℤ
  cleanupInstance : Bool
deriving DecidableEq, Repr

/-- A module with its index in the table. -/
abbrev Entry := Pcmodule × ℕ

/-- `(id & mask) == id`. -/
def covered (id mask : BitVec 32) : Bool := id &&& mask == id

/-- The loop of `init_modules`: the result, `modules_inited`, and the modules whose `init_instance`
was called. -/
def initLoop (modules : BitVec 32) : List Entry → BitVec 32 → ℤ × BitVec 32 × List Entry
  | [], modulesInited => (0, modulesInited, [])
  | (m, i) :: rest, modulesInited =>
    if covered m.id modules then
      match m.initInstance with
      | none => initLoop modules rest modulesInited
      | some ret =>
        if ret ≠ 0 then (ret, modulesInited, [(m, i)])
        else
          let (ret, inited, calls) := initLoop modules rest (modulesInited ||| m.id)
          (ret, inited, (m, i) :: calls)
    else initLoop modules rest modulesInited

/-- `init_modules`. -/
def initModules (table : List Pcmodule) (modules : BitVec 32) : ℤ × BitVec 32 × List Entry :=
  initLoop modules table.zipIdx 0

/-- `cleanup_modules`: the modules whose `cleanup_instance` is called. -/
def cleanupModules (table : List Pcmodule) (modulesInited : BitVec 32) : List Entry :=
  table.zipIdx.reverse.filter fun entry =>
    entry.1.cleanupInstance && covered entry.1.id modulesInited

/-! ### What the roll-back should do -/

/-- The `init_instance` of a module returned zero. -/
def Entry.succeeds (entry : Entry) : Bool := entry.1.initInstance == some 0

/-- What `cleanup_modules` does behind `init_modules`, against what was initialised. -/
def RollsBack (table : List Pcmodule) (modules : BitVec 32) : Prop :=
  cleanupModules table (initModules table modules).2.1 =
    (((initModules table modules).2.2.filter Entry.succeeds).filter
      fun entry => entry.1.cleanupInstance).reverse

/-- The module is asked for, and has an `init_instance`. -/
def Entry.selected (modules : BitVec 32) (entry : Entry) : Bool :=
  covered entry.1.id modules && entry.1.initInstance.isSome

/-- The modules in front of the first one that fails, or all of them. -/
def ready (table : List Pcmodule) (modules : BitVec 32) : List Entry :=
  (table.zipIdx.filter (Entry.selected modules)).takeWhile Entry.succeeds

/-- The bits of some modules together. -/
def idsOf (entries : List Entry) : BitVec 32 := entries.foldr (fun entry ids => entry.1.id ||| ids) 0

/-- No other module with a clean-up has an id within the ids of the modules that are ready. -/
def Separate (table : List Pcmodule) (modules : BitVec 32) : Prop :=
  ∀ entry ∈ table.zipIdx, entry.1.cleanupInstance = true → entry ∉ ready table modules →
    covered entry.1.id (idsOf (ready table modules)) = false

/-! ### The masks -/

theorem covered_iff {id mask : BitVec 32} : covered id mask = true ↔ id &&& mask = id := beq_iff_eq

theorem covered_or_left (id mask : BitVec 32) : covered id (id ||| mask) = true := by
  rw [covered_iff]
  ext i inWord
  simp only [BitVec.getElem_and, BitVec.getElem_or]
  cases id[i] <;> rfl

theorem covered_or_right {id mask : BitVec 32} (within : covered id mask = true) (other : BitVec 32) :
    covered id (other ||| mask) = true := by
  rw [covered_iff] at within ⊢
  ext i inWord
  have bit : (id &&& mask)[i] = id[i] := by rw [within]
  simp only [BitVec.getElem_and, BitVec.getElem_or] at bit ⊢
  cases own : id[i]
  · rfl
  · rw [own, Bool.true_and] at bit
    rw [bit, Bool.or_true]
    rfl

/-- The id of a module is within the ids of any modules it is one of. -/
theorem covered_idsOf {entry : Entry} {entries : List Entry} (member : entry ∈ entries) :
    covered entry.1.id (idsOf entries) = true := by
  induction entries with
  | nil => cases member
  | cons first rest ih =>
    rcases List.mem_cons.mp member with rfl | later
    · exact covered_or_left ..
    · exact covered_or_right (ih later) first.1.id

/-! ### The loops -/

/-- **The loop of `init_modules`** records the ids of the modules that are ready, and calls no other
module with success. -/
theorem initLoop_spec (modules : BitVec 32) (entries : List Entry) (modulesInited : BitVec 32) :
    (initLoop modules entries modulesInited).2.1 = modulesInited |||
        idsOf ((entries.filter (Entry.selected modules)).takeWhile Entry.succeeds) ∧
      (initLoop modules entries modulesInited).2.2.filter Entry.succeeds =
        (entries.filter (Entry.selected modules)).takeWhile Entry.succeeds := by
  induction entries generalizing modulesInited with
  | nil => exact ⟨(BitVec.or_zero).symm, rfl⟩
  | cons entry rest ih =>
    obtain ⟨m, i⟩ := entry
    by_cases requested : covered m.id modules = true
    · cases init : m.initInstance with
      | none =>
        have unselected : Entry.selected modules (m, i) = false := by
          simp [Entry.selected, init]
        rw [List.filter_cons_of_neg (by simp [unselected])]
        simp only [initLoop, if_pos requested, init]
        exact ih modulesInited
      | some ret =>
        have selected : Entry.selected modules (m, i) = true := by
          simp [Entry.selected, requested, init]
        rw [List.filter_cons_of_pos selected]
        simp only [initLoop, if_pos requested, init]
        by_cases fails : ret ≠ 0
        · have unready : Entry.succeeds (m, i) = false := by
            simpa [Entry.succeeds, init] using fails
          rw [if_pos fails, List.takeWhile_cons_of_neg (by simp [unready]),
            List.filter_cons_of_neg (by simp [unready])]
          exact ⟨(BitVec.or_zero).symm, rfl⟩
        · have succeeds : Entry.succeeds (m, i) = true := by
            simpa [Entry.succeeds, init] using fails
          obtain ⟨inited, calls⟩ := ih (modulesInited ||| m.id)
          rw [if_neg fails, List.takeWhile_cons_of_pos succeeds, List.filter_cons_of_pos succeeds, calls]
          refine ⟨inited.trans ?_, rfl⟩
          rw [BitVec.or_assoc]
          rfl
    · have unselected : Entry.selected modules (m, i) = false := by
        simp [Entry.selected, requested]
      rw [List.filter_cons_of_neg (by simp [unselected])]
      simp only [initLoop, if_neg requested]
      exact ih modulesInited

theorem ready_sublist (table : List Pcmodule) (modules : BitVec 32) :
    (ready table modules).Sublist table.zipIdx :=
  (List.takeWhile_sublist _).trans List.filter_sublist

/-- A part of a list without duplicates is picked out by membership. -/
theorem filter_mem_sublist {part whole : List Entry} (sub : part.Sublist whole) (nodup : whole.Nodup) :
    whole.filter (fun entry => decide (entry ∈ part)) = part := by
  induction sub with
  | slnil => rfl
  | cons entry sub ih =>
    obtain ⟨fresh, nodup⟩ := List.nodup_cons.mp nodup
    rw [List.filter_cons_of_neg, ih nodup]
    simpa using fun member => fresh (sub.subset member)
  | cons_cons entry sub ih =>
    obtain ⟨fresh, nodup⟩ := List.nodup_cons.mp nodup
    rw [List.filter_cons_of_pos (by simp)]
    refine congrArg (entry :: ·) (Eq.trans (List.filter_congr fun other member => ?_) (ih nodup))
    have differs : other ≠ entry := fun same => fresh (same ▸ member)
    simp [differs]

theorem nodup_zipIdx (table : List Pcmodule) : table.zipIdx.Nodup := by
  refine List.Nodup.of_map Prod.snd ?_
  rw [List.zipIdx_map_snd]
  exact List.nodup_range'

/-- **The roll-back matches the initialisation** if and only if no module with a clean-up that was
not initialised has an id within the ids of the modules that were. -/
theorem rolls_back_iff (table : List Pcmodule) (modules : BitVec 32) :
    RollsBack table modules ↔ Separate table modules := by
  obtain ⟨inited, calls⟩ := initLoop_spec modules table.zipIdx 0
  replace inited := inited.trans BitVec.zero_or
  have picked : (ready table modules).filter (fun entry => entry.1.cleanupInstance) =
      table.zipIdx.filter fun entry => entry.1.cleanupInstance && decide (entry ∈ ready table modules) := by
    rw [← filter_mem_sublist (ready_sublist table modules) (nodup_zipIdx table), List.filter_filter]
    simp only [filter_mem_sublist (ready_sublist table modules) (nodup_zipIdx table)]
  have goal : RollsBack table modules ↔
      table.zipIdx.filter (fun entry => entry.1.cleanupInstance &&
          covered entry.1.id (idsOf (ready table modules))) =
        table.zipIdx.filter fun entry =>
          entry.1.cleanupInstance && decide (entry ∈ ready table modules) := by
    rw [← picked]
    unfold RollsBack cleanupModules initModules
    rw [inited, calls, List.filter_reverse, List.reverse_inj]
    exact Iff.rfl
  rw [goal]
  constructor
  · intro same entry member cleans unready
    by_contra within
    have both : entry ∈ table.zipIdx.filter fun entry => entry.1.cleanupInstance &&
        covered entry.1.id (idsOf (ready table modules)) :=
      List.mem_filter.mpr ⟨member, by simp [cleans, within]⟩
    rw [same] at both
    simp [unready] at both
  · intro separate
    refine List.filter_congr fun entry member => ?_
    by_cases isReady : entry ∈ ready table modules
    · rw [covered_idsOf isReady, decide_eq_true isReady]
    · cases cleans : entry.1.cleanupInstance with
      | false => rfl
      | true => rw [separate entry member cleans isReady, decide_eq_false isReady]

/-- Two modules with one id, of which the second fails. -/
def sharedId : List Pcmodule := [⟨1, some 0, true⟩, ⟨1, some 7, true⟩]

/-- **A module whose initialisation failed is cleaned up**, because the one in front of it has its
id. -/
theorem shared_id_cleans_failed :
    initModules sharedId 1 = (7, 1, [(⟨1, some 0, true⟩, 0), (⟨1, some 7, true⟩, 1)]) ∧
      cleanupModules sharedId 1 = [(⟨1, some 7, true⟩, 1), (⟨1, some 0, true⟩, 0)] ∧
      ¬ RollsBack sharedId 1 := by
  unfold RollsBack
  decide

end Aple.Purc
