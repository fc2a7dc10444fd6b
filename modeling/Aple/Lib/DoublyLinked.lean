/-
**Doubly linked lists over two pointer functions.**

* `DSeg next prev before p nodes` — a walk that comes from `before`, starts at `p`, visits exactly
  `nodes` and ends at null; every node points back to the one visited before it. `DList` starts a
  list.
* `setAt` — a write through a pointer that may be null.
* **`DList.pushFront`**, **`DList.unlink`** — a new head, and taking out any node by writing the two
  pointers of its neighbours.
-/

import Aple.Lib.Chain

namespace Aple.Lib

variable {α : Type}

/-- A walk with back pointers. -/
def DSeg (next prev : α → Option α) : Option α → Option α → List α → Prop
  | _, p, [] => p = none
  | before, p, node :: rest =>
    p = some node ∧ prev node = before ∧ DSeg next prev (some node) (next node) rest

/-- A list: nothing comes before its head. -/
abbrev DList (next prev : α → Option α) (p : Option α) (nodes : List α) : Prop :=
  DSeg next prev none p nodes

/-- Write through a pointer; null is left alone. -/
def setAt [DecidableEq α] (f : α → Option α) (target value : Option α) : α → Option α :=
  match target with
  | some node => Function.update f node value
  | none => f

variable {next prev next' prev' : α → Option α} {before p : Option α} {nodes : List α}

@[simp] theorem dseg_nil : DSeg next prev before p [] ↔ p = none := Iff.rfl

@[simp] theorem dseg_cons {node : α} {rest : List α} : DSeg next prev before p (node :: rest) ↔
    p = some node ∧ prev node = before ∧ DSeg next prev (some node) (next node) rest := Iff.rfl

theorem setAt_off [DecidableEq α] {f : α → Option α} {target value : Option α} {node : α}
    (off : target ≠ some node) : setAt f target value node = f node := by
  cases target with
  | none => rfl
  | some other =>
    refine Function.update_of_ne ?_ _ _
    rintro rfl
    exact off rfl

/-- Forgetting the back pointers. -/
theorem DSeg.isList (walk : DSeg next prev before p nodes) : IsList next p nodes := by
  induction nodes generalizing before p with
  | nil => exact walk
  | cons node rest ih => exact ⟨walk.1, ih walk.2.2⟩

theorem DSeg.nodup (walk : DSeg next prev before p nodes) : nodes.Nodup := isList_nodup walk.isList

/-- A walk depends on the pointers of its nodes only. -/
theorem DSeg.congr (walk : DSeg next prev before p nodes)
    (sameNext : ∀ node ∈ nodes, next' node = next node)
    (samePrev : ∀ node ∈ nodes, prev' node = prev node) : DSeg next' prev' before p nodes := by
  induction nodes generalizing before p with
  | nil => exact walk
  | cons node rest ih =>
    obtain ⟨head, back, tail⟩ := walk
    refine ⟨head, (samePrev node List.mem_cons_self).trans back, ?_⟩
    rw [sameNext node List.mem_cons_self]
    exact ih tail (fun other member => sameNext other (List.mem_cons_of_mem _ member))
      fun other member => samePrev other (List.mem_cons_of_mem _ member)

/-- The node behind another one. -/
theorem DSeg.next_eq {front back : List α} {node : α}
    (walk : DSeg next prev before p (front ++ node :: back)) : next node = back.head? := by
  induction front generalizing before p with
  | nil => exact isList_head walk.2.2.isList
  | cons first rest ih => exact ih walk.2.2

/-- The node before another one: it is in the front, or before the walk. -/
theorem DSeg.prev_eq {front back : List α} {node : α}
    (walk : DSeg next prev before p (front ++ node :: back)) :
    prev node = before ∧ front = [] ∨ ∃ last ∈ front, prev node = some last := by
  induction front generalizing before p with
  | nil => exact .inl ⟨walk.2.1, rfl⟩
  | cons first rest ih =>
    rcases ih walk.2.2 with ⟨back, -⟩ | ⟨last, member, back⟩
    · exact .inr ⟨first, List.mem_cons_self, back⟩
    · exact .inr ⟨last, List.mem_cons_of_mem _ member, back⟩

section Writes

variable [DecidableEq α]

/-- Redirecting the back pointer of the head. -/
theorem DSeg.rebase {before' : Option α} (walk : DSeg next prev before p nodes) :
    DSeg next (setAt prev p before') before' p nodes := by
  cases nodes with
  | nil => exact walk
  | cons node rest =>
    have nodup := walk.nodup
    obtain ⟨rfl, -, tail⟩ := walk
    refine ⟨rfl, Function.update_self .., tail.congr (fun _ _ => rfl) fun other member => ?_⟩
    refine Function.update_of_ne ?_ _ _
    rintro rfl
    exact (List.nodup_cons.mp nodup).1 member

/-- **A new head.** -/
theorem DList.pushFront {node : α} (list : DList next prev p nodes)
    (points : next' node = p) (ends : prev' node = none)
    (sameNext : ∀ other ∈ nodes, next' other = next other)
    (samePrev : ∀ other ∈ nodes, prev' other = setAt prev p (some node) other) :
    DList next' prev' (some node) (node :: nodes) := by
  refine ⟨rfl, ends, ?_⟩
  rw [points]
  exact list.rebase.congr sameNext samePrev

/-- Taking a node out of a walk. -/
theorem DSeg.unlink {front back : List α} {node : α}
    (walk : DSeg next prev before p (front ++ node :: back))
    (outside : ∀ outer, before = some outer → outer ∉ front ++ node :: back) :
    DSeg (setAt next (prev node) (next node)) (setAt prev (next node) (prev node)) before
      (if p = some node then next node else p) (front ++ back) := by
  have nodup := walk.nodup
  have nextNode := walk.next_eq
  induction front generalizing before p with
  | nil =>
    obtain ⟨rfl, back_eq, tail⟩ := walk
    rw [if_pos rfl, back_eq]
    refine tail.rebase.congr (fun other member => setAt_off fun same => ?_) fun _ _ => rfl
    exact outside other same (List.mem_cons_of_mem _ member)
  | cons first rest ih =>
    obtain ⟨rfl, back_eq, tail⟩ := walk
    have firstOff := (List.nodup_cons.mp nodup).1
    have differs : first ≠ node := by
      rintro rfl
      exact firstOff (by simp)
    have tail' := ih tail (fun outer same => by rw [← Option.some.inj same]; exact firstOff)
      (List.nodup_cons.mp nodup).2
    rw [if_neg (by simpa using differs)]
    refine ⟨rfl, ?_, ?_⟩
    · -- the head of the back is not the first node
      rw [setAt_off, back_eq]
      rw [nextNode]
      intro atHead
      exact firstOff (List.mem_append_right _ (List.mem_cons_of_mem _ (List.mem_of_mem_head? atHead)))
    · have forward : setAt next (prev node) (next node) first =
          if next first = some node then next node else next first := by
        rcases tail.prev_eq with ⟨isFirst, rfl⟩ | ⟨last, member, isLast⟩
        · -- the node comes right behind the first one
          rw [isFirst, if_pos tail.1]
          exact Function.update_self ..
        · have notFirst : last ≠ first := by
            rintro rfl
            exact firstOff (List.mem_append_left _ member)
          rw [isLast, setAt_off (by simpa using notFirst), if_neg]
          intro direct
          cases rest with
          | nil => cases member
          | cons second others =>
            have behind : second = node := Option.some.inj (tail.1.symm.trans direct)
            rw [behind] at nodup
            exact (List.nodup_cons.mp (List.nodup_cons.mp nodup).2).1 (by simp)
      rw [forward]
      exact tail'

/-- **Taking a node out of a list.** -/
theorem DList.unlink {front back : List α} {node : α}
    (list : DList next prev p (front ++ node :: back)) :
    DList (setAt next (prev node) (next node)) (setAt prev (next node) (prev node))
      (if p = some node then next node else p) (front ++ back) :=
  DSeg.unlink list fun _ same => nomatch same

end Writes

end Aple.Lib
