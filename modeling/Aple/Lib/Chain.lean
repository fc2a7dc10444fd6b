/-
**Singly linked lists over a next pointer.**

A node is an address, a list is what following `next` from a head pointer visits.

* `Seg next p nodes q` — from `p` the walk visits exactly `nodes` and arrives at `q`;
  `IsList next p nodes` ends at the null pointer.
* `Visits next p node` — the walk from `p` comes past the node.
* **`isList_unique`**, **`isList_nodup`** — the nodes are determined by the head, and a list that
  ends at null is acyclic.
* `seg_append`, `seg_update`, `seg_setLast`, `seg_unlink` — cutting a walk, writing off it,
  redirecting its last node, taking a node out.
* `Linked next first last nodes` — a head pointer, and a tail pointer that is right whenever the
  list is not empty; `Linked.pushBack`, `Linked.pushFront`, `Linked.popFront`.
-/

import Mathlib.Data.List.Basic
import Mathlib.Data.List.Nodup
import Mathlib.Logic.Function.Basic

namespace Aple.Lib

variable {α : Type}

/-! ### Walks -/

/-- Following `next` from `p` visits exactly `nodes` and arrives at `q`. -/
def Seg (next : α → Option α) : Option α → List α → Option α → Prop
  | p, [], q => p = q
  | p, node :: rest, q => p = some node ∧ Seg next (next node) rest q

/-- The list that starts at `p`. -/
abbrev IsList (next : α → Option α) (p : Option α) (nodes : List α) : Prop :=
  Seg next p nodes none

variable {next next' : α → Option α} {p q : Option α} {nodes : List α}

@[simp] theorem seg_nil : Seg next p [] q ↔ p = q := Iff.rfl

@[simp] theorem seg_cons {node : α} {rest : List α} :
    Seg next p (node :: rest) q ↔ p = some node ∧ Seg next (next node) rest q := Iff.rfl

theorem seg_append {first second : List α} :
    Seg next p (first ++ second) q ↔ ∃ middle, Seg next p first middle ∧ Seg next middle second q := by
  induction first generalizing p with
  | nil => simp
  | cons node rest ih =>
    simp only [List.cons_append, seg_cons, ih]
    constructor
    · rintro ⟨head, middle, front, back⟩
      exact ⟨middle, ⟨head, front⟩, back⟩
    · rintro ⟨middle, ⟨head, front⟩, back⟩
      exact ⟨head, middle, front, back⟩

/-- A walk depends on the next pointers of its nodes only. -/
theorem seg_congr (same : ∀ node ∈ nodes, next' node = next node) (walk : Seg next p nodes q) :
    Seg next' p nodes q := by
  induction nodes generalizing p with
  | nil => exact walk
  | cons node rest ih =>
    refine ⟨walk.1, ?_⟩
    rw [same node List.mem_cons_self]
    exact ih (fun other member => same other (List.mem_cons_of_mem _ member)) walk.2

/-- Writing the next pointer of another node leaves a walk alone. -/
theorem seg_update [DecidableEq α] {node : α} {target : Option α} (walk : Seg next p nodes q)
    (off : node ∉ nodes) : Seg (Function.update next node target) p nodes q := by
  refine seg_congr (fun other member => Function.update_of_ne ?_ _ _) walk
  rintro rfl
  exact off member

theorem isList_null_iff : IsList next none nodes ↔ nodes = [] := by
  cases nodes <;> simp

theorem isList_head (walk : IsList next p nodes) : p = nodes.head? := by
  cases nodes with
  | nil => exact walk
  | cons node rest => exact walk.1

/-- **The head determines the nodes.** -/
theorem isList_unique {nodes' : List α} (walk : IsList next p nodes)
    (walk' : IsList next p nodes') : nodes = nodes' := by
  induction nodes generalizing p nodes' with
  | nil =>
    have null : p = none := walk
    subst null
    exact (isList_null_iff.mp walk').symm
  | cons node rest ih =>
    cases nodes' with
    | nil =>
      have null : p = none := walk'
      simp [null] at walk
    | cons node' rest' =>
      have same : node = node' := Option.some.inj (walk.1.symm.trans walk'.1)
      subst same
      rw [ih walk.2 walk'.2]

/-- Following `next` from `p` comes past the node. -/
def Visits (next : α → Option α) (p : Option α) (node : α) : Prop :=
  ∃ walk, Seg next p walk (some node)

/-- A list visits its nodes and no other. -/
theorem visits_iff {node : α} (walk : IsList next p nodes) : Visits next p node ↔ node ∈ nodes := by
  constructor
  · rintro ⟨front, arrives⟩
    induction front generalizing p nodes with
    | nil =>
      obtain rfl : p = some node := arrives
      exact List.mem_of_mem_head? (isList_head walk).symm
    | cons other front ih =>
      obtain ⟨rfl, behind⟩ := arrives
      cases nodes with
      | nil => cases walk
      | cons head rest =>
        obtain rfl : other = head := Option.some.inj walk.1
        exact List.mem_cons_of_mem _ (ih walk.2 behind)
  · intro member
    obtain ⟨before, after, rfl⟩ := List.append_of_mem member
    obtain ⟨middle, front, back⟩ := seg_append.mp walk
    rw [back.1] at front
    exact ⟨before, front⟩

/-- **A list that ends at null is acyclic.** -/
theorem isList_nodup (walk : IsList next p nodes) : nodes.Nodup := by
  induction nodes generalizing p with
  | nil => exact List.nodup_nil
  | cons node rest ih =>
    refine List.nodup_cons.mpr ⟨fun member => ?_, ih walk.2⟩
    -- a second visit would start the same list again, strictly shorter
    obtain ⟨before, after, split⟩ := List.append_of_mem member
    have tail : IsList next (next node) (before ++ node :: after) := split ▸ walk.2
    obtain ⟨middle, _, back⟩ := seg_append.mp tail
    have again : IsList next (some node) (node :: after) := by
      rw [← back.1]
      exact back
    have whole : IsList next (some node) (node :: rest) := ⟨rfl, walk.2⟩
    have lengths := congrArg List.length (isList_unique whole again)
    simp only [split, List.length_cons, List.length_append] at lengths
    omega

/-- **Redirecting the last node of a walk.** -/
theorem seg_setLast [DecidableEq α] {front : List α} {node : α} {target : Option α}
    (walk : Seg next p (front ++ [node]) q) (fresh : node ∉ front) :
    Seg (Function.update next node target) p (front ++ [node]) target := by
  obtain ⟨middle, start, last⟩ := seg_append.mp walk
  refine seg_append.mpr ⟨middle, seg_update start fresh, last.1, ?_⟩
  simp

/-- **Unlinking a node behind another one.** -/
theorem seg_unlink [DecidableEq α] {front back : List α} {prev node : α}
    (walk : Seg next p (front ++ prev :: node :: back) q)
    (nodup : (front ++ prev :: node :: back).Nodup) :
    Seg (Function.update next prev (next node)) p (front ++ prev :: back) q := by
  have split : front ++ prev :: node :: back = (front ++ [prev]) ++ node :: back := by simp
  rw [split] at walk nodup
  obtain ⟨middle, start, rest⟩ := seg_append.mp walk
  rw [List.nodup_append] at nodup
  obtain ⟨startNodup, -, apart⟩ := nodup
  have prevFresh : prev ∉ front := by
    rw [List.nodup_append] at startNodup
    exact fun member => startNodup.2.2 prev member prev (List.mem_singleton_self _) rfl
  have prevOff : prev ∉ back := fun member =>
    apart prev (by simp) prev (List.mem_cons_of_mem _ member) rfl
  have redirected : Seg (Function.update next prev (next node)) p (front ++ [prev]) (next node) :=
    seg_setLast start prevFresh
  have joined := seg_append.mpr ⟨_, redirected, seg_update rest.2 prevOff⟩
  rwa [List.append_assoc, List.singleton_append] at joined

/-! ### A head and a tail pointer -/

/-- A head pointer with its nodes, and a tail pointer that is right unless the list is empty. -/
structure Linked (next : α → Option α) (first last : Option α) (nodes : List α) : Prop where
  chain : IsList next first nodes
  tail : nodes ≠ [] → last = nodes.getLast?

namespace Linked

variable {first last : Option α}

theorem nil : Linked next none last [] := ⟨rfl, fun empty => absurd rfl empty⟩

theorem nodup (linked : Linked next first last nodes) : nodes.Nodup := isList_nodup linked.chain

theorem first_eq (linked : Linked next first last nodes) : first = nodes.head? :=
  isList_head linked.chain

theorem first_none_iff (linked : Linked next first last nodes) : first = none ↔ nodes = [] := by
  rw [linked.first_eq]
  exact List.head?_eq_none_iff

theorem congr (same : ∀ node ∈ nodes, next' node = next node)
    (linked : Linked next first last nodes) : Linked next' first last nodes :=
  ⟨seg_congr same linked.chain, linked.tail⟩

/-- A node becomes the only one of an empty list. -/
theorem single {node : α} (ends : next node = none) : Linked next (some node) (some node) [node] :=
  ⟨⟨rfl, ends⟩, fun _ => rfl⟩

/-- Appending after the tail node. -/
theorem pushBack [DecidableEq α] {node end' : α} (linked : Linked next first last nodes)
    (fresh : node ∉ nodes) (ends : next node = none) (atTail : last = some end')
    (some_nodes : nodes ≠ []) :
    Linked (Function.update next end' (some node)) first (some node) (nodes ++ [node]) := by
  have isLast : nodes.getLast? = some end' := (linked.tail some_nodes).symm.trans atTail
  obtain ⟨front, rfl⟩ := List.getLast?_eq_some_iff.mp isLast
  have nodup := linked.nodup
  have endFresh : end' ∉ front := by
    rw [List.nodup_append] at nodup
    intro member
    exact nodup.2.2 end' member end' (List.mem_singleton_self _) rfl
  have differs : node ≠ end' := by
    rintro rfl
    exact fresh (by simp)
  refine ⟨?_, fun _ => by simp⟩
  refine seg_append.mpr ⟨some node, seg_setLast linked.chain endFresh, rfl, ?_⟩
  rw [Function.update_of_ne differs, ends]
  rfl

/-- Prepending before the head node. -/
theorem pushFront {node : α} (linked : Linked next first last nodes)
    (points : next node = first) (some_nodes : nodes ≠ []) :
    Linked next (some node) last (node :: nodes) := by
  refine ⟨⟨rfl, points ▸ linked.chain⟩, fun _ => ?_⟩
  rw [linked.tail some_nodes]
  cases nodes with
  | nil => exact absurd rfl some_nodes
  | cons head rest => rfl

/-- Unlinking the head node. -/
theorem popFront {node : α} {rest : List α} (linked : Linked next first last (node :: rest)) :
    Linked next (next node) last rest := by
  refine ⟨linked.chain.2, fun some_nodes => ?_⟩
  rw [linked.tail (List.cons_ne_nil _ _)]
  cases rest with
  | nil => exact absurd rfl some_nodes
  | cons head rest => rfl

end Linked

end Aple.Lib
