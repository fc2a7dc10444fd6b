/-
**The notification list is a double-ended queue.**

* `NotifyList` — the representation invariant: the nodes on the list are exactly the allocated ones,
  the tail pointer is the last of them, and every allocation is either on the list or released.
* `appendNotify_spec`, `sendPriorNotify_spec`, `removeFirstNotify_spec`, `throwNotify_spec`,
  `freeNotify_spec` — each operation succeeds and acts on the messages as append, prepend, drop the
  head, filter and clear.
* `notifyAfter` — the double-ended queue that the list stands for, event by event.
* **`notify_list_refines_deque`** — in every state of every run.
-/

import Aple.Lib.Chain
import Aple.Message.Frame
import Aple.Message.PeekEffect

namespace Aple.Message

open Aple.Lib

/-! ### Cells -/

namespace QMsgHeap

variable {heap heap' : QMsgHeap} {addr : Addr} {cell : Option QMsg} {nodes : List Addr}

/-- The messages of a list of nodes. -/
def msgs (heap : QMsgHeap) (nodes : List Addr) : List Msg :=
  nodes.filterMap fun addr => (heap.cells addr).map QMsg.msg

@[simp] theorem msgs_nil (heap : QMsgHeap) : heap.msgs [] = [] := rfl

@[simp] theorem msgs_append (heap : QMsgHeap) (first second : List Addr) :
    heap.msgs (first ++ second) = heap.msgs first ++ heap.msgs second :=
  List.filterMap_append

theorem msgs_cons {node : QMsg} (read : heap.cells addr = some node) :
    heap.msgs (addr :: nodes) = node.msg :: heap.msgs nodes := by
  simp [msgs, read]

theorem next_eq {node : QMsg} (read : heap.cells addr = some node) :
    heap.next addr = node.next := by
  simp [next, read]

/-- Writing a cell writes one next pointer. -/
theorem next_write (written : heap'.cells = Function.update heap.cells addr cell) :
    heap'.next = Function.update heap.next addr (cell.bind QMsg.next) := by
  funext other
  unfold next
  rw [written]
  by_cases same : other = addr
  · rw [same, Function.update_self, Function.update_self]
  · rw [Function.update_of_ne same, Function.update_of_ne same]

/-- Writing a cell off the nodes leaves their messages alone. -/
theorem msgs_write (written : heap'.cells = Function.update heap.cells addr cell)
    (off : addr ∉ nodes) : heap'.msgs nodes = heap.msgs nodes := by
  refine List.filterMap_congr fun other member => ?_
  have differs : other ≠ addr := by
    rintro rfl
    exact off member
  rw [written, Function.update_of_ne differs]

/-- Writing a next pointer leaves every message alone. -/
theorem msgs_relink {node : QMsg} {target : Ptr} (read : heap.cells addr = some node)
    (written : heap'.cells = Function.update heap.cells addr (some { node with next := target })) :
    heap'.msgs nodes = heap.msgs nodes := by
  refine List.filterMap_congr fun other _ => ?_
  by_cases same : other = addr
  · rw [same, written, read, Function.update_self]
    rfl
  · rw [written, Function.update_of_ne same]

/-- The heap after a successful allocation. -/
def grown (heap : QMsgHeap) (addr : Addr) (node : QMsg) : QMsgHeap :=
  { heap with
    cells := Function.update heap.cells addr (some node)
    allocated := addr :: heap.allocated }

/-- The heap after a write to an allocated node. -/
def stored (heap : QMsgHeap) (addr : Addr) (node : QMsg) : QMsgHeap :=
  { heap with cells := Function.update heap.cells addr (some node) }

/-- The heap after a release. -/
def shrunk (heap : QMsgHeap) (addr : Addr) : QMsgHeap :=
  { heap with
    cells := Function.update heap.cells addr none
    freed := addr :: heap.freed }

theorem alloc_eq {node : QMsg} (fresh : heap.cells addr = none) :
    heap.alloc addr node = some (heap.grown addr node) := by
  simp only [alloc, fresh]
  rfl

theorem setNext_eq {node : QMsg} (read : heap.cells addr = some node) (target : Ptr) :
    heap.setNext addr target = some (heap.stored addr { node with next := target }) := by
  simp only [setNext, read]
  rfl

theorem free_eq {node : QMsg} (read : heap.cells addr = some node) :
    heap.free addr = some (heap.shrunk addr) := by
  simp only [free, read]
  rfl

@[simp] theorem cells_grown (heap : QMsgHeap) (addr : Addr) (node : QMsg) :
    (heap.grown addr node).cells addr = some node :=
  Function.update_self _ _ _

theorem cells_grown_of_ne {other : Addr} (differs : other ≠ addr) (node : QMsg) :
    (heap.grown addr node).cells other = heap.cells other :=
  Function.update_of_ne differs _ _

end QMsgHeap

/-! ### Ownership -/

/-- The allocated nodes are exactly the listed ones, and the log accounts for every allocation. -/
structure Owned (heap : QMsgHeap) (nodes : List Addr) : Prop where
  live : ∀ addr, heap.cells addr ≠ none ↔ addr ∈ nodes
  account : ∀ addr, heap.allocated.count addr = heap.freed.count addr + nodes.count addr

namespace Owned

variable {heap heap' : QMsgHeap} {nodes nodes' : List Addr} {addr : Addr}

theorem read (owned : Owned heap nodes) (member : addr ∈ nodes) :
    ∃ node, heap.cells addr = some node :=
  Option.ne_none_iff_exists'.mp ((owned.live addr).mpr member)

theorem fresh_iff (owned : Owned heap nodes) : heap.cells addr = none ↔ addr ∉ nodes := by
  rw [← owned.live addr, not_not]

theorem perm (owned : Owned heap nodes) (same : nodes.Perm nodes') : Owned heap nodes' :=
  ⟨fun addr => (owned.live addr).trans same.mem_iff,
    fun addr => (owned.account addr).trans (by rw [same.count_eq addr])⟩

theorem grown (owned : Owned heap nodes) (addr : Addr) (node : QMsg) :
    Owned (heap.grown addr node) (addr :: nodes) := by
  refine ⟨fun other => ?_, fun other => ?_⟩
  · by_cases same : other = addr
    · simp [same]
    · show Function.update heap.cells addr (some node) other ≠ none ↔ _
      rw [Function.update_of_ne same, owned.live other, List.mem_cons]
      exact ⟨Or.inr, fun member => member.resolve_left same⟩
  · show (addr :: heap.allocated).count other = _ + (addr :: nodes).count other
    rw [List.count_cons, List.count_cons, owned.account other]
    exact Nat.add_assoc _ _ _

theorem stored (owned : Owned heap nodes) (member : addr ∈ nodes) (node : QMsg) :
    Owned (heap.stored addr node) nodes := by
  refine ⟨fun other => ?_, owned.account⟩
  by_cases same : other = addr
  · simp [QMsgHeap.stored, same, member]
  · show Function.update heap.cells addr (some node) other ≠ none ↔ _
    rw [Function.update_of_ne same, owned.live other]

theorem shrunk (owned : Owned heap (addr :: nodes)) (off : addr ∉ nodes) :
    Owned (heap.shrunk addr) nodes := by
  refine ⟨fun other => ?_, fun other => ?_⟩
  · by_cases same : other = addr
    · simp [QMsgHeap.shrunk, same, off]
    · show Function.update heap.cells addr none other ≠ none ↔ _
      rw [Function.update_of_ne same, owned.live other, List.mem_cons]
      exact ⟨fun member => member.resolve_left same, Or.inr⟩
  · show heap.allocated.count other = (addr :: heap.freed).count other + _
    have before := owned.account other
    rw [List.count_cons] at before ⊢
    omega

end Owned

/-! ### The representation invariant -/

/-- The list from `first` is `nodes`, `last` is its last node, and the list owns the heap. -/
structure NotifyList (heap : QMsgHeap) (first last : Ptr) (nodes : List Addr) : Prop where
  chain : IsList heap.next first nodes
  tail : last = nodes.getLast?
  owned : Owned heap nodes

/-- The notification list of a world holds these messages. -/
def HoldsNotes (w : World) (msgs : List Msg) : Prop :=
  ∃ nodes, NotifyList w.heap w.queue.pFirstNotifyMsg w.queue.pLastNotifyMsg nodes ∧
    w.heap.msgs nodes = msgs

namespace NotifyList

variable {heap : QMsgHeap} {first last : Ptr} {nodes : List Addr}

theorem nodup (list : NotifyList heap first last nodes) : nodes.Nodup := isList_nodup list.chain

theorem first_eq (list : NotifyList heap first last nodes) : first = nodes.head? :=
  isList_head list.chain

/-- The head pointer is null exactly when the tail pointer is. -/
theorem null_iff (list : NotifyList heap first last nodes) : first = none ↔ last = none := by
  rw [list.first_eq, list.tail, List.head?_eq_none_iff, List.getLast?_eq_none_iff]

theorem linked (list : NotifyList heap first last nodes) : Linked heap.next first last nodes :=
  ⟨list.chain, fun _ => list.tail⟩

theorem msgs_length (list : NotifyList heap first last nodes) :
    (heap.msgs nodes).length = nodes.length := by
  have all : ∀ addr ∈ nodes, ∃ node, heap.cells addr = some node := fun _ => list.owned.read
  clear list
  induction nodes with
  | nil => rfl
  | cons addr rest ih =>
    obtain ⟨node, read⟩ := all addr List.mem_cons_self
    rw [QMsgHeap.msgs_cons read, List.length_cons, List.length_cons,
      ih fun other member => all other (List.mem_cons_of_mem _ member)]

end NotifyList

/-- The messages are determined by the world. -/
theorem HoldsNotes.unique {w : World} {msgs msgs' : List Msg} (holds : HoldsNotes w msgs)
    (holds' : HoldsNotes w msgs') : msgs = msgs' := by
  obtain ⟨nodes, list, rfl⟩ := holds
  obtain ⟨nodes', list', rfl⟩ := holds'
  rw [isList_unique list.chain list'.chain]

/-! ### Appending and prepending -/

/-- The first node of an empty list. -/
theorem NotifyList.single {heap : QMsgHeap} (owned : Owned heap []) (addr : Addr) (msg : Msg) :
    NotifyList (heap.grown addr ⟨msg, none⟩) (some addr) (some addr) [addr] :=
  ⟨⟨rfl, QMsgHeap.next_eq (heap.cells_grown addr _)⟩, rfl, owned.grown addr _⟩

/-- **Appending.** -/
theorem appendNotify_spec {w : World} {msgs : List Msg} {addr : Addr} (msg : Msg)
    (holds : HoldsNotes w msgs) (fresh : w.heap.cells addr = none) :
    ∃ w', appendNotify addr msg w = some w' ∧ HoldsNotes w' (msgs ++ [msg]) := by
  obtain ⟨nodes, list, rfl⟩ := holds
  unfold appendNotify
  rw [QMsgHeap.alloc_eq fresh]
  have atNew := w.heap.cells_grown addr ⟨msg, none⟩
  by_cases empty : w.queue.pFirstNotifyMsg = none
  · simp only [if_pos empty]
    have none_listed : nodes = [] := list.linked.first_none_iff.mp empty
    subst none_listed
    exact ⟨_, rfl, [addr], .single list.owned addr msg, QMsgHeap.msgs_cons atNew⟩
  · simp only [if_neg empty]
    have some_nodes : nodes ≠ [] := fun none_listed =>
      empty (list.linked.first_none_iff.mpr none_listed)
    obtain ⟨last, isLast⟩ : ∃ last, nodes.getLast? = some last :=
      ⟨_, List.getLast?_eq_some_getLast some_nodes⟩
    have atTail : w.queue.pLastNotifyMsg = some last := list.tail.trans isLast
    have lastMember : last ∈ nodes := List.mem_of_getLast? isLast
    have off : addr ∉ nodes := list.owned.fresh_iff.mp fresh
    have apart : ∀ other ∈ nodes, other ≠ addr := by
      rintro other member rfl
      exact off member
    obtain ⟨node, read⟩ := list.owned.read lastMember
    have readAfter := (QMsgHeap.cells_grown_of_ne (apart last lastMember) ⟨msg, none⟩).trans read
    simp only [atTail]
    rw [QMsgHeap.setNext_eq readAfter]
    refine ⟨_, rfl, nodes ++ [addr], ⟨?_, ?_, ?_⟩, ?_⟩
    · -- two writes: the new node, then the pointer of the old last one
      rw [QMsgHeap.next_write rfl]
      refine (Linked.pushBack (list.linked.congr fun other member => ?_) off ?_ atTail
        some_nodes).chain
      · rw [QMsgHeap.next_write rfl]
        exact Function.update_of_ne (apart other member) _ _
      · exact QMsgHeap.next_eq atNew
    · exact (List.getLast?_concat).symm
    · have owned := (list.owned.grown addr ⟨msg, none⟩).stored
        (List.mem_cons_of_mem _ lastMember) { node with next := some addr }
      exact owned.perm (List.perm_append_singleton addr nodes).symm
    · rw [QMsgHeap.msgs_relink readAfter rfl, QMsgHeap.msgs_append,
        QMsgHeap.msgs_write rfl off, QMsgHeap.msgs_cons atNew]
      rfl

/-- **Prepending.** -/
theorem sendPriorNotify_spec {w : World} {msgs : List Msg} {addr : Addr} (tick : Dword) (pad : Ptr)
    (hWnd : Hwnd) (nMsg : MsgId) (wParam : WParam) (lParam : LParam)
    (holds : HoldsNotes w msgs) (fresh : w.heap.cells addr = none) :
    ∃ w', sendPriorNotifyMessage addr tick pad hWnd nMsg wParam lParam w = some w' ∧
      HoldsNotes w' (⟨hWnd, nMsg, wParam, lParam, tick, pad⟩ :: msgs) := by
  obtain ⟨nodes, list, rfl⟩ := holds
  unfold sendPriorNotifyMessage
  rw [QMsgHeap.alloc_eq fresh]
  have atNew := w.heap.cells_grown addr ⟨⟨hWnd, nMsg, wParam, lParam, tick, pad⟩, none⟩
  by_cases empty : w.queue.pFirstNotifyMsg = none
  · simp only [if_pos empty]
    have none_listed : nodes = [] := list.linked.first_none_iff.mp empty
    subst none_listed
    exact ⟨_, rfl, [addr], .single list.owned addr _, QMsgHeap.msgs_cons atNew⟩
  · simp only [if_neg empty]
    have some_nodes : nodes ≠ [] := fun none_listed =>
      empty (list.linked.first_none_iff.mpr none_listed)
    have off : addr ∉ nodes := list.owned.fresh_iff.mp fresh
    rw [QMsgHeap.setNext_eq atNew]
    refine ⟨_, rfl, addr :: nodes, ⟨?_, ?_, ?_⟩, ?_⟩
    · rw [QMsgHeap.next_write rfl]
      refine (Linked.pushFront (list.linked.congr fun other member => ?_) ?_ some_nodes).chain
      · have differs : other ≠ addr := by
          rintro rfl
          exact off member
        rw [Function.update_of_ne differs, QMsgHeap.next_write rfl, Function.update_of_ne differs]
      · exact Function.update_self _ _ _
    · rw [List.getLast?_cons_of_ne_nil some_nodes]
      exact list.tail
    · exact (list.owned.grown addr _).stored List.mem_cons_self _
    · rw [QMsgHeap.msgs_relink atNew rfl, QMsgHeap.msgs_cons atNew, QMsgHeap.msgs_write rfl off]

theorem appendNotify_of_returns {w w' : World} {msgs : List Msg} {addr : Addr} {msg : Msg}
    (holds : HoldsNotes w msgs) (returns : appendNotify addr msg w = some w') :
    HoldsNotes w' (msgs ++ [msg]) := by
  cases cell : w.heap.cells addr with
  | none =>
    obtain ⟨w'', returns', holds'⟩ := appendNotify_spec msg holds cell
    obtain rfl : w' = w'' := Option.some.inj (returns.symm.trans returns')
    exact holds'
  | some node => simp [appendNotify, QMsgHeap.alloc, cell] at returns

theorem sendPriorNotify_of_returns {w w' : World} {msgs : List Msg} {addr : Addr} {tick : Dword}
    {pad : Ptr} {hWnd : Hwnd} {nMsg : MsgId} {wParam : WParam} {lParam : LParam}
    (holds : HoldsNotes w msgs)
    (returns : sendPriorNotifyMessage addr tick pad hWnd nMsg wParam lParam w = some w') :
    HoldsNotes w' (⟨hWnd, nMsg, wParam, lParam, tick, pad⟩ :: msgs) := by
  cases cell : w.heap.cells addr with
  | none =>
    obtain ⟨w'', returns', holds'⟩ :=
      sendPriorNotify_spec tick pad hWnd nMsg wParam lParam holds cell
    obtain rfl : w' = w'' := Option.some.inj (returns.symm.trans returns')
    exact holds'
  | some node => simp [sendPriorNotifyMessage, QMsgHeap.alloc, cell] at returns

/-! ### Deleting -/

/-- In a list without repetitions a node is the last one exactly when nothing follows it. -/
theorem getLast?_eq_mid {before after : List Addr} {node : Addr}
    (nodup : (before ++ node :: after).Nodup) :
    (before ++ node :: after).getLast? = some node ↔ after = [] := by
  constructor
  · intro isLast
    by_contra some_after
    have skip : (before ++ node :: after).getLast? = after.getLast? := by
      rw [List.getLast?_append_of_ne_nil _ (List.cons_ne_nil _ _),
        List.getLast?_cons_of_ne_nil some_after]
    have member := List.mem_of_getLast? (skip.symm.trans isLast)
    rw [List.nodup_append] at nodup
    exact (List.nodup_cons.mp nodup.2.1).1 member
  · rintro rfl
    exact List.getLast?_concat

/-- The head node of a list that owns the heap, with what is behind it. -/
theorem NotifyList.uncons {heap : QMsgHeap} {first last : Ptr} {head : Addr} {rest : List Addr}
    (list : NotifyList heap first last (head :: rest)) :
    ∃ node, heap.cells head = some node ∧ IsList heap.next node.next rest ∧
      node.next = rest.head? := by
  obtain ⟨node, read⟩ := list.owned.read List.mem_cons_self
  have walk := list.chain.2
  rw [QMsgHeap.next_eq read] at walk
  exact ⟨node, read, walk, isList_head walk⟩

/-- **Dropping the head.** -/
theorem removeFirstNotify_spec {w : World} {head : Addr} {rest : List Addr} {node : QMsg}
    (list : NotifyList w.heap w.queue.pFirstNotifyMsg w.queue.pLastNotifyMsg (head :: rest))
    (read : w.heap.cells head = some node) :
    ∃ w', removeFirstNotify head node w = some w' ∧ HoldsNotes w' (w.heap.msgs rest) := by
  obtain ⟨node', read', walk, nextEq⟩ := list.uncons
  obtain rfl : node = node' := Option.some.inj (read.symm.trans read')
  have off : head ∉ rest := (List.nodup_cons.mp list.nodup).1
  unfold removeFirstNotify
  rw [QMsgHeap.free_eq read]
  refine ⟨_, rfl, rest, ⟨?_, ?_, list.owned.shrunk off⟩, QMsgHeap.msgs_write rfl off⟩
  · rw [QMsgHeap.next_write rfl]
    exact seg_update walk off
  · show (if node.next = none then none else w.queue.pLastNotifyMsg) = rest.getLast?
    cases rest with
    | nil => exact if_pos nextEq
    | cons next others =>
      rw [if_neg (by simp [nextEq]), list.tail, List.getLast?_cons_cons]

/-- **Unlinking a node anywhere**, with the nodes before it kept. -/
theorem unlinkNotify_spec {v : NotifyVars} {kept back : List Addr} {cur : Addr} {node : QMsg}
    (list : NotifyList v.heap v.pFirst v.pLast (kept ++ cur :: back))
    (prev : v.pPrev = kept.getLast?) (read : v.heap.cells cur = some node) :
    ∃ v', unlinkNotify cur node v = some v' ∧
      NotifyList v'.heap v'.pFirst v'.pLast (kept ++ back) ∧
      v'.pQMsg = back.head? ∧ v'.pPrev = kept.getLast? ∧ v'.nCountN = v.nCountN + 1 ∧
      v'.heap.msgs kept = v.heap.msgs kept ∧ v'.heap.msgs back = v.heap.msgs back := by
  have nodup := list.nodup
  have isLast := getLast?_eq_mid nodup
  obtain ⟨middle, -, walk⟩ := seg_append.mp list.chain
  have nextEq : v.heap.next cur = node.next := QMsgHeap.next_eq read
  have nextHead : node.next = back.head? := nextEq ▸ isList_head walk.2
  have owned := list.owned.perm List.perm_middle
  have off : cur ∉ kept ++ back := (List.nodup_cons.mp (List.nodup_middle.mp nodup)).1
  rw [List.mem_append, not_or] at off
  rcases List.eq_nil_or_concat kept with rfl | ⟨front, before, rfl⟩
  · -- the node is the first one
    unfold unlinkNotify
    simp only [prev, List.getLast?_nil]
    rw [QMsgHeap.free_eq read]
    refine ⟨_, rfl, ⟨?_, ?_, owned.shrunk off.2⟩, nextHead, rfl, rfl, rfl,
      QMsgHeap.msgs_write rfl off.2⟩
    · rw [QMsgHeap.next_write rfl]
      exact seg_update (nextEq ▸ walk.2) off.2
    · show (if v.pLast = some cur then node.next else v.pLast) = back.getLast?
      rw [list.tail]
      by_cases none_after : back = []
      · rw [if_pos (isLast.mpr none_after), nextHead, none_after]
        rfl
      · rw [if_neg (isLast.not.mpr none_after)]
        exact List.getLast?_cons_of_ne_nil none_after
  · -- the node is behind another one
    rw [List.concat_eq_append] at *
    have prevMember : before ∈ front ++ [before] := by simp
    obtain ⟨cell, prevRead⟩ := list.owned.read (List.mem_append_left (cur :: back) prevMember)
    have differs : cur ≠ before := by
      rintro rfl
      exact off.1 prevMember
    have readAfter : (v.heap.stored before { cell with next := node.next }).cells cur =
        some node := (Function.update_of_ne differs _ _).trans read
    unfold unlinkNotify
    simp only [prev, List.getLast?_concat]
    rw [QMsgHeap.setNext_eq prevRead]
    simp only [Option.map_some]
    rw [QMsgHeap.free_eq readAfter]
    refine ⟨_, rfl, ⟨?_, ?_, ?_⟩, nextHead, rfl, rfl, ?_, ?_⟩
    · rw [QMsgHeap.next_write rfl, QMsgHeap.next_write rfl]
      have chain := list.chain
      rw [List.append_assoc, List.singleton_append] at chain nodup
      have unlinked := seg_unlink chain nodup
      rw [nextEq] at unlinked
      rw [List.append_assoc, List.singleton_append]
      refine seg_update unlinked ?_
      intro member
      rw [List.mem_append, List.mem_cons] at member
      rcases member with inFront | same | inBack
      · exact off.1 (List.mem_append_left _ inFront)
      · exact differs same
      · exact off.2 inBack
    · show (if v.pLast = some cur then some before else v.pLast) = _
      rw [list.tail]
      by_cases none_after : back = []
      · rw [if_pos (isLast.mpr none_after), none_after, List.append_nil, List.getLast?_concat]
      · rw [if_neg (isLast.not.mpr none_after), List.getLast?_append_of_ne_nil _ none_after,
          List.getLast?_append_of_ne_nil _ (List.cons_ne_nil _ _),
          List.getLast?_cons_of_ne_nil none_after]
    · have member : before ∈ cur :: (front ++ [before] ++ back) := by simp
      refine (owned.stored member _).shrunk ?_
      rw [List.mem_append, not_or]
      exact off
    · rw [QMsgHeap.msgs_write rfl off.1, QMsgHeap.msgs_relink prevRead rfl]
    · rw [QMsgHeap.msgs_write rfl off.2, QMsgHeap.msgs_relink prevRead rfl]

/-! ### Filtering and clearing -/

/-- What the loop of `__mg_throw_away_messages` keeps: `kept` was looked at, `todo` was not. -/
def ThrowNotifyInv (thrown : Hwnd → Bool) (goal : List Msg) (total : ℕ) (bound : ℕ)
    (v : NotifyVars) : Prop :=
  ∃ kept todo, NotifyList v.heap v.pFirst v.pLast (kept ++ todo) ∧
    v.pQMsg = todo.head? ∧ v.pPrev = kept.getLast? ∧ todo.length = bound ∧
    v.heap.msgs kept ++ (v.heap.msgs todo).filter (fun msg => !thrown msg.hwnd) = goal ∧
    v.nCountN + ((v.heap.msgs todo).filter fun msg => thrown msg.hwnd).length = total

theorem throwNotifyTurn_inv {thrown : Hwnd → Bool} {goal : List Msg} {total bound : ℕ}
    {v : NotifyVars} (inv : ThrowNotifyInv thrown goal total bound v) :
    ∃ out, throwNotifyTurn thrown v = some out ∧
      out.elim (fun v' => ∃ bound' < bound, ThrowNotifyInv thrown goal total bound' v')
        (fun v' => ∃ nodes, NotifyList v'.heap v'.pFirst v'.pLast nodes ∧
          v'.heap.msgs nodes = goal ∧ v'.nCountN = total) := by
  obtain ⟨kept, todo, list, atCur, atPrev, rfl, contents, count⟩ := inv
  unfold throwNotifyTurn
  cases todo with
  | nil =>
    rw [atCur]
    rw [List.append_nil] at list
    simp only [QMsgHeap.msgs_nil, List.filter_nil, List.append_nil, List.length_nil,
      Nat.add_zero] at contents count
    exact ⟨_, rfl, kept, list, contents, count⟩
  | cons cur back =>
    obtain ⟨node, read⟩ := list.owned.read (List.mem_append_right kept List.mem_cons_self)
    rw [QMsgHeap.msgs_cons read] at contents count
    rw [atCur]
    simp only [List.head?_cons, read]
    by_cases thrownAway : thrown node.msg.hwnd = true
    · rw [if_pos thrownAway]
      obtain ⟨v', unlinks, list', atCur', atPrev', counted, sameKept, sameBack⟩ :=
        unlinkNotify_spec list atPrev read
      rw [unlinks]
      refine ⟨_, rfl, back.length, Nat.lt_succ_self _, kept, back, list', atCur', atPrev', rfl, ?_, ?_⟩
      · rw [sameKept, sameBack, ← contents, List.filter_cons_of_neg (by simp [thrownAway])]
      · rw [sameBack, counted, ← count, List.filter_cons, if_pos thrownAway, List.length_cons]
        omega
    · rw [if_neg thrownAway]
      obtain ⟨middle, -, walk⟩ := seg_append.mp list.chain
      have nextEq : v.heap.next cur = node.next := QMsgHeap.next_eq read
      refine ⟨_, rfl, back.length, Nat.lt_succ_self _, kept ++ [cur], back, ?_, ?_, ?_, rfl, ?_, ?_⟩
      · rw [List.append_assoc, List.singleton_append]
        exact list
      · exact nextEq ▸ isList_head walk.2
      · exact List.getLast?_concat.symm
      · rw [QMsgHeap.msgs_append, QMsgHeap.msgs_cons read, ← contents,
          List.filter_cons_of_pos (by simpa using thrownAway), List.append_assoc]
        rfl
      · rw [← count, List.filter_cons, if_neg thrownAway]

/-- **Filtering.** -/
theorem throwNotify_spec {w : World} {msgs : List Msg} (thrown : Hwnd → Bool)
    (holds : HoldsNotes w msgs) :
    (∀ fuel, msgs.length < fuel → ∃ r, throwNotify fuel thrown w = some r) ∧
      ∀ fuel count w', throwNotify fuel thrown w = some (count, w') →
        HoldsNotes w' (msgs.filter fun msg => !thrown msg.hwnd) ∧
          count = (msgs.filter fun msg => thrown msg.hwnd).length := by
  obtain ⟨nodes, list, rfl⟩ := holds
  have inv : ThrowNotifyInv thrown ((w.heap.msgs nodes).filter fun msg => !thrown msg.hwnd)
      ((w.heap.msgs nodes).filter fun msg => thrown msg.hwnd).length nodes.length
      ⟨w.queue.pFirstNotifyMsg, none, w.queue.pFirstNotifyMsg, w.queue.pLastNotifyMsg, w.heap, 0⟩ :=
    ⟨[], nodes, list, list.first_eq, rfl, rfl, rfl, Nat.zero_add _⟩
  have spec := loop_total _ _ (fun _ _ => throwNotifyTurn_inv) inv
  constructor
  · intro fuel enough
    rw [list.msgs_length] at enough
    obtain ⟨v, looped⟩ := spec.returns fuel enough
    simp [throwNotify, looped]
  · intro fuel count w' returns
    unfold throwNotify at returns
    split at returns
    · cases returns
    rename_i v looped
    obtain ⟨rfl, rfl⟩ := Prod.mk.inj (Option.some.inj returns)
    obtain ⟨kept, list', contents, counted⟩ := spec.post fuel v looped
    exact ⟨⟨kept, list', contents⟩, counted⟩

/-- **Clearing**: the release loop frees every node of the list. -/
theorem freeNotify_spec {heap : QMsgHeap} {head : Ptr} {nodes : List Addr}
    (chain : IsList heap.next head nodes) (owned : Owned heap nodes) :
    LoopSpec freeNotifyTurn (head, heap) nodes.length
      (fun heap' => Owned heap' [] ∧ heap'.allocated = heap.allocated) := by
  refine loop_total (fun bound (s : Ptr × QMsgHeap) =>
    ∃ nodes, IsList s.2.next s.1 nodes ∧ Owned s.2 nodes ∧ s.2.allocated = heap.allocated ∧
      nodes.length = bound) _ ?_ ⟨nodes, chain, owned, rfl, rfl⟩
  rintro bound ⟨head, heap⟩ ⟨nodes, chain, owned, log, rfl⟩
  cases nodes with
  | nil =>
    obtain rfl : head = none := chain
    exact ⟨_, rfl, owned, log⟩
  | cons addr rest =>
    obtain ⟨rfl, walk⟩ : head = some addr ∧ IsList heap.next (heap.next addr) rest := chain
    obtain ⟨node, read⟩ : ∃ node, heap.cells addr = some node := owned.read List.mem_cons_self
    have off : addr ∉ rest := (List.nodup_cons.mp (isList_nodup (p := some addr) ⟨rfl, walk⟩)).1
    rw [QMsgHeap.next_eq read] at walk
    unfold freeNotifyTurn
    simp only [read, QMsgHeap.free_eq read]
    refine ⟨_, rfl, rest.length, Nat.lt_succ_self _, rest, ?_, owned.shrunk off, log, rfl⟩
    show IsList (heap.shrunk addr).next node.next rest
    rw [QMsgHeap.next_write rfl]
    exact seg_update walk off

/-! ### The deque event by event -/

/-- The messages are those of the heap and the two list pointers. -/
theorem HoldsNotes.congr {w w' : World} {msgs : List Msg} (holds : HoldsNotes w msgs)
    (heap : w'.heap = w.heap)
    (first : w'.queue.pFirstNotifyMsg = w.queue.pFirstNotifyMsg)
    (last : w'.queue.pLastNotifyMsg = w.queue.pLastNotifyMsg) : HoldsNotes w' msgs := by
  unfold HoldsNotes
  rw [heap, first, last]
  exact holds

theorem Tidied.holdsNotes {w w' : World} {msgs : List Msg} (tidied : Tidied w w')
    (holds : HoldsNotes w msgs) : HoldsNotes w' msgs := by
  obtain ⟨_, _, _, eq⟩ := tidied.queue
  exact holds.congr tidied.heap (by rw [eq]) (by rw [eq])

/-- The double-ended queue after an event. -/
def notifyAfter (s : State) (msgs : List Msg) : Event → List Msg
  | .sendNotify _ tick pad hWnd nMsg wParam lParam =>
    msgs ++ [⟨hWnd, nMsg, wParam, lParam, tick, pad⟩]
  | .notify _ pad hWnd id code dwAddData =>
    msgs ++ [⟨hWnd, msgNotification, id, code, dwAddData, pad⟩]
  | .sendPriorNotify _ tick pad hWnd nMsg wParam lParam =>
    ⟨hWnd, nMsg, wParam, lParam, tick, pad⟩ :: msgs
  | .peek env args pMsg =>
    if (peekPass env args ⟨s.world, pMsg⟩).1 = .got .notify ∧ args.remove = true then msgs.tail
    else msgs
  | .throwAway _ _ win hWnd => msgs.filter fun msg => !addressedTo win hWnd msg.hwnd
  | .empty _ => []
  | _ => msgs

/-- The head of the list is what a pass that ends in the notifications returns. -/
theorem peekPass_notify {env : PeekEnv} {args : PeekArgs} {s after : PeekState} {msgs : List Msg}
    (holds : HoldsNotes s.world msgs)
    (pass : peekPass env args s = (.got .notify, after)) :
    ∃ msg rest, msgs = msg :: rest ∧ after.pMsg = { msg with pSyncMsg := none } ∧
      HoldsNotes after.world (if args.remove then rest else msgs) := by
  have effect := peekPass_effect pass
  cases effect with
  | notify head node tidy removed _ _ _ _ atHead read _ before unlinks after' returned =>
    obtain ⟨nodes, list, rfl⟩ := holds
    cases nodes with
    | nil =>
      have null : s.world.queue.pFirstNotifyMsg = none := list.first_eq
      rw [null] at atHead
      cases atHead
    | cons first rest =>
      obtain rfl : head = first := Option.some.inj (atHead.symm.trans list.first_eq)
      have tidied : NotifyList tidy.heap tidy.queue.pFirstNotifyMsg tidy.queue.pLastNotifyMsg
          (head :: rest) := by
        obtain ⟨_, _, _, eq⟩ := before.queue
        rw [before.heap, eq]
        exact list
      refine ⟨node.msg, s.world.heap.msgs rest, QMsgHeap.msgs_cons read, returned, ?_⟩
      by_cases remove : args.remove = true
      · rw [if_pos remove] at unlinks ⊢
        obtain ⟨removed', unlinks', holds'⟩ := removeFirstNotify_spec tidied (before.heap ▸ read)
        obtain rfl : removed = removed' := Option.some.inj (unlinks.symm.trans unlinks')
        rw [before.heap] at holds'
        exact after'.holdsNotes holds'
      · rw [if_neg remove] at unlinks ⊢
        subst unlinks
        exact after'.holdsNotes (before.holdsNotes ⟨head :: rest, list, rfl⟩)
  | timer _ slot timer _ _ _ _ _ _ _ _ _ outcome =>
    rcases outcome with outcome | ⟨outcome, -⟩ <;> cases outcome

/-- A pass that does not end in the notifications leaves the list alone. -/
theorem peekPass_other {env : PeekEnv} {args : PeekArgs} {s after : PeekState} {msgs : List Msg}
    {outcome : Outcome} (holds : HoldsNotes s.world msgs)
    (pass : peekPass env args s = (outcome, after)) (other : outcome ≠ .got .notify)
    (good : outcome ≠ .fault) : HoldsNotes after.world msgs := by
  have effect := peekPass_effect pass
  cases effect with
  | quit _ jumps =>
    obtain ⟨_, _, eq, -, -⟩ := peekQuit_frame jumps
    exact holds.congr (by rw [eq]) (by rw [eq]) (by rw [eq])
  | sync first _ _ _ _ _ tidied _ =>
    refine tidied.holdsNotes ?_
    split
    · exact holds.congr rfl rfl rfl
    · exact holds
  | notify => exact absurd rfl other
  | posted tidy _ _ _ _ _ _ _ before after' _ =>
    refine after'.holdsNotes ?_
    split
    · exact (before.holdsNotes holds).congr rfl rfl rfl
    · exact before.holdsNotes holds
  | paint _ _ _ _ _ tidied _ => exact tidied.holdsNotes holds
  | deskTimer tidy _ _ _ _ _ _ _ before after' _ _ =>
    refine after'.holdsNotes ?_
    split
    · exact (before.holdsNotes holds).congr rfl rfl rfl
    · exact before.holdsNotes holds
  | timer _ slot timer tidy _ _ _ _ _ _ before after' _ =>
    exact after'.holdsNotes ((before.holdsNotes holds).congr rfl rfl rfl)
  | nothing _ _ _ _ _ tidied => exact tidied.holdsNotes holds
  | fault => exact absurd rfl good

theorem throwAway_notify {fuel defNrTimers count : ℕ} {win : Windows} {hWnd : Hwnd} {w w' : World}
    {msgs : List Msg} (holds : HoldsNotes w msgs) (real : hWnd ≠ hwndNull)
    (returns : mgThrowAwayMessages fuel defNrTimers win hWnd w = some (count, w')) :
    HoldsNotes w' (msgs.filter fun msg => !addressedTo win hWnd msg.hwnd) := by
  obtain ⟨_, notified, _, synced, _, posted, _, first, second, third, -, rfl⟩ :=
    mgThrowAwayMessages_inv returns
  obtain ⟨filtered, -⟩ := (throwNotify_spec _ holds).2 _ _ _ first
  obtain ⟨_, _, -, rfl⟩ := cancelSync_frame second
  obtain ⟨_, _, -, rfl⟩ := throwPosted_frame third
  rw [isThrown_eq_addressedTo real] at filtered
  exact filtered.congr rfl rfl rfl

theorem empty_notify {fuel : ℕ} {w w' : World} {msgs : List Msg} (holds : HoldsNotes w msgs)
    (returns : emptyMessageQueue fuel w = some w') : HoldsNotes w' [] := by
  obtain ⟨_, synced, heap, first, second, rfl⟩ := emptyMessageQueue_inv returns
  obtain ⟨_, _, -, rfl⟩ := cancelSync_frame first
  obtain ⟨nodes, list, -⟩ := holds
  obtain ⟨owned, -⟩ := (freeNotify_spec list.chain list.owned).post _ _ second
  exact ⟨[], ⟨rfl, rfl, owned⟩, rfl⟩

/-- **One event.** -/
theorem notify_step {s after : State} {event : Event} {msgs : List Msg}
    (holds : HoldsNotes s.world msgs) (runs : exec s event = some after) :
    HoldsNotes after.world (notifyAfter s msgs event) := by
  cases event with
  | queueMessage fuel tick msg =>
    obtain ⟨r, returns, rfl⟩ := Option.map_eq_some_iff.mp runs
    cases kernelQueueMessage_frame returns <;> exact holds.congr rfl rfl rfl
  | post fuel tick pad hWnd nMsg wParam lParam =>
    obtain ⟨r, returns, rfl⟩ := Option.map_eq_some_iff.mp runs
    cases postMessage_frame returns <;> exact holds.congr rfl rfl rfl
  | postQuit =>
    rw [← Option.some.inj runs]
    show HoldsNotes { s.world with queue := postQuitMessage s.world.queue } msgs
    unfold postQuitMessage
    split <;> exact holds.congr rfl rfl rfl
  | sendNotify addr tick pad hWnd nMsg wParam lParam =>
    obtain ⟨w, returns, rfl⟩ := Option.map_eq_some_iff.mp runs
    exact appendNotify_of_returns holds returns
  | notify addr pad hWnd id code dwAddData =>
    obtain ⟨w, returns, rfl⟩ := Option.map_eq_some_iff.mp runs
    exact appendNotify_of_returns holds returns
  | sendPriorNotify addr tick pad hWnd nMsg wParam lParam =>
    obtain ⟨w, returns, rfl⟩ := Option.map_eq_some_iff.mp runs
    exact sendPriorNotify_of_returns holds returns
  | sendSync addr win time pad hWnd msg wParam lParam =>
    obtain ⟨-, -, w, returns, rfl⟩ := execSendSync_inv runs
    obtain ⟨_, _, -, rfl⟩ := linkSync_frame returns
    exact holds.congr rfl rfl rfl
  | drain =>
    cases execDrain_effect runs <;> exact holds.congr rfl rfl rfl
  | peek env args pMsg =>
    obtain ⟨outcome, afterPass, pass, -, good, rfl⟩ := execPeek_inv runs
    rw [State.world_hold]
    show HoldsNotes afterPass.world _
    simp only [notifyAfter, pass]
    by_cases notified : outcome = .got .notify
    · subst notified
      obtain ⟨msg, rest, rfl, -, holds'⟩ := peekPass_notify holds pass
      by_cases remove : args.remove = true
      · rw [if_pos remove] at holds'
        rw [if_pos ⟨rfl, remove⟩]
        exact holds'
      · rw [if_neg remove] at holds'
        rw [if_neg fun both => remove both.2]
        exact holds'
    · rw [if_neg fun both => notified both.1]
      exact peekPass_other holds pass notified good
  | peekPost nMsgFilterMin nMsgFilterMax uRemoveMsg =>
    rw [← Option.some.inj runs]
    show HoldsNotes { s.world with queue := _ } msgs
    rcases peekPostMessage_frame nMsgFilterMin nMsgFilterMax uRemoveMsg s.world.queue with
      eq | ⟨eq, -⟩
    · rw [eq]
      exact holds
    · rw [eq]
      exact holds.congr rfl rfl rfl
  | dispatch index procs result =>
    obtain ⟨_, _, _, rfl⟩ := execDispatch_inv runs
    exact holds.congr rfl rfl rfl
  | throwAway fuel defNrTimers win hWnd =>
    obtain ⟨real, count, w, returns, rfl⟩ := execThrowAway_inv runs
    exact throwAway_notify holds real returns
  | empty fuel =>
    obtain ⟨w, returns, rfl⟩ := Option.map_eq_some_iff.mp runs
    exact empty_notify holds returns
  | timers slots mask =>
    rw [← Option.some.inj runs]
    exact holds.congr rfl rfl rfl
  | deskTimer =>
    rw [← Option.some.inj runs]
    exact holds.congr rfl rfl rfl
  | windows root =>
    rw [← Option.some.inj runs]
    exact holds.congr rfl rfl rfl

/-! ### Every run -/

theorem initial_notify (defMsgqueueLen : ℕ) (iBufferLen : ℤ) (buffer : ℕ → Msg) (frames : Frames) :
    HoldsNotes (State.initial defMsgqueueLen iBufferLen buffer frames).world [] :=
  ⟨[], ⟨rfl, rfl, ⟨fun _ => by simp [State.initial, QMsgHeap.empty], fun _ => rfl⟩⟩, rfl⟩

theorem reachable_notify {s : State} (reached : queueSystem.Reachable s) :
    ∃ msgs, HoldsNotes s.world msgs := by
  refine reached.invariant (fun s => ∃ msgs, HoldsNotes s.world msgs) ?_ ?_
  · rintro _ ⟨defMsgqueueLen, iBufferLen, buffer, frames, -, rfl⟩
    exact ⟨[], initial_notify defMsgqueueLen iBufferLen buffer frames⟩
  · rintro s event after - ⟨msgs, holds⟩ - runs
    exact ⟨notifyAfter s msgs event, notify_step holds runs⟩

/-- A pass over a well-formed list never reads a node that is not there. -/
theorem peekNotify_safe {args : PeekArgs} {s after : PeekState} {msgs : List Msg}
    (holds : HoldsNotes s.world msgs) : peekNotify args s ≠ .error (.fault, after) := by
  obtain ⟨nodes, list, rfl⟩ := holds
  unfold peekNotify
  by_cases flagged : s.world.queue.has .notifyMsg = true
  · simp only [if_pos flagged]
    cases nodes with
    | nil =>
      have null : s.world.queue.pFirstNotifyMsg = none := list.first_eq
      simp [null]
    | cons head rest =>
      have atHead : s.world.queue.pFirstNotifyMsg = some head := list.first_eq
      obtain ⟨node, read⟩ := list.owned.read List.mem_cons_self
      obtain ⟨removed, unlinks, -⟩ := removeFirstNotify_spec list read
      simp only [atHead, read, unlinks]
      split
      · split <;> simp
      · simp
  · simp [if_neg flagged]

/-- `mg_DestroyMsgQueue` returns, and every node was released as often as it was allocated. -/
theorem mgDestroyMsgQueue_spec {w : World} {msgs : List Msg} (holds : HoldsNotes w msgs)
    {fuel : ℕ} (enough : msgs.length < fuel) :
    ∃ w', mgDestroyMsgQueue fuel w = some w' ∧ w'.heap.allocated = w.heap.allocated ∧
      ∀ addr, w'.heap.cells addr = none ∧
        w'.heap.freed.count addr = w.heap.allocated.count addr := by
  obtain ⟨nodes, list, rfl⟩ := holds
  rw [list.msgs_length] at enough
  have spec := freeNotify_spec list.chain list.owned
  obtain ⟨heap, looped⟩ := spec.returns fuel enough
  obtain ⟨owned, log⟩ := spec.post fuel heap looped
  have released : freeNotify fuel w.queue.pFirstNotifyMsg w.heap = some heap := looped
  refine ⟨{ w with heap := heap }, by rw [mgDestroyMsgQueue, released]; rfl, log, fun addr => ?_⟩
  have account := owned.account addr
  rw [log, List.count_nil, Nat.add_zero] at account
  exact ⟨owned.fresh_iff.mpr (List.not_mem_nil), account.symm⟩

/-- What holds of the notification list of a state: `msgs` are its messages. -/
structure NotifyRefines (s : State) (msgs : List Msg) : Prop where
  /-- Both list pointers are null together. -/
  nullIff : s.world.queue.pFirstNotifyMsg = none ↔ s.world.queue.pLastNotifyMsg = none
  /-- The list is finite, acyclic, ends at the tail pointer and holds the messages. -/
  list : ∃ nodes, IsList s.world.heap.next s.world.queue.pFirstNotifyMsg nodes ∧ nodes.Nodup ∧
    s.world.queue.pLastNotifyMsg = nodes.getLast? ∧ nodes.length = msgs.length ∧
    s.world.heap.msgs nodes = msgs
  /-- Every event acts on the messages as the double-ended queue does. -/
  evolves : ∀ event after, exec s event = some after →
    HoldsNotes after.world (notifyAfter s msgs event)
  /-- A pass that returns a notification returns the head. -/
  popped : ∀ env args pMsg after, peekPass env args ⟨s.world, pMsg⟩ = (.got .notify, after) →
    ∃ msg rest, msgs = msg :: rest ∧ after.pMsg = { msg with pSyncMsg := none }
  /-- With a fresh node neither the assertion nor a read fails. -/
  appends : ∀ addr msg, s.world.heap.cells addr = none → appendNotify addr msg s.world ≠ none
  prepends : ∀ addr tick pad hWnd nMsg wParam lParam, s.world.heap.cells addr = none →
    sendPriorNotifyMessage addr tick pad hWnd nMsg wParam lParam s.world ≠ none
  peeks : ∀ args pMsg after, peekNotify args ⟨s.world, pMsg⟩ ≠ .error (.fault, after)
  throws : ∀ thrown fuel, msgs.length < fuel → throwNotify fuel thrown s.world ≠ none
  empties : ∀ fuel, msgs.length < fuel →
    freeNotify fuel s.world.queue.pFirstNotifyMsg s.world.heap ≠ none
  /-- Destroying the queue leaves every allocation released exactly once. -/
  destroys : ∀ fuel, msgs.length < fuel → ∃ w', mgDestroyMsgQueue fuel s.world = some w' ∧
    w'.heap.allocated = s.world.heap.allocated ∧ ∀ addr, w'.heap.cells addr = none ∧
      w'.heap.freed.count addr = s.world.heap.allocated.count addr

/-- **The notification list is a double-ended queue** in every state of every run, without a leak,
a double release or a failed assertion. -/
theorem notify_list_refines_deque {s : State} (reached : queueSystem.Reachable s) :
    ∃ msgs, NotifyRefines s msgs := by
  obtain ⟨msgs, holds⟩ := reachable_notify reached
  have ⟨nodes, list, same⟩ := holds
  refine ⟨msgs, ?_⟩
  constructor
  case nullIff => exact list.null_iff
  case list => exact ⟨nodes, list.chain, list.nodup, list.tail, by rw [← same, list.msgs_length], same⟩
  case evolves => exact fun event after runs => notify_step holds runs
  case popped =>
    intro env args pMsg after pass
    obtain ⟨msg, rest, split, returned, -⟩ := peekPass_notify holds pass
    exact ⟨msg, rest, split, returned⟩
  case appends =>
    intro addr msg fresh
    obtain ⟨w', returns, -⟩ := appendNotify_spec msg holds fresh
    simp [returns]
  case prepends =>
    intro addr tick pad hWnd nMsg wParam lParam fresh
    obtain ⟨w', returns, -⟩ := sendPriorNotify_spec tick pad hWnd nMsg wParam lParam holds fresh
    simp [returns]
  case peeks => exact fun args pMsg after => peekNotify_safe holds
  case throws =>
    intro thrown fuel enough
    obtain ⟨r, returns⟩ := (throwNotify_spec thrown holds).1 fuel enough
    simp [returns]
  case empties =>
    intro fuel enough
    rw [← same, list.msgs_length] at enough
    obtain ⟨heap, returns⟩ := (freeNotify_spec list.chain list.owned).returns fuel enough
    have released : freeNotify fuel s.world.queue.pFirstNotifyMsg s.world.heap = some heap :=
      returns
    simp [released]
  case destroys => exact fun fuel enough => mgDestroyMsgQueue_spec holds enough

/-- Two notifications, the second one prior. -/
def twoNotes : List Event :=
  [.sendNotify 5 0 none 1 0x0800 0 0, .sendPriorNotify 6 0 none 1 0x0801 0 0]

theorem notify_list_refines_deque_two :
    ∃ s, State.blank.run twoNotes = some s ∧ ∃ msgs, NotifyRefines s msgs :=
  ⟨_, rfl, notify_list_refines_deque
    (reachable_of_run blank_reachable (rfl : State.blank.run twoNotes = some _))⟩

end Aple.Message
