/-
**The list of synchronous messages.**

* `Isolated`, `Spaced` — each node that is cancelled behind the leading run of cancelled nodes is
  directly followed by a node that stays.
* `cancelSync_spec` — on a spaced list the cancel loop marks, unlinks and posts exactly the nodes
  that meet the test. On any other list it does not: after unlinking a node it takes that node for
  the previous one, and it never moves the tail pointer.
* `calm` — a throw-away call finds a spaced list; `SyncLinked` — the list of the senders, and what the
  operations do to it.
* `SyncListOk` — the four properties of the list, `SyncInv` the invariant behind them.
* **`sync_list_ok_when_spaced`** — they hold in every state of every run whose throw-away calls find
  a spaced list; `sync_list_broken` is a run that loses a sender.
-/

import Aple.Lib.Chain
import Aple.Message.Frame

namespace Aple.Message

open Aple.Lib

/-! ### Spaced lists -/

section Spacing

variable {α : Type}

/-- Each node that meets the test is directly followed by one that does not. -/
def Isolated (test : α → Bool) : List α → Prop
  | [] => True
  | node :: rest => (test node = true → ∃ next ∈ rest.head?, test next = false) ∧ Isolated test rest

/-- The same behind the leading run of nodes that meet the test. -/
def Spaced (test : α → Bool) (nodes : List α) : Prop := Isolated test (nodes.dropWhile test)

theorem Isolated.tail {test : α → Bool} {node : α} {rest : List α}
    (isolated : Isolated test (node :: rest)) : Isolated test rest := isolated.2

theorem Spaced.tail {test : α → Bool} {node : α} {rest : List α} (hit : test node = true)
    (spaced : Spaced test (node :: rest)) : Spaced test rest := by
  unfold Spaced at spaced
  rw [List.dropWhile_cons, if_pos hit] at spaced
  exact spaced

theorem Spaced.isolated {test : α → Bool} {node : α} {rest : List α} (miss : test node = false)
    (spaced : Spaced test (node :: rest)) : Isolated test (node :: rest) := by
  unfold Spaced at spaced
  rw [List.dropWhile_cons, if_neg (by simp [miss])] at spaced
  exact spaced

theorem spaced_all (nodes : List α) : Spaced (fun _ => true) nodes := by
  induction nodes with
  | nil => trivial
  | cons node rest ih =>
    unfold Spaced
    rw [List.dropWhile_cons, if_pos rfl]
    exact ih

/-- The last node of an isolated list stays. -/
theorem Isolated.getLast? {test : α → Bool} {nodes : List α} (isolated : Isolated test nodes) :
    (nodes.filter fun node => !test node).getLast? = nodes.getLast? := by
  induction nodes with
  | nil => rfl
  | cons node rest ih =>
    have tail := ih isolated.tail
    cases rest with
    | nil =>
      have miss : test node = false := by
        by_contra hit
        obtain ⟨next, impossible, -⟩ := isolated.1 (by simpa using hit)
        cases impossible
      simp [miss]
    | cons next others =>
      have some_left : (next :: others).filter (fun node => !test node) ≠ [] := by
        intro none_left
        rw [none_left, List.getLast?_nil] at tail
        exact absurd (List.getLast?_eq_none_iff.mp tail.symm) (List.cons_ne_nil _ _)
      rw [List.getLast?_cons_cons, ← tail, List.filter_cons]
      split
      · exact List.getLast?_cons_of_ne_nil some_left
      · rfl

/-- So does the last node of a spaced list, unless no node stays. -/
theorem Spaced.getLast? {test : α → Bool} {nodes : List α} (spaced : Spaced test nodes)
    (some_left : nodes.filter (fun node => !test node) ≠ []) :
    (nodes.filter fun node => !test node).getLast? = nodes.getLast? := by
  induction nodes with
  | nil => rfl
  | cons node rest ih =>
    by_cases hit : test node = true
    · have dropped : (node :: rest).filter (fun node => !test node) =
          rest.filter fun node => !test node := List.filter_cons_of_neg (by simp [hit])
      rw [dropped] at some_left ⊢
      have some_rest : rest ≠ [] := by
        rintro rfl
        exact some_left rfl
      rw [List.getLast?_cons_of_ne_nil some_rest]
      exact ih (spaced.tail hit) some_left
    · exact (spaced.isolated (by simpa using hit)).getLast?

end Spacing

/-! ### Frames -/

namespace Frames

variable (frames : Frames) (addr : Addr)

@[simp] theorem pNext_semPost : (frames.semPost addr).pNext = frames.pNext := by
  funext other
  by_cases same : other = addr
  · simp [pNext, semPost, same]
  · simp [pNext, semPost, same]

@[simp] theorem pNext_cancel : (frames.cancel addr).pNext = frames.pNext := by
  funext other
  by_cases same : other = addr
  · simp [pNext, cancel, same]
  · simp [pNext, cancel, same]

@[simp] theorem pNext_setRetval (retval : LResult) :
    (frames.setRetval addr retval).pNext = frames.pNext := by
  funext other
  by_cases same : other = addr
  · simp [pNext, setRetval, same]
  · simp [pNext, setRetval, same]

@[simp] theorem pNext_setNext (next : Ptr) :
    (frames.setNext addr next).pNext = Function.update frames.pNext addr next := by
  funext other
  by_cases same : other = addr
  · simp [pNext, setNext, same]
  · simp [pNext, setNext, same]

end Frames

/-- What cancelling does to the frame of a sender. -/
structure Cancelled (before after : SyncMsg) : Prop where
  msg : after.msg = { before.msg with hwnd := hwndInvalid }
  retval : after.retval = errMsgCanceled
  semPosts : after.semPosts = before.semPosts + 1

/-- Only the next pointer of a frame may have changed. -/
structure Spared (before after : SyncMsg) : Prop where
  msg : after.msg = before.msg
  retval : after.retval = before.retval
  semPosts : after.semPosts = before.semPosts

theorem Spared.refl (frame : SyncMsg) : Spared frame frame := ⟨rfl, rfl, rfl⟩

/-- Writing a next pointer spares every frame. -/
theorem setNext_spared (frames : Frames) (addr other : Addr) (next : Ptr) :
    Spared (frames other) (frames.setNext addr next other) := by
  unfold Frames.setNext
  by_cases same : other = addr
  · rw [same, Function.update_self]
    exact ⟨rfl, rfl, rfl⟩
  · rw [Function.update_of_ne same]
    exact .refl _

/-- Marking and posting a node cancels it. -/
theorem cancel_self (frames : Frames) (addr : Addr) :
    Cancelled (frames addr) ((frames.cancel addr).semPost addr addr) := by
  unfold Frames.semPost Frames.cancel
  rw [Function.update_self, Function.update_self]
  exact ⟨rfl, rfl, rfl⟩

theorem cancel_other {frames : Frames} {addr other : Addr} (differs : other ≠ addr) :
    (frames.cancel addr).semPost addr other = frames other := by
  unfold Frames.semPost Frames.cancel
  rw [Function.update_of_ne differs, Function.update_of_ne differs]

/-- The same with the write to the previous node in between. -/
theorem cancelBehind_self {frames : Frames} {addr prev : Addr} (differs : addr ≠ prev) (next : Ptr) :
    Cancelled (frames addr) (((frames.cancel addr).setNext prev next).semPost addr addr) := by
  unfold Frames.semPost Frames.setNext
  rw [Function.update_self, Function.update_of_ne differs]
  unfold Frames.cancel
  rw [Function.update_self]
  exact ⟨rfl, rfl, rfl⟩

theorem cancelBehind_other {frames : Frames} {addr other : Addr} (differs : other ≠ addr)
    (prev : Addr) (next : Ptr) :
    Spared (frames other) (((frames.cancel addr).setNext prev next).semPost addr other) := by
  have spared := setNext_spared (frames.cancel addr) prev other next
  unfold Frames.semPost
  rw [Function.update_of_ne differs]
  unfold Frames.cancel at spared ⊢
  rw [Function.update_of_ne differs] at spared
  exact spared

/-! ### The cancel loop -/

/-- The nodes in `marked` were cancelled, no other frame was. -/
def Marks (marked : Addr → Prop) (before after : Frames) : Prop :=
  ∀ addr, (marked addr → Cancelled (before addr) (after addr)) ∧
    (¬ marked addr → Spared (before addr) (after addr))

theorem Marks.congr {marked marked' : Addr → Prop} {before after : Frames}
    (marks : Marks marked before after) (same : ∀ addr, marked' addr ↔ marked addr) :
    Marks marked' before after := fun addr =>
  ⟨fun member => (marks addr).1 ((same addr).mp member),
    fun off => (marks addr).2 fun member => off ((same addr).mpr member)⟩

/-- One more node is cancelled. -/
theorem Marks.cancel {marked : Addr → Prop} {before after after' : Frames} {cur : Addr}
    (marks : Marks marked before after) (fresh : ¬ marked cur)
    (self : Cancelled (after cur) (after' cur))
    (others : ∀ other, other ≠ cur → Spared (after other) (after' other)) :
    Marks (fun addr => addr = cur ∨ marked addr) before after' := by
  intro addr
  by_cases same : addr = cur
  · subst same
    have spared := (marks addr).2 fresh
    refine ⟨fun _ => ⟨?_, self.retval, ?_⟩, fun off => absurd (Or.inl rfl) off⟩
    · rw [self.msg, spared.msg]
    · rw [self.semPosts, spared.semPosts]
  · have step := others addr same
    refine ⟨fun member => ?_, fun off => ?_⟩
    · have cancelled := (marks addr).1 (member.resolve_left same)
      exact ⟨step.msg.trans cancelled.msg, step.retval.trans cancelled.retval,
        step.semPosts.trans cancelled.semPosts⟩
    · have spared := (marks addr).2 fun member => off (.inr member)
      exact ⟨step.msg.trans spared.msg, step.retval.trans spared.retval,
        step.semPosts.trans spared.semPosts⟩

/-- One more node was looked at, and it is cancelled. -/
theorem Marks.looked_hit {test : Addr → Bool} {done : List Addr} {cur : Addr}
    {before after after' : Frames} (marks : Marks (fun addr => addr ∈ done ∧ test addr = true) before after)
    (fresh : cur ∉ done) (hit : test cur = true) (self : Cancelled (after cur) (after' cur))
    (others : ∀ other, other ≠ cur → Spared (after other) (after' other)) :
    Marks (fun addr => addr ∈ done ++ [cur] ∧ test addr = true) before after' := by
  refine (marks.cancel (fun both => fresh both.1) self others).congr fun addr => ?_
  rw [List.mem_append, List.mem_singleton]
  constructor
  · rintro ⟨inDone | same, good⟩
    · exact .inr ⟨inDone, good⟩
    · exact .inl same
  · rintro (rfl | ⟨inDone, good⟩)
    · exact ⟨.inr rfl, hit⟩
    · exact ⟨.inl inDone, good⟩

/-- One more node was looked at, and it stays. -/
theorem Marks.looked_miss {test : Addr → Bool} {done : List Addr} {cur : Addr} {before after : Frames}
    (marks : Marks (fun addr => addr ∈ done ∧ test addr = true) before after)
    (miss : test cur = false) :
    Marks (fun addr => addr ∈ done ++ [cur] ∧ test addr = true) before after := by
  refine marks.congr fun addr => ?_
  rw [List.mem_append, List.mem_singleton]
  constructor
  · rintro ⟨inDone | rfl, good⟩
    · exact ⟨inDone, good⟩
    · rw [miss] at good
      cases good
  · exact fun both => ⟨.inl both.1, both.2⟩

/-- Where the previous pointer stands. In `detached` it is the node that was just unlinked. -/
inductive PrevAt (test : Addr → Bool) (kept todo : List Addr) (prev : Ptr) : Prop
  | leading : kept = [] → prev = none → Spaced test todo → PrevAt test kept todo prev
  | attached (node : Addr) : prev = some node → kept.getLast? = some node → Isolated test todo →
      PrevAt test kept todo prev
  | detached (node : Addr) : prev = some node → Isolated test todo →
      (∃ next ∈ todo.head?, test next = false) → PrevAt test kept todo prev

/-- What the cancel loop keeps on a spaced list: `done` was looked at, `todo` was not. -/
def CancelInv (thrown : Hwnd → Bool) (original : Frames) (nodes : List Addr) (bound : ℕ)
    (v : SyncVars) : Prop :=
  ∃ done todo, nodes = done ++ todo ∧ todo.length = bound ∧
    let test := fun addr => thrown (original addr).msg.hwnd
    let kept := done.filter fun addr => !test addr
    IsList v.frames.pNext v.pFirst (kept ++ todo) ∧ v.pSyncMsg = todo.head? ∧
    PrevAt test kept todo v.pSyncPrev ∧
    Marks (fun addr => addr ∈ done ∧ test addr = true) original v.frames ∧
    v.nCountS = (done.filter test).length

theorem cancelSyncTurn_inv {thrown : Hwnd → Bool} {original : Frames} {nodes : List Addr}
    {bound : ℕ} {v : SyncVars} (nodup : nodes.Nodup)
    (inv : CancelInv thrown original nodes bound v) :
    ∃ out, cancelSyncTurn thrown v = some out ∧
      out.elim (fun v' => ∃ bound' < bound, CancelInv thrown original nodes bound' v')
        (fun v' => IsList v'.frames.pNext v'.pFirst
            (nodes.filter fun addr => !thrown (original addr).msg.hwnd) ∧
          Marks (fun addr => addr ∈ nodes ∧ thrown (original addr).msg.hwnd = true) original
            v'.frames ∧
          v'.nCountS = (nodes.filter fun addr => thrown (original addr).msg.hwnd).length) := by
  obtain ⟨done, todo, rfl, rfl, chain, atCur, prevAt, marks, count⟩ := inv
  set test : Addr → Bool := fun addr => thrown (original addr).msg.hwnd with testEq
  set kept := done.filter fun addr => !test addr with keptEq
  unfold cancelSyncTurn
  cases todo with
  | nil =>
    rw [atCur]
    rw [List.append_nil] at chain nodup ⊢
    exact ⟨_, rfl, chain, marks, count⟩
  | cons cur rest =>
    have curFresh : cur ∉ done := by
      rw [List.nodup_append] at nodup
      exact fun member => nodup.2.2 cur member cur List.mem_cons_self rfl
    have keptFresh : cur ∉ kept := fun member => curFresh (List.mem_of_mem_filter member)
    have sameHwnd : thrown (v.frames cur).msg.hwnd = test cur := by
      rw [((marks cur).2 fun both => curFresh both.1).msg]
    obtain ⟨middle, front, walk⟩ := seg_append.mp chain
    have nextHead : v.frames.pNext cur = rest.head? := isList_head walk.2
    have split : done ++ cur :: rest = (done ++ [cur]) ++ rest := by simp
    rw [atCur]
    simp only [List.head?_cons, sameHwnd]
    by_cases hit : test cur = true
    · have keptNow : (done ++ [cur]).filter (fun addr => !test addr) = kept := by
        rw [List.filter_append, List.filter_singleton, hit]
        exact List.append_nil _
      have countNow : ((done ++ [cur]).filter test).length = v.nCountS + 1 := by
        rw [List.filter_append, List.filter_singleton, hit, List.length_append, count]
        rfl
      rw [if_pos hit]
      rcases prevAt with ⟨none_kept, noPrev, spaced⟩ | ⟨prev, atPrev, isLast, isolated⟩ |
        ⟨_, _, _, next, isNext, miss⟩
      · -- the head: the next node becomes the first one
        rw [noPrev]
        refine ⟨_, rfl, rest.length, Nat.lt_succ_self _, done ++ [cur], rest, split, rfl, ?_⟩
        refine ⟨?_, ?_, ?_, ?_, countNow.symm⟩
        · rw [keptNow, none_kept, List.nil_append]
          simpa using walk.2
        · simpa using nextHead
        · rw [keptNow]
          exact .leading none_kept rfl (spaced.tail hit)
        · refine marks.looked_hit curFresh hit (cancel_self v.frames cur) fun other differs => ?_
          show Spared _ (((v.frames.cancel cur).semPost cur) other)
          rw [cancel_other differs]
          exact .refl _
      · -- behind a node: redirect it; the node just unlinked becomes the previous one
        rw [atPrev]
        obtain ⟨before, keptSplit⟩ := List.getLast?_eq_some_iff.mp isLast
        have differs : cur ≠ prev := by
          rintro rfl
          exact keptFresh (by rw [keptSplit]; simp)
        refine ⟨_, rfl, rest.length, Nat.lt_succ_self _, done ++ [cur], rest, split, rfl, ?_⟩
        refine ⟨?_, ?_, ?_, ?_, countNow.symm⟩
        · rw [keptNow, keptSplit, List.append_assoc, List.singleton_append]
          rw [keptSplit, List.append_assoc, List.singleton_append] at chain
          simpa using seg_unlink chain (isList_nodup chain)
        · simpa [Function.update_of_ne differs] using nextHead
        · exact .detached cur rfl isolated.tail (isolated.1 hit)
        · exact marks.looked_hit curFresh hit (cancelBehind_self differs _)
            fun other apart => cancelBehind_other apart prev _
      · obtain rfl : cur = next := Option.some.inj isNext
        rw [hit] at miss
        cases miss
    · have miss : test cur = false := by simpa using hit
      have keptNow : (done ++ [cur]).filter (fun addr => !test addr) = kept ++ [cur] := by
        rw [List.filter_append, List.filter_singleton, miss]
        rfl
      rw [if_neg hit]
      refine ⟨_, rfl, rest.length, Nat.lt_succ_self _, done ++ [cur], rest, split, rfl, ?_⟩
      refine ⟨?_, nextHead, ?_, ?_, ?_⟩
      · rw [keptNow, List.append_assoc, List.singleton_append]
        exact chain
      · rw [keptNow]
        refine .attached cur rfl List.getLast?_concat ?_
        rcases prevAt with ⟨_, _, spaced⟩ | ⟨_, _, _, isolated⟩ | ⟨_, _, isolated, _⟩
        · exact (spaced.isolated miss).tail
        · exact isolated.tail
        · exact isolated.tail
      · exact marks.looked_miss miss
      · have countNow : (done ++ [cur]).filter test = done.filter test := by
          rw [List.filter_append, List.filter_singleton, miss]
          exact List.append_nil _
        show v.nCountS = ((done ++ [cur]).filter test).length
        rw [countNow, count]

/-- The loop starts with nothing looked at. -/
theorem cancelInv_start {w : World} {thrown : Hwnd → Bool} {nodes : List Addr}
    (linked : Linked w.frames.pNext w.queue.pFirstSyncMsg w.queue.pLastSyncMsg nodes)
    (spaced : Spaced (fun addr => thrown (w.frames addr).msg.hwnd) nodes) :
    CancelInv thrown w.frames nodes nodes.length
      ⟨w.queue.pFirstSyncMsg, none, w.queue.pFirstSyncMsg, w.frames, 0⟩ := by
  refine ⟨[], nodes, rfl, rfl, linked.chain, linked.first_eq, .leading rfl rfl spaced, ?_, rfl⟩
  exact fun addr => ⟨fun both => absurd both.1 List.not_mem_nil, fun _ => .refl _⟩

/-- **Cancelling on a spaced list.** -/
theorem cancelSync_spec {w w' : World} {thrown : Hwnd → Bool} {nodes : List Addr} {fuel count : ℕ}
    (linked : Linked w.frames.pNext w.queue.pFirstSyncMsg w.queue.pLastSyncMsg nodes)
    (spaced : Spaced (fun addr => thrown (w.frames addr).msg.hwnd) nodes)
    (returns : cancelSync fuel thrown w = some (count, w')) :
    Linked w'.frames.pNext w'.queue.pFirstSyncMsg w'.queue.pLastSyncMsg
        (nodes.filter fun addr => !thrown (w.frames addr).msg.hwnd) ∧
      Marks (fun addr => addr ∈ nodes ∧ thrown (w.frames addr).msg.hwnd = true) w.frames
        w'.frames := by
  have spec := loop_total (CancelInv thrown w.frames nodes) _
    (fun _ _ => cancelSyncTurn_inv linked.nodup) (cancelInv_start linked spaced)
  unfold cancelSync at returns
  split at returns
  · cases returns
  rename_i v looped
  obtain ⟨-, rfl⟩ := Prod.mk.inj (Option.some.inj returns)
  obtain ⟨chain, marks, -⟩ := spec.post fuel v looped
  refine ⟨⟨chain, fun some_left => ?_⟩, marks⟩
  have some_nodes : nodes ≠ [] := by
    rintro rfl
    exact some_left rfl
  rw [spaced.getLast? some_left]
  exact linked.tail some_nodes

/-- Cancelling leaves the messages of the senders that stay. -/
theorem cancel_msg {w w' : World} {nodes : List Addr} {fuel count : ℕ} {test : Hwnd → Bool}
    (linked : Linked w.frames.pNext w.queue.pFirstSyncMsg w.queue.pLastSyncMsg nodes)
    (spaced : Spaced (fun addr => test (w.frames addr).msg.hwnd) nodes)
    (returns : cancelSync fuel test w = some (count, w')) {addr : Addr}
    (left : addr ∈ nodes.filter fun addr => !test (w.frames addr).msg.hwnd) :
    addr ∈ nodes ∧ test (w.frames addr).msg.hwnd = false ∧
      (w'.frames addr).msg = (w.frames addr).msg := by
  obtain ⟨member, stays⟩ := List.mem_filter.mp left
  rw [Bool.not_eq_true'] at stays
  refine ⟨member, stays, ?_⟩
  apply (((cancelSync_spec linked spaced returns).2 addr).2 _).msg
  rintro ⟨-, hit⟩
  rw [stays] at hit
  cases hit

/-- Enqueuing fills one frame, and of the others writes a next pointer at most. -/
theorem sendSyncMessage_frames {w w' : World} {addr : Addr} {time : Dword} {pad : Ptr} {hWnd : Hwnd}
    {msg : MsgId} {wParam : WParam} {lParam : LParam}
    (returns : sendSyncMessage addr time pad hWnd msg wParam lParam w = some w') :
    Spared (syncFrame time pad hWnd msg wParam lParam) (w'.frames addr) ∧
      ∀ other, other ≠ addr → Spared (w.frames other) (w'.frames other) := by
  set frames : Frames :=
    Function.update w.frames addr (syncFrame time pad hWnd msg wParam lParam) with framesEq
  have relinked : ∀ other, Spared (frames other) (w'.frames other) := by
    unfold sendSyncMessage linkSync at returns
    by_cases empty : w.queue.pFirstSyncMsg = none
    · simp only [if_pos empty, Option.some.injEq] at returns
      rw [← returns]
      exact fun _ => .refl _
    · simp only [if_neg empty] at returns
      split at returns
      · cases returns
      rename_i last _
      rw [← Option.some.inj returns]
      exact fun other => setNext_spared frames last other (some addr)
  refine ⟨?_, fun other differs => ?_⟩
  · have filled := relinked addr
    rw [framesEq, Function.update_self] at filled
    exact filled
  · have kept := relinked other
    rw [framesEq, Function.update_of_ne differs] at kept
    exact kept

/-! ### Runs -/

/-- The sources of the messages that a peek or a drain took out. -/
def State.takenOut (s : State) : List Source := s.held.map Prod.fst ++ s.dispatched.map Prod.fst

/-- A sender that was neither taken out nor cancelled. -/
def survives (s : State) (addr : Addr) : Bool :=
  decide (.sync addr ∉ s.takenOut) && decide ((s.world.frames addr).msg.hwnd ≠ hwndInvalid)

theorem survives_iff {s : State} {addr : Addr} : survives s addr = true ↔
    .sync addr ∉ s.takenOut ∧ (s.world.frames addr).msg.hwnd ≠ hwndInvalid := by
  unfold survives
  rw [Bool.and_eq_true, decide_eq_true_iff, decide_eq_true_iff]

/-- The four properties of the list of synchronous messages. -/
structure SyncListOk (s : State) : Prop where
  list : ∃ nodes, IsList s.world.frames.pNext s.world.queue.pFirstSyncMsg nodes ∧
    -- the tail pointer is the last node unless the list is empty
    (s.world.queue.pFirstSyncMsg ≠ none → s.world.queue.pLastSyncMsg = nodes.getLast?) ∧
    -- a listed node belongs to a sender that was not posted
    (∀ addr ∈ nodes, addr ∈ s.enqueued ∧ (s.world.frames addr).semPosts = 0) ∧
    -- the senders neither taken out nor cancelled are listed, in the order they enqueued
    nodes = s.enqueued.filter (survives s)
  /-- A cancelled sender has its error value and was posted exactly once. -/
  cancelled : ∀ addr ∈ s.enqueued, (s.world.frames addr).msg.hwnd = hwndInvalid →
    (s.world.frames addr).retval = errMsgCanceled ∧ (s.world.frames addr).semPosts = 1

/-- A throw-away call finds a spaced list. -/
def calm (s : State) : Event → Prop
  | .throwAway _ _ win hWnd => ∀ nodes,
    IsList s.world.frames.pNext s.world.queue.pFirstSyncMsg nodes →
    Spaced (fun addr => isThrown win hWnd (s.world.frames addr).msg.hwnd) nodes
  | _ => True

/-- The condition on a step: a throw-away call finds a spaced list, and what is dispatched came from
the synchronous messages. -/
def spacedStep (s : State) : Event → Prop
  | .dispatch index _ _ => ∀ source pMsg, s.held[index]? = some (source, pMsg) →
    ∃ addr, source = .sync addr
  | event => calm s event

/-! ### The list -/

/-- The list of the senders, all of which are known. -/
structure SyncLinked (s : State) (nodes : List Addr) : Prop where
  linked : Linked s.world.frames.pNext s.world.queue.pFirstSyncMsg s.world.queue.pLastSyncMsg nodes
  known : ∀ addr ∈ nodes, addr ∈ s.enqueued

namespace SyncLinked

variable {s after : State} {nodes : List Addr}

/-- What leaves the pointers alone keeps the list. -/
theorem congr (list : SyncLinked s nodes)
    (next : after.world.frames.pNext = s.world.frames.pNext)
    (first : after.world.queue.pFirstSyncMsg = s.world.queue.pFirstSyncMsg)
    (last : after.world.queue.pLastSyncMsg = s.world.queue.pLastSyncMsg)
    (enqueued : after.enqueued = s.enqueued) : SyncLinked after nodes := by
  refine ⟨?_, ?_⟩
  · rw [next, first, last]
    exact list.linked
  · rw [enqueued]
    exact list.known

/-- **A sender enqueues.** -/
theorem send (list : SyncLinked s nodes) {addr : Addr} {win : Windows} {time : Dword} {pad : Ptr}
    {hWnd : Hwnd} {msg : MsgId} {wParam : WParam} {lParam : LParam}
    (runs : execSendSync s addr win time pad hWnd msg wParam lParam = some after) :
    SyncLinked after (nodes ++ [addr]) := by
  obtain ⟨-, fresh, w, returns, rfl⟩ := execSendSync_inv runs
  have off : addr ∉ nodes := fun member => fresh (list.known addr member)
  have linked : Linked (Frames.pNext
      (Function.update s.world.frames addr (syncFrame time pad hWnd msg wParam lParam)))
      s.world.queue.pFirstSyncMsg s.world.queue.pLastSyncMsg nodes := by
    apply list.linked.congr
    intro other member
    have differs : other ≠ addr := by
      rintro rfl
      exact off member
    show (Function.update s.world.frames addr _ other).pNext = _
    rw [Function.update_of_ne differs]
    rfl
  have ends : Frames.pNext
      (Function.update s.world.frames addr (syncFrame time pad hWnd msg wParam lParam)) addr =
      none := by
    show (Function.update s.world.frames addr _ addr).pNext = none
    rw [Function.update_self]
    rfl
  refine ⟨?_, ?_⟩
  · unfold sendSyncMessage linkSync at returns
    by_cases empty : s.world.queue.pFirstSyncMsg = none
    · simp only [if_pos empty, Option.some.injEq] at returns
      rw [← returns, list.linked.first_none_iff.mp empty]
      exact Linked.single ends
    · simp only [if_neg empty] at returns
      have some_nodes : nodes ≠ [] := list.linked.first_none_iff.not.mp empty
      obtain ⟨last, atTail⟩ : ∃ last, s.world.queue.pLastSyncMsg = some last := by
        rw [list.linked.tail some_nodes]
        exact ⟨_, List.getLast?_eq_some_getLast some_nodes⟩
      simp only [atTail, Option.some.injEq] at returns
      rw [← returns]
      show Linked (Frames.setNext _ last (some addr)).pNext _ _ _
      rw [Frames.pNext_setNext]
      exact linked.pushBack off ends atTail some_nodes
  · intro other member
    apply List.mem_append.mpr
    exact (List.mem_append.mp member).imp_left (list.known other)

/-- The sender at the head is taken out. -/
theorem take (list : SyncLinked s nodes) {first : Addr}
    (atHead : s.world.queue.pFirstSyncMsg = some first) : ∃ rest, nodes = first :: rest ∧
      ∀ after : State, after.world.frames.pNext = s.world.frames.pNext →
        after.world.queue.pFirstSyncMsg = s.world.frames.pNext first →
        after.world.queue.pLastSyncMsg = s.world.queue.pLastSyncMsg →
        after.enqueued = s.enqueued → SyncLinked after rest := by
  cases nodes with
  | nil =>
    rw [list.linked.first_none_iff.mpr rfl] at atHead
    cases atHead
  | cons head rest =>
    obtain rfl : head = first := Option.some.inj (list.linked.chain.1.symm.trans atHead)
    refine ⟨rest, rfl, fun after next newFirst last enqueued => ⟨?_, ?_⟩⟩
    · rw [next, newFirst, last]
      exact list.linked.popFront
    · rw [enqueued]
      exact fun addr member => list.known addr (List.mem_cons_of_mem _ member)

/-- Cancelling some of the senders of a spaced list. -/
theorem cancel (list : SyncLinked s nodes) {w : World} {thrown : Hwnd → Bool} {fuel count : ℕ}
    (spaced : Spaced (fun addr => thrown (s.world.frames addr).msg.hwnd) nodes)
    (returns : cancelSync fuel thrown s.world = some (count, w)) :
    SyncLinked (s.setWorld w) (nodes.filter fun addr => !thrown (s.world.frames addr).msg.hwnd) :=
  ⟨(cancelSync_spec list.linked spaced returns).1,
    fun addr member => list.known addr (List.mem_of_mem_filter member)⟩

/-- **Throwing away**: the senders that stay are old ones with their messages, none of them for the
window. -/
theorem throwAway (list : SyncLinked s nodes) {fuel defNrTimers : ℕ} {win : Windows} {hWnd : Hwnd}
    (meets : calm s (.throwAway fuel defNrTimers win hWnd))
    (runs : exec s (.throwAway fuel defNrTimers win hWnd) = some after) :
    ∃ nodes', SyncLinked after nodes' ∧ ∀ addr ∈ nodes', addr ∈ nodes ∧
      isThrown win hWnd (s.world.frames addr).msg.hwnd = false ∧
      (after.world.frames addr).msg = (s.world.frames addr).msg := by
  obtain ⟨-, count, w, returns, rfl⟩ := execThrowAway_inv runs
  obtain ⟨_, notified, _, synced, _, posted, _, first, second, third, -, rfl⟩ :=
    mgThrowAwayMessages_inv returns
  obtain ⟨_, _, _, -, eq⟩ := throwNotify_frame first
  have sameFrames : notified.frames = s.world.frames := by rw [eq]
  have moved : SyncLinked (s.setWorld notified) nodes := by
    apply list.congr (congrArg Frames.pNext sameFrames)
    · show notified.queue.pFirstSyncMsg = _
      rw [eq]
    · show notified.queue.pLastSyncMsg = _
      rw [eq]
    · rfl
  have spaced := meets nodes list.linked.chain
  rw [← sameFrames] at spaced
  have cancelled := moved.cancel spaced second
  obtain ⟨_, _, -, rfl⟩ := throwPosted_frame third
  refine ⟨_, cancelled.congr rfl rfl rfl rfl, fun addr left => ?_⟩
  rw [← sameFrames]
  exact cancel_msg moved.linked spaced second left

/-- `EmptyMessageQueue` leaves no sender. -/
theorem empty (list : SyncLinked s nodes) {fuel : ℕ} (runs : exec s (.empty fuel) = some after) :
    SyncLinked after [] := by
  obtain ⟨w, returns, rfl⟩ := Option.map_eq_some_iff.mp runs
  obtain ⟨_, synced, heap, first, -, rfl⟩ := emptyMessageQueue_inv returns
  have none_left : (nodes.filter fun _ => !true) = [] := by simp
  rw [← none_left]
  exact (list.cancel (spaced_all nodes) first).congr rfl rfl rfl rfl

end SyncLinked

/-! ### The invariant -/

/-- The invariant behind the four properties. -/
structure SyncInv (s : State) (nodes : List Addr) : Prop extends SyncLinked s nodes where
  survivors : nodes = s.enqueued.filter (survives s)
  unposted : ∀ addr ∈ nodes, (s.world.frames addr).semPosts = 0
  cancelled : ∀ addr ∈ s.enqueued, (s.world.frames addr).msg.hwnd = hwndInvalid →
    (s.world.frames addr).retval = errMsgCanceled ∧ (s.world.frames addr).semPosts = 1
  taken : ∀ addr, .sync addr ∈ s.takenOut →
    addr ∈ s.enqueued ∧ (s.world.frames addr).msg.hwnd ≠ hwndInvalid
  hidden : ∀ addr pMsg, (.sync addr, pMsg) ∈ s.held → pMsg.pSyncMsg = some addr

namespace SyncInv

variable {s after : State} {nodes : List Addr}

theorem listOk (inv : SyncInv s nodes) : SyncListOk s := by
  refine ⟨⟨nodes, inv.linked.chain, fun some_first => ?_, fun addr member => ?_, inv.survivors⟩,
    inv.cancelled⟩
  · exact inv.linked.tail (inv.linked.first_none_iff.not.mp some_first)
  · refine ⟨?_, inv.unposted addr member⟩
    rw [inv.survivors] at member
    exact List.mem_of_mem_filter member

theorem mem_iff (inv : SyncInv s nodes) {addr : Addr} :
    addr ∈ nodes ↔ addr ∈ s.enqueued ∧ survives s addr = true := by
  rw [inv.survivors, List.mem_filter]

/-- What leaves the list, the frames and the history alone keeps the invariant. -/
theorem congr (inv : SyncInv s nodes) (frames : after.world.frames = s.world.frames)
    (first : after.world.queue.pFirstSyncMsg = s.world.queue.pFirstSyncMsg)
    (last : after.world.queue.pLastSyncMsg = s.world.queue.pLastSyncMsg)
    (enqueued : after.enqueued = s.enqueued)
    (takenOut : ∀ addr, .sync addr ∈ after.takenOut ↔ .sync addr ∈ s.takenOut)
    (held : ∀ addr pMsg, (.sync addr, pMsg) ∈ after.held → (.sync addr, pMsg) ∈ s.held) :
    SyncInv after nodes := by
  have same : survives after = survives s := by
    funext addr
    unfold survives
    rw [frames, decide_eq_decide.mpr (not_congr (takenOut addr))]
  constructor
  case toSyncLinked => exact inv.toSyncLinked.congr (congrArg Frames.pNext frames) first last enqueued
  case survivors => rw [enqueued, same]; exact inv.survivors
  case unposted => rw [frames]; exact inv.unposted
  case cancelled => rw [frames, enqueued]; exact inv.cancelled
  case taken =>
    intro addr member
    rw [frames, enqueued]
    exact inv.taken addr ((takenOut addr).mp member)
  case hidden => exact fun addr pMsg member => inv.hidden addr pMsg (held addr pMsg member)

/-- The world may change as long as the list and the frames do not. -/
theorem setWorld (inv : SyncInv s nodes) {w : World} (frames : w.frames = s.world.frames)
    (first : w.queue.pFirstSyncMsg = s.world.queue.pFirstSyncMsg)
    (last : w.queue.pLastSyncMsg = s.world.queue.pLastSyncMsg) : SyncInv (s.setWorld w) nodes :=
  inv.congr frames first last rfl (fun _ => Iff.rfl) fun _ _ => id

/-- **Enqueuing.** -/
theorem send (inv : SyncInv s nodes) {addr : Addr} {win : Windows} {time : Dword} {pad : Ptr}
    {hWnd : Hwnd} {msg : MsgId} {wParam : WParam} {lParam : LParam}
    (runs : execSendSync s addr win time pad hWnd msg wParam lParam = some after) :
    SyncInv after (nodes ++ [addr]) := by
  have list := inv.toSyncLinked.send runs
  obtain ⟨window, fresh, w, returns, rfl⟩ := execSendSync_inv runs
  have apart : ∀ other ∈ s.enqueued, other ≠ addr := by
    rintro other member rfl
    exact fresh member
  have notTaken : .sync addr ∉ s.takenOut := fun member => fresh (inv.taken addr member).1
  have valid : hWnd ≠ hwndInvalid := by
    simp only [isWindow, Bool.and_eq_true, bne_iff_ne] at window
    exact window.1.2
  obtain ⟨filled, spared⟩ := sendSyncMessage_frames returns
  have spareOld : ∀ other ∈ s.enqueued, Spared (s.world.frames other) (w.frames other) := by
    exact fun other member => spared other (apart other member)
  have newHwnd : (w.frames addr).msg.hwnd = hWnd := by
    rw [filled.msg]
    rfl
  have oldSurvives : ∀ other ∈ s.enqueued, survives { s.setWorld w with
      enqueued := s.enqueued ++ [addr] } other = survives s other := by
    intro other member
    show (decide (.sync other ∉ s.takenOut) && decide ((w.frames other).msg.hwnd ≠ hwndInvalid)) = _
    rw [(spareOld other member).msg]
    rfl
  constructor
  case toSyncLinked => exact list
  case survivors =>
    show nodes ++ [addr] = (s.enqueued ++ [addr]).filter _
    rw [List.filter_append, List.filter_congr oldSurvives, ← inv.survivors,
      List.filter_singleton]
    congr 1
    have stays : survives { s.setWorld w with enqueued := s.enqueued ++ [addr] } addr = true :=
      survives_iff.mpr ⟨notTaken, by rw [← newHwnd] at valid; exact valid⟩
    rw [stays]
    rfl
  case unposted =>
    intro other member
    show (w.frames other).semPosts = 0
    rcases List.mem_append.mp member with old | new
    · rw [(spareOld other (inv.mem_iff.mp old).1).semPosts]
      exact inv.unposted other old
    · rw [List.mem_singleton.mp new, filled.semPosts]
      rfl
  case cancelled =>
    intro other member marked
    have marked : (w.frames other).msg.hwnd = hwndInvalid := marked
    show (w.frames other).retval = errMsgCanceled ∧ (w.frames other).semPosts = 1
    rcases List.mem_append.mp member with old | new
    · have spare := spareOld other old
      rw [spare.msg] at marked
      rw [spare.retval, spare.semPosts]
      exact inv.cancelled other old marked
    · rw [List.mem_singleton.mp new, newHwnd] at marked
      exact absurd marked valid
  case taken =>
    intro other member
    obtain ⟨old, alive⟩ := inv.taken other member
    refine ⟨List.mem_append_left _ old, ?_⟩
    show (w.frames other).msg.hwnd ≠ hwndInvalid
    rw [(spareOld other old).msg]
    exact alive
  case hidden => exact inv.hidden

theorem head_mem {first : Addr} (inv : SyncInv s nodes)
    (atHead : s.world.queue.pFirstSyncMsg = some first) : first ∈ nodes := by
  rw [inv.linked.first_eq] at atHead
  exact List.mem_of_mem_head? atHead

/-- A sender in the list was not handed out. -/
theorem notTaken {addr : Addr} (inv : SyncInv s nodes) (listed : addr ∈ nodes) :
    Source.sync addr ∉ s.takenOut :=
  (survives_iff.mp (inv.mem_iff.mp listed).2).1

/-- **Taking the head out.** -/
theorem take {first : Addr} (inv : SyncInv s nodes) {w : World} {pMsg : Msg}
    (atHead : s.world.queue.pFirstSyncMsg = some first)
    (frames : w.frames = s.world.frames)
    (newFirst : w.queue.pFirstSyncMsg = s.world.frames.pNext first)
    (last : w.queue.pLastSyncMsg = s.world.queue.pLastSyncMsg)
    (hidden : pMsg.pSyncMsg = some first) :
    SyncInv { s.setWorld w with held := s.held ++ [(.sync first, pMsg)] } nodes.tail := by
  cases nodes with
  | nil =>
    rw [inv.linked.first_none_iff.mpr rfl] at atHead
    cases atHead
  | cons head rest =>
    obtain rfl : head = first := Option.some.inj (inv.linked.chain.1.symm.trans atHead)
    have off : head ∉ rest := (List.nodup_cons.mp inv.linked.nodup).1
    obtain ⟨wasEnqueued, survived⟩ := inv.mem_iff.mp List.mem_cons_self
    obtain ⟨-, alive⟩ := survives_iff.mp survived
    set after : State := { s.setWorld w with held := s.held ++ [(.sync head, pMsg)] } with afterEq
    have takenNow :
        ∀ addr, .sync addr ∈ after.takenOut ↔ addr = head ∨ .sync addr ∈ s.takenOut := by
      intro addr
      show .sync addr ∈ (s.held ++ [(Source.sync head, pMsg)]).map Prod.fst ++ _ ↔ _
      unfold State.takenOut
      simp only [List.map_append, List.map_cons, List.map_nil, List.mem_append, List.mem_singleton,
        Source.sync.injEq]
      tauto
    have sameFrames : after.world.frames = s.world.frames := frames
    have survivesNow : ∀ addr, survives after addr = (survives s addr && decide (addr ≠ head)) := by
      intro addr
      rw [Bool.eq_iff_iff, survives_iff, Bool.and_eq_true, survives_iff, takenNow, sameFrames,
        decide_eq_true_iff]
      tauto
    constructor
    case toSyncLinked =>
      obtain ⟨rest', is, popped⟩ := inv.toSyncLinked.take atHead
      obtain rfl : rest = rest' := (List.cons.inj is).2
      exact popped after (congrArg Frames.pNext frames) newFirst last rfl
    case survivors =>
      show rest = s.enqueued.filter (survives after)
      have step : s.enqueued.filter (survives after) =
          (s.enqueued.filter (survives s)).filter fun addr => decide (addr ≠ head) := by
        rw [List.filter_filter]
        refine List.filter_congr fun addr _ => ?_
        rw [survivesNow, Bool.and_comm]
      rw [step, ← inv.survivors, List.filter_cons_of_neg (by simp)]
      refine (List.filter_eq_self.mpr fun addr member => ?_).symm
      rw [decide_eq_true_iff]
      rintro rfl
      exact off member
    case unposted =>
      intro addr member
      rw [sameFrames]
      exact inv.unposted addr (List.mem_cons_of_mem _ member)
    case cancelled =>
      rw [sameFrames]
      exact inv.cancelled
    case taken =>
      intro addr member
      rw [sameFrames]
      rcases (takenNow addr).mp member with rfl | before
      · exact ⟨wasEnqueued, alive⟩
      · exact inv.taken addr before
    case hidden =>
      intro addr msg member
      rcases List.mem_append.mp member with old | new
      · exact inv.hidden addr msg old
      · obtain ⟨same, rfl⟩ := Prod.mk.inj (List.mem_singleton.mp new)
        rw [Source.sync.inj same]
        exact hidden

/-- **Cancelling on a spaced list.** -/
theorem cancel (inv : SyncInv s nodes) {w : World} {thrown : Hwnd → Bool} {fuel count : ℕ}
    (spaced : Spaced (fun addr => thrown (s.world.frames addr).msg.hwnd) nodes)
    (returns : cancelSync fuel thrown s.world = some (count, w)) :
    SyncInv (s.setWorld w)
      (nodes.filter fun addr => !thrown (s.world.frames addr).msg.hwnd) := by
  have marks := (cancelSync_spec inv.linked spaced returns).2
  have survivesNow : ∀ addr ∈ s.enqueued, survives (s.setWorld w) addr =
      (survives s addr && !thrown (s.world.frames addr).msg.hwnd) := by
    intro addr member
    by_cases hit : addr ∈ nodes ∧ thrown (s.world.frames addr).msg.hwnd = true
    · have gone : (w.frames addr).msg.hwnd = hwndInvalid := by rw [((marks addr).1 hit).msg]
      have dead : ¬ survives (s.setWorld w) addr = true := fun alive =>
        (survives_iff.mp alive).2 gone
      rw [Bool.not_eq_true] at dead
      rw [dead, hit.2, Bool.not_true, Bool.and_false]
    · have same : survives (s.setWorld w) addr = survives s addr := by
        show (decide (.sync addr ∉ s.takenOut) && decide ((w.frames addr).msg.hwnd ≠ hwndInvalid)) = _
        rw [((marks addr).2 hit).msg]
        rfl
      rw [same]
      cases survived : survives s addr with
      | false => rfl
      | true =>
        have listed := inv.mem_iff.mpr ⟨member, survived⟩
        have miss : thrown (s.world.frames addr).msg.hwnd = false := by
          by_contra found
          exact hit ⟨listed, by simpa using found⟩
        rw [miss]
        rfl
  constructor
  case toSyncLinked => exact inv.toSyncLinked.cancel spaced returns
  case survivors =>
    show _ = s.enqueued.filter (survives (s.setWorld w))
    rw [List.filter_congr survivesNow, inv.survivors, List.filter_filter]
    refine List.filter_congr fun addr _ => ?_
    exact Bool.and_comm _ _
  case unposted =>
    intro addr member
    obtain ⟨listed, stays⟩ := List.mem_filter.mp member
    have off : ¬ (addr ∈ nodes ∧ thrown (s.world.frames addr).msg.hwnd = true) := by
      rintro ⟨-, hit⟩
      simp [hit] at stays
    show (w.frames addr).semPosts = 0
    rw [((marks addr).2 off).semPosts]
    exact inv.unposted addr listed
  case cancelled =>
    intro addr member marked
    have marked : (w.frames addr).msg.hwnd = hwndInvalid := marked
    show (w.frames addr).retval = errMsgCanceled ∧ (w.frames addr).semPosts = 1
    by_cases hit : addr ∈ nodes ∧ thrown (s.world.frames addr).msg.hwnd = true
    · have cancelled := (marks addr).1 hit
      rw [cancelled.retval, cancelled.semPosts, inv.unposted addr hit.1]
      exact ⟨rfl, rfl⟩
    · have spared := (marks addr).2 hit
      rw [spared.msg] at marked
      rw [spared.retval, spared.semPosts]
      exact inv.cancelled addr member marked
  case taken =>
    intro addr member
    obtain ⟨old, alive⟩ := inv.taken addr member
    refine ⟨old, ?_⟩
    have off : ¬ (addr ∈ nodes ∧ thrown (s.world.frames addr).msg.hwnd = true) := by
      rintro ⟨listed, -⟩
      exact inv.notTaken listed member
    show (w.frames addr).msg.hwnd ≠ hwndInvalid
    rw [((marks addr).2 off).msg]
    exact alive
  case hidden => exact inv.hidden

end SyncInv

/-! ### The other operations -/

/-- The list of synchronous messages of two worlds is the same. -/
structure SyncSame (w w' : World) : Prop where
  frames : w'.frames = w.frames
  first : w'.queue.pFirstSyncMsg = w.queue.pFirstSyncMsg
  last : w'.queue.pLastSyncMsg = w.queue.pLastSyncMsg

theorem SyncSame.trans {w w' w'' : World} (first : SyncSame w w') (second : SyncSame w' w'') :
    SyncSame w w'' :=
  ⟨second.frames.trans first.frames, second.first.trans first.first, second.last.trans first.last⟩

theorem Tidied.syncSame {w w' : World} (tidied : Tidied w w') : SyncSame w w' := by
  obtain ⟨_, _, _, eq⟩ := tidied.queue
  exact ⟨tidied.frames, by rw [eq], by rw [eq]⟩

/-- The list of synchronous messages and the history of two states are the same. -/
structure SyncKept (s after : State) : Prop where
  world : SyncSame s.world after.world
  enqueued : after.enqueued = s.enqueued
  held : after.held = s.held
  dispatched : after.dispatched = s.dispatched

/-- The events that neither work on the synchronous messages nor hand out a message. -/
def leavesSync : Event → Bool
  | .sendSync .. | .drain | .peek .. | .dispatch .. | .throwAway .. | .empty .. => false
  | _ => true

theorem other_sync {s after : State} {event : Event} (other : leavesSync event = true)
    (runs : exec s event = some after) : SyncKept s after := by
  cases event with
  | queueMessage fuel tick msg =>
    obtain ⟨r, returns, rfl⟩ := Option.map_eq_some_iff.mp runs
    cases kernelQueueMessage_frame returns <;> exact ⟨⟨rfl, rfl, rfl⟩, rfl, rfl, rfl⟩
  | post fuel tick pad hWnd nMsg wParam lParam =>
    obtain ⟨r, returns, rfl⟩ := Option.map_eq_some_iff.mp runs
    cases postMessage_frame returns <;> exact ⟨⟨rfl, rfl, rfl⟩, rfl, rfl, rfl⟩
  | postQuit =>
    rw [← Option.some.inj runs]
    unfold postQuitMessage
    split <;> exact ⟨⟨rfl, rfl, rfl⟩, rfl, rfl, rfl⟩
  | sendNotify addr tick pad hWnd nMsg wParam lParam =>
    obtain ⟨w, returns, rfl⟩ := Option.map_eq_some_iff.mp runs
    obtain ⟨_, _, _, -, rfl⟩ := appendNotify_frame returns
    exact ⟨⟨rfl, rfl, rfl⟩, rfl, rfl, rfl⟩
  | notify addr pad hWnd id code dwAddData =>
    obtain ⟨w, returns, rfl⟩ := Option.map_eq_some_iff.mp runs
    obtain ⟨_, _, _, -, rfl⟩ := appendNotify_frame returns
    exact ⟨⟨rfl, rfl, rfl⟩, rfl, rfl, rfl⟩
  | sendPriorNotify addr tick pad hWnd nMsg wParam lParam =>
    obtain ⟨w, returns, rfl⟩ := Option.map_eq_some_iff.mp runs
    obtain ⟨_, _, _, -, rfl⟩ := sendPriorNotify_frame returns
    exact ⟨⟨rfl, rfl, rfl⟩, rfl, rfl, rfl⟩
  | peekPost nMsgFilterMin nMsgFilterMax uRemoveMsg =>
    rw [← Option.some.inj runs]
    rcases peekPostMessage_frame nMsgFilterMin nMsgFilterMax uRemoveMsg s.world.queue with
      eq | ⟨eq, -⟩
    · rw [eq]
      exact ⟨⟨rfl, rfl, rfl⟩, rfl, rfl, rfl⟩
    · rw [eq]
      exact ⟨⟨rfl, rfl, rfl⟩, rfl, rfl, rfl⟩
  | timers slots mask =>
    rw [← Option.some.inj runs]
    exact ⟨⟨rfl, rfl, rfl⟩, rfl, rfl, rfl⟩
  | deskTimer =>
    rw [← Option.some.inj runs]
    exact ⟨⟨rfl, rfl, rfl⟩, rfl, rfl, rfl⟩
  | windows root =>
    rw [← Option.some.inj runs]
    exact ⟨⟨rfl, rfl, rfl⟩, rfl, rfl, rfl⟩
  | sendSync => cases other
  | drain => cases other
  | peek => cases other
  | dispatch => cases other
  | throwAway => cases other
  | empty => cases other

/-- A pass that does not end in the synchronous messages leaves them alone. -/
theorem peekPass_syncSame {env : PeekEnv} {args : PeekArgs} {s after : PeekState}
    {outcome : Outcome}
    (effect : PeekEffect env args s outcome after) (other : ∀ addr, outcome ≠ .got (.sync addr))
    (good : outcome ≠ .fault) : SyncSame s.world after.world := by
  cases effect with
  | quit _ jumps =>
    obtain ⟨_, _, eq, -, -⟩ := peekQuit_frame jumps
    rw [eq]
    exact ⟨rfl, rfl, rfl⟩
  | sync first => exact absurd rfl (other first)
  | notify head node tidy removed _ _ _ _ _ _ _ before unlinks after' _ =>
    refine before.syncSame.trans (SyncSame.trans ?_ after'.syncSame)
    split at unlinks
    · obtain ⟨heap, -, rfl⟩ := Option.map_eq_some_iff.mp unlinks
      exact ⟨rfl, rfl, rfl⟩
    · rw [unlinks]
      exact ⟨rfl, rfl, rfl⟩
  | posted tidy _ _ _ _ _ _ _ before after' _ =>
    refine before.syncSame.trans (SyncSame.trans ?_ after'.syncSame)
    split <;> exact ⟨rfl, rfl, rfl⟩
  | paint _ _ _ _ _ tidied _ => exact tidied.syncSame
  | deskTimer tidy _ _ _ _ _ _ _ before after' _ _ =>
    refine before.syncSame.trans (SyncSame.trans ?_ after'.syncSame)
    split <;> exact ⟨rfl, rfl, rfl⟩
  | timer _ slot timer tidy _ _ _ _ _ _ before after' _ =>
    have last := after'.syncSame
    exact before.syncSame.trans ⟨last.frames, last.first, last.last⟩
  | nothing _ _ _ _ _ tidied => exact tidied.syncSame
  | fault => exact absurd rfl good

/-- A pass that ends in the synchronous messages returns the head and unlinks it on request. -/
theorem peekPass_sync {env : PeekEnv} {args : PeekArgs} {s after : PeekState} {first : Addr}
    (effect : PeekEffect env args s (.got (.sync first)) after) :
    s.world.queue.pFirstSyncMsg = some first ∧
      after.pMsg = { (s.world.frames first).msg with pSyncMsg := some first } ∧
      SyncSame (if args.remove then unlinkFirstSync first s.world else s.world) after.world := by
  cases effect with
  | sync _ _ _ _ atHead _ tidied returned =>
    exact ⟨atHead, returned, tidied.syncSame⟩
  | timer _ slot timer _ _ _ _ _ _ _ _ _ outcome =>
    rcases outcome with outcome | ⟨outcome, -⟩ <;> cases outcome

/-- A pass of `PeekMessageEx`, as the list of the senders sees it: the sender at the head is taken or
looked at, or the pass ends elsewhere. -/
inductive SyncPeek (s : State) (env : PeekEnv) (args : PeekArgs) (pMsg : Msg) : State → Prop
  | took (first : Addr) (w : World) (atHead : s.world.queue.pFirstSyncMsg = some first)
      (same : SyncSame (unlinkFirstSync first s.world) w) :
      SyncPeek s env args pMsg { s.setWorld w with
        held := s.held ++ [(.sync first, { (s.world.frames first).msg with pSyncMsg := some first })] }
  | looked (w : World) (same : SyncSame s.world w) : SyncPeek s env args pMsg (s.setWorld w)
  | elsewhere (outcome : Outcome) (after : PeekState)
      (effect : PeekEffect env args ⟨s.world, pMsg⟩ outcome after)
      (other : ∀ addr, outcome ≠ .got (.sync addr)) (same : SyncSame s.world after.world) :
      SyncPeek s env args pMsg ((s.setWorld after.world).hold outcome args.remove after.pMsg)

theorem execPeek_sync {s after : State} {env : PeekEnv} {args : PeekArgs} {pMsg : Msg}
    (runs : execPeek s env args pMsg = some after) : SyncPeek s env args pMsg after := by
  obtain ⟨outcome, afterPass, -, effect, good, rfl⟩ := execPeek_inv runs
  by_cases sync : ∃ addr, outcome = .got (.sync addr)
  · obtain ⟨first, rfl⟩ := sync
    obtain ⟨atHead, returned, same⟩ := peekPass_sync effect
    unfold State.hold
    by_cases remove : args.remove = true
    · rw [if_pos remove] at same
      simp only [if_pos remove, returned]
      exact .took first afterPass.world atHead same
    · rw [if_neg remove] at same
      simp only [if_neg remove]
      exact .looked afterPass.world same
  · have other : ∀ addr, outcome ≠ .got (.sync addr) := fun addr same => sync ⟨addr, same⟩
    exact .elsewhere outcome afterPass effect other (peekPass_syncSame effect other good)

@[simp] theorem State.enqueued_hold {s : State} {outcome : Outcome} {remove : Bool} {pMsg : Msg} :
    (s.hold outcome remove pMsg).enqueued = s.enqueued := by
  unfold State.hold
  split
  · split <;> rfl
  · rfl

/-- What `DispatchMessage` does to the senders' frames. -/
theorem dispatchMessage_frames (procs : Procs) (result : LResult) (pMsg : Msg) (frames : Frames) :
    (dispatchMessage procs result pMsg frames).2 = frames ∨
      ∃ retval, (dispatchMessage procs result pMsg frames).2 =
        completeSync pMsg.pSyncMsg retval frames := by
  unfold dispatchMessage
  split
  · exact .inr ⟨_, rfl⟩
  · split
    · exact .inl rfl
    · split
      · exact .inl rfl
      · exact .inr ⟨_, rfl⟩

/-- Completing a sender writes its result and its semaphore only. -/
theorem completeSync_some (addr : Addr) (retval : LResult) (frames : Frames) :
    (completeSync (some addr) retval frames).pNext = frames.pNext ∧
      (∀ other, (completeSync (some addr) retval frames other).msg = (frames other).msg) ∧
      ∀ other, other ≠ addr → completeSync (some addr) retval frames other = frames other := by
  refine ⟨by simp [completeSync], fun other => ?_, fun other differs => ?_⟩
  · by_cases same : other = addr
    · simp [completeSync, Frames.semPost, Frames.setRetval, same]
    · simp [completeSync, Frames.semPost, Frames.setRetval, same]
  · simp [completeSync, Frames.semPost, Frames.setRetval, differs]

/-- Dispatching moves an entry from one half of the history into the other. -/
theorem takenOut_dispatch {s after : State} {index : ℕ} {source : Source} {pMsg : Msg} {lRet : LResult}
    (found : s.held[index]? = some (source, pMsg)) (held : after.held = s.held.eraseIdx index)
    (dispatched : after.dispatched = s.dispatched ++ [(source, lRet)]) :
    after.takenOut.Perm s.takenOut := by
  obtain ⟨inside, atIndex⟩ := List.getElem?_eq_some_iff.mp found
  have moved := (List.getElem_cons_eraseIdx_perm inside).map Prod.fst
  rw [atIndex, List.map_cons] at moved
  unfold State.takenOut
  rw [held, dispatched, List.map_append, List.map_singleton, ← List.append_assoc]
  exact (List.perm_append_singleton _ _).trans (moved.append_right _)

namespace SyncInv

variable {s after : State} {nodes : List Addr}

/-- Handing out a message from another source changes nothing here. -/
theorem hold (inv : SyncInv s nodes) {outcome : Outcome} {remove : Bool} {pMsg : Msg}
    (other : ∀ addr, outcome ≠ .got (.sync addr)) : SyncInv (s.hold outcome remove pMsg) nodes := by
  unfold State.hold
  split
  · rename_i source
    split
    · refine inv.congr rfl rfl rfl rfl (fun addr => ?_) fun addr msg member => ?_
      · have differs : Source.sync addr ≠ source := fun same => other addr (by rw [same])
        unfold State.takenOut
        simp [differs]
      · refine (List.mem_append.mp member).resolve_right fun new => ?_
        obtain ⟨same, -⟩ := Prod.mk.inj (List.mem_singleton.mp new)
        exact other addr (by rw [same])
    · exact inv
  · exact inv

/-- **Dispatching a message that was taken out** completes its sender, which is not listed. -/
theorem dispatch (inv : SyncInv s nodes) {index : ℕ} {procs : Procs} {result : LResult}
    {addr : Addr} {pMsg : Msg} (found : s.held[index]? = some (.sync addr, pMsg))
    (runs : execDispatch s index procs result = some after) : SyncInv after nodes := by
  obtain ⟨source, pMsg', found', rfl⟩ := execDispatch_inv runs
  obtain ⟨rfl, rfl⟩ := Prod.mk.inj (Option.some.inj (found'.symm.trans found))
  have inHeld : (Source.sync addr, pMsg') ∈ s.held := List.mem_of_getElem? found
  have hidden := inv.hidden addr pMsg' inHeld
  have isTaken : .sync addr ∈ s.takenOut :=
    List.mem_append_left _ (List.mem_map_of_mem (f := Prod.fst) inHeld)
  obtain ⟨wasEnqueued, alive⟩ := inv.taken addr isTaken
  have off : addr ∉ nodes := fun member =>
    (survives_iff.mp (inv.mem_iff.mp member).2).1 isTaken
  set frames := (dispatchMessage procs result pMsg' s.world.frames).2 with framesEq
  obtain ⟨sameNext, sameMsg, sameOther⟩ : Frames.pNext frames = s.world.frames.pNext ∧
      (∀ other, (frames other).msg = (s.world.frames other).msg) ∧
      ∀ other, other ≠ addr → frames other = s.world.frames other := by
    rcases dispatchMessage_frames procs result pMsg' s.world.frames with same | ⟨retval, completed⟩
    · rw [framesEq, same]
      exact ⟨rfl, fun _ => rfl, fun _ _ => rfl⟩
    · rw [framesEq, completed, hidden]
      exact completeSync_some addr retval s.world.frames
  have sameTaken : ∀ other, Source.sync other ∈ State.takenOut { s with
      world := { s.world with frames := frames }
      held := s.held.eraseIdx index
      dispatched := s.dispatched ++ [(.sync addr, procResult procs result pMsg')] } ↔
      .sync other ∈ s.takenOut := fun other => (takenOut_dispatch found rfl rfl).mem_iff
  have survivesNow : survives { s with
      world := { s.world with frames := frames }
      held := s.held.eraseIdx index
      dispatched := s.dispatched ++ [(.sync addr, procResult procs result pMsg')] } = survives s := by
    funext other
    unfold survives
    rw [decide_eq_decide.mpr (not_congr (sameTaken other))]
    show (_ && decide ((frames other).msg.hwnd ≠ hwndInvalid)) = _
    rw [sameMsg]
  constructor
  case toSyncLinked => exact inv.toSyncLinked.congr sameNext rfl rfl rfl
  case survivors =>
    rw [survivesNow]
    exact inv.survivors
  case unposted =>
    intro other member
    have apart : other ≠ addr := by
      rintro rfl
      exact off member
    show (frames other).semPosts = 0
    rw [sameOther other apart]
    exact inv.unposted other member
  case cancelled =>
    intro other member isMarked
    have marked : (frames other).msg.hwnd = hwndInvalid := isMarked
    rw [sameMsg] at marked
    have apart : other ≠ addr := by
      intro same
      rw [same] at marked
      exact alive marked
    show (frames other).retval = errMsgCanceled ∧ (frames other).semPosts = 1
    rw [sameOther other apart]
    exact inv.cancelled other member marked
  case taken =>
    intro other member
    obtain ⟨old, good⟩ := inv.taken other ((sameTaken other).mp member)
    refine ⟨old, ?_⟩
    show (frames other).msg.hwnd ≠ hwndInvalid
    rw [sameMsg]
    exact good
  case hidden =>
    intro other msg member
    exact inv.hidden other msg (List.mem_of_mem_eraseIdx member)

/-- What leaves the world's list and the history alone keeps the invariant. -/
theorem same (inv : SyncInv s nodes) (kept : SyncKept s after) : SyncInv after nodes :=
  inv.congr kept.world.frames kept.world.first kept.world.last kept.enqueued
    (fun _ => by unfold State.takenOut; rw [kept.held, kept.dispatched])
    (fun _ _ member => by rw [← kept.held]; exact member)

/-- One turn of the drain loop. -/
theorem drain (inv : SyncInv s nodes) (runs : execDrain s = some after) :
    ∃ nodes', SyncInv after nodes' := by
  cases execDrain_effect runs with
  | idle => exact ⟨nodes, inv⟩
  | took first _ atHead => exact ⟨nodes.tail, inv.take atHead rfl rfl rfl rfl⟩
  | cleared => exact ⟨nodes, inv.setWorld rfl rfl rfl⟩

/-- A pass of `PeekMessageEx`. -/
theorem peek (inv : SyncInv s nodes) {env : PeekEnv} {args : PeekArgs} {pMsg : Msg}
    (runs : execPeek s env args pMsg = some after) : ∃ nodes', SyncInv after nodes' := by
  cases execPeek_sync runs with
  | took first w atHead same =>
    exact ⟨nodes.tail, inv.take atHead same.frames same.first same.last rfl⟩
  | looked w same => exact ⟨nodes, inv.setWorld same.frames same.first same.last⟩
  | elsewhere outcome afterPass effect other same =>
    exact ⟨nodes, (inv.setWorld same.frames same.first same.last).hold other⟩

/-- `__mg_throw_away_messages` on a spaced list. -/
theorem throwAway (inv : SyncInv s nodes) {fuel defNrTimers count : ℕ} {win : Windows} {hWnd : Hwnd}
    {w : World}
    (spaced : Spaced (fun addr => isThrown win hWnd (s.world.frames addr).msg.hwnd) nodes)
    (returns : mgThrowAwayMessages fuel defNrTimers win hWnd s.world = some (count, w)) :
    ∃ nodes', SyncInv (s.setWorld w) nodes' := by
  obtain ⟨_, notified, _, synced, _, posted, _, first, second, third, -, rfl⟩ :=
    mgThrowAwayMessages_inv returns
  obtain ⟨_, _, _, -, eq⟩ := throwNotify_frame first
  have moved : SyncInv (s.setWorld notified) nodes :=
    inv.setWorld (by rw [eq]) (by rw [eq]) (by rw [eq])
  have sameFrames : notified.frames = s.world.frames := by rw [eq]
  have cancelled := moved.cancel (w := synced) (by rw [← sameFrames] at spaced; exact spaced) second
  obtain ⟨_, _, -, rfl⟩ := throwPosted_frame third
  exact ⟨_, cancelled.setWorld rfl rfl rfl⟩

/-- `EmptyMessageQueue` cancels every sender. -/
theorem empty (inv : SyncInv s nodes) {fuel : ℕ} {w : World}
    (returns : emptyMessageQueue fuel s.world = some w) :
    ∃ nodes', SyncInv (s.setWorld w) nodes' := by
  obtain ⟨_, synced, heap, first, -, rfl⟩ := emptyMessageQueue_inv returns
  exact ⟨_, (inv.cancel (spaced_all nodes) first).setWorld rfl rfl rfl⟩

/-- **One event that meets the condition.** -/
theorem step (inv : SyncInv s nodes) {event : Event} (meets : spacedStep s event)
    (runs : exec s event = some after) : ∃ nodes', SyncInv after nodes' := by
  by_cases other : leavesSync event = true
  · exact ⟨nodes, inv.same (other_sync other runs)⟩
  cases event with
  | sendSync addr win time pad hWnd msg wParam lParam => exact ⟨_, inv.send runs⟩
  | drain => exact inv.drain runs
  | peek env args pMsg => exact inv.peek runs
  | dispatch index procs result =>
    obtain ⟨source, pMsg, found, -⟩ := execDispatch_inv runs
    obtain ⟨addr, rfl⟩ := meets source pMsg found
    exact ⟨nodes, inv.dispatch found runs⟩
  | throwAway fuel defNrTimers win hWnd =>
    obtain ⟨-, count, w, returns, rfl⟩ := execThrowAway_inv runs
    exact inv.throwAway (meets nodes inv.linked.chain) returns
  | empty fuel =>
    obtain ⟨w, returns, rfl⟩ := Option.map_eq_some_iff.mp runs
    exact inv.empty returns
  | _ => exact absurd rfl other

end SyncInv

/-! ### Every run -/

theorem initial_syncInv (defMsgqueueLen : ℕ) (iBufferLen : ℤ) (buffer : ℕ → Msg) (frames : Frames) :
    SyncInv (State.initial defMsgqueueLen iBufferLen buffer frames) [] where
  linked := Linked.nil
  known := List.forall_mem_nil _
  survivors := rfl
  unposted := fun _ member => absurd member List.not_mem_nil
  cancelled := fun _ member => absurd member List.not_mem_nil
  taken := fun _ member => absurd member List.not_mem_nil
  hidden := fun _ _ member => absurd member List.not_mem_nil

/-- **The list is right as long as throw-away calls find it spaced.** -/
theorem sync_list_ok_when_spaced {s : State} (reached : queueSystem.ReachableBy spacedStep s) :
    SyncListOk s := by
  have inv : ∃ nodes, SyncInv s nodes := by
    refine reached.invariant (fun s => ∃ nodes, SyncInv s nodes) ?_ ?_
    · rintro _ ⟨defMsgqueueLen, iBufferLen, buffer, frames, -, rfl⟩
      exact ⟨[], initial_syncInv defMsgqueueLen iBufferLen buffer frames⟩
    · rintro s event after - ⟨nodes, inv⟩ meets runs
      exact inv.step meets runs
  obtain ⟨nodes, inv⟩ := inv
  exact inv.listOk

/-- The first window of an application. -/
def mainWin : Windows := fun _ => ⟨typeHwnd, typeMainWin, 0⟩

/-- Two senders for two windows, and the first one is cancelled. -/
theorem sync_list_ok_when_spaced_first : ∃ s, State.blank.run [
      .sendSync 1 mainWin 0 none 10 5 0 0, .sendSync 2 mainWin 0 none 20 5 0 0,
      .throwAway 8 16 mainWin 10] = some s ∧ SyncListOk s := by
  have start : queueSystem.ReachableBy spacedStep State.blank := .start blank_init
  have first := start.by_event (Event.sendSync 1 mainWin 0 none 10 5 0 0) trivial rfl
  have second := first.by_event (Event.sendSync 2 mainWin 0 none 20 5 0 0) trivial rfl
  refine ⟨_, rfl, sync_list_ok_when_spaced
    (second.by_event (Event.throwAway 8 16 mainWin 10) ?_ rfl)⟩
  intro nodes chain
  obtain rfl : nodes = [1, 2] := isList_unique chain ⟨rfl, rfl, rfl⟩
  show Isolated _ [2]
  exact ⟨fun hit => absurd hit (by decide), trivial⟩

/-- Two senders for two windows, the second one is cancelled, and a third one enqueues. -/
def loseSender : List Event :=
  [.sendSync 1 mainWin 0 none 10 5 0 0, .sendSync 2 mainWin 0 none 20 5 0 0,
    .throwAway 8 16 mainWin 20, .sendSync 3 mainWin 0 none 10 5 0 0]

/-- **The third sender is lost**: it was linked behind the cancelled node. -/
theorem sync_list_broken : ∃ s, State.blank.run loseSender = some s ∧ ¬ SyncListOk s := by
  refine ⟨_, rfl, fun ok => ?_⟩
  obtain ⟨nodes, chain, -, -, survivors⟩ := ok.list
  have reached : nodes = [1] := isList_unique chain ⟨rfl, rfl⟩
  rw [reached] at survivors
  exact absurd survivors (by decide)

end Aple.Message
