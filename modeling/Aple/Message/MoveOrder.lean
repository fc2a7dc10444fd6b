/-
**In which order are mouse moves delivered?**

A mouse move is merged into the pending entry of its kind, wherever that entry stands.

* `Stamped` — a run of the queue with its history: every entry carries the number of the post whose
  position it holds. `delivered` is what was taken from the ring, `waiting` the ring itself.
* `ring_event` — what one event does to the list of posted messages.
* `InOrder related` — of two related messages, a mouse move in front carries the earlier post.
* **`moves_in_order`** — mouse moves of one kind are delivered in the order of their posts; all
  messages of a window are, with respect to its mouse moves, in the runs in which no merge reaches
  over another message of the window.
-/

import Aple.Message.Coalescing

namespace Aple.Message

open Aple.Lib

/-! ### What an event does to the posted messages -/

/-- The message that an event posts to the ring. -/
def Event.posts : Event → Option Msg
  | .queueMessage _ tick msg => some { msg with time := tick }
  | .post _ tick pad hWnd nMsg wParam lParam =>
    if nMsg = msgPaint then none else some ⟨hWnd, nMsg, wParam, lParam, tick, pad⟩
  | _ => none

/-- The event takes the first posted message out of the ring. -/
def Event.takesHead (s : State) : Event → Bool
  | .peek env args pMsg =>
    (peekPass env args ⟨s.world, pMsg⟩).1 == .got .posted && args.remove
  | .peekPost nMsgFilterMin nMsgFilterMax uRemoveMsg =>
    (peekPostMessage nMsgFilterMin nMsgFilterMax uRemoveMsg s.world.queue).1 &&
      uRemoveMsg == pmRemove
  | _ => false

/-- The posted messages that the event throws away. -/
def Event.throwsOut : Event → Msg → Bool
  | .throwAway _ _ win hWnd, msg => addressedTo win hWnd msg.hwnd
  | .empty _, _ => true
  | _, _ => false

/-- The list of posted messages after an event. -/
inductive RingEvent (s : State) (event : Event) (left : List Msg) : Prop
  | posted (msg : Msg) (accepted : Bool) : event.posts = some msg →
      PostSpec (s.world.queue.len - 1) msg (pending s.world.queue) accepted left →
      RingEvent s event left
  | took : event.posts = none → event.takesHead s = true →
      left = (pending s.world.queue).drop 1 → RingEvent s event left
  | filtered : event.posts = none → event.takesHead s = false →
      left = (pending s.world.queue).filter (fun msg => !event.throwsOut msg) →
      RingEvent s event left

theorem ring_event {s after : State} {event : Event} (ok : RingOk s.world.queue)
    (runs : exec s event = some after) : RingEvent s event (pending after.world.queue) := by
  have same : event.posts = none → event.takesHead s = false → (∀ msg, event.throwsOut msg = false) →
      pending after.world.queue = pending s.world.queue →
      RingEvent s event (pending after.world.queue) := by
    intro silent stays keeps left
    refine .filtered silent stays ?_
    rw [left]
    exact (List.filter_eq_self.mpr fun msg _ => by rw [keeps]; rfl).symm
  by_cases other : leavesRing event = true
  · have left := (other_ring other runs).pending
    cases event with
    | queueMessage | post | peek | peekPost | throwAway | empty => cases other
    | _ => exact same rfl rfl (fun _ => rfl) left
  cases event with
  | queueMessage fuel tick msg =>
    obtain ⟨r, returns, rfl⟩ := Option.map_eq_some_iff.mp runs
    exact .posted _ r.1 rfl ((kernelQueueMessage_spec ok tick msg).2 fuel r returns).list
  | post fuel tick pad hWnd nMsg wParam lParam =>
    obtain ⟨r, returns, rfl⟩ := Option.map_eq_some_iff.mp runs
    unfold postMessage at returns
    by_cases paint : nMsg = msgPaint
    · rw [if_pos paint] at returns
      obtain rfl := Option.some.inj returns
      exact same (if_pos paint) rfl (fun _ => rfl) rfl
    · rw [if_neg paint] at returns
      exact .posted _ r.1 (if_neg paint) ((kernelQueueMessage_spec ok tick _).2 fuel r returns).list
  | peek env args pMsg =>
    obtain ⟨outcome, afterPass, pass, effect, good, rfl⟩ := execPeek_inv runs
    rw [State.world_hold] at same ⊢
    by_cases took : outcome = .got .posted
    · subst took
      obtain ⟨-, msg, rest, popped, -, -, left⟩ := peekPass_posted ok effect
      have popped : pending s.world.queue = msg :: rest := popped
      by_cases remove : args.remove = true
      · rw [if_pos remove] at left
        refine .took rfl ?_ (by rw [popped]; exact left)
        show ((peekPass env args ⟨s.world, pMsg⟩).1 == _ && args.remove) = true
        rw [pass, remove]
        rfl
      · rw [if_neg remove] at left
        refine same rfl ?_ (fun _ => rfl) left
        show ((peekPass env args ⟨s.world, pMsg⟩).1 == _ && args.remove) = false
        rw [Bool.not_eq_true] at remove
        rw [remove, Bool.and_false]
    · refine same rfl ?_ (fun _ => rfl) (peekPass_ring effect took good).pending
      show ((peekPass env args ⟨s.world, pMsg⟩).1 == _ && args.remove) = false
      rw [pass, beq_eq_false_iff_ne.mpr took, Bool.false_and]
  | peekPost nMsgFilterMin nMsgFilterMax uRemoveMsg =>
    obtain rfl := Option.some.inj runs
    rcases returns : peekPostMessage nMsgFilterMin nMsgFilterMax uRemoveMsg s.world.queue with
      ⟨found, pMsg, q'⟩
    obtain ⟨-, kept, took⟩ := peekPostMessage_spec ok nMsgFilterMin nMsgFilterMax uRemoveMsg returns
    have takes : Event.takesHead s (.peekPost nMsgFilterMin nMsgFilterMax uRemoveMsg) =
        (found && uRemoveMsg == pmRemove) := by rw [Event.takesHead, returns]
    have result : (s.setQueue (peekPostMessage nMsgFilterMin nMsgFilterMax uRemoveMsg
        s.world.queue).2.2).world.queue = q' := by
      rw [returns]
      rfl
    rw [result] at same
    show RingEvent s _ (pending q')
    cases found with
    | false => exact same rfl (by rw [takes]; rfl) (fun _ => rfl) (by rw [kept rfl])
    | true =>
      obtain ⟨msg, rest, popped, -, left⟩ := took rfl
      by_cases remove : uRemoveMsg = pmRemove
      · rw [if_pos remove] at left
        exact .took rfl (by rw [takes, remove]; rfl) (by rw [popped]; exact left)
      · rw [if_neg remove] at left
        refine same rfl ?_ (fun _ => rfl) left
        rw [takes, beq_eq_false_iff_ne.mpr remove]
        rfl
  | throwAway fuel defNrTimers win hWnd =>
    obtain ⟨real, count, w, returns, rfl⟩ := execThrowAway_inv runs
    exact .filtered rfl rfl (throwAway_ring ok real returns).2.1
  | empty fuel =>
    obtain ⟨w, returns, rfl⟩ := Option.map_eq_some_iff.mp runs
    refine .filtered rfl rfl ((empty_ring ok returns).2.trans ?_)
    exact (List.filter_eq_nil_iff.mpr fun _ _ => by simp [Event.throwsOut]).symm
  | _ => exact absurd rfl other

/-! ### The history of a run -/

/-- A message with the number of the post whose position it carries. -/
abbrev Stamp := Msg × ℕ

/-- A state with the history of its run: how many posts there were, what was taken out of the ring,
and the ring. -/
structure Stamped where
  state : State
  clock : ℕ
  delivered : List Stamp
  waiting : List Stamp

/-- Everything in the order in which it is delivered. -/
def Stamped.history (t : Stamped) : List Stamp := t.delivered ++ t.waiting

/-- A post merges with entries of its key. -/
def mergesWith (msg entry : Msg) : Bool :=
  (coalesceKey msg).isSome && coalesceKey entry == coalesceKey msg

/-- Posting to a list of stamped entries bounded by `cap`. -/
def postStamped (cap : ℕ) (msg : Msg) (stamp : ℕ) (entries : List Stamp) : List Stamp :=
  if entries.any fun entry => mergesWith msg entry.1 then
    entries.map fun entry =>
      if mergesWith msg entry.1 then
        ({ entry.1 with wParam := msg.wParam, lParam := msg.lParam, time := msg.time }, stamp)
      else entry
  else if entries.length < cap then entries ++ [(msg, stamp)]
  else entries

/-- The history after an event that led to `after`. -/
def Stamped.next (t : Stamped) (event : Event) (after : State) : Stamped :=
  match event.posts with
  | some msg => { t with
      state := after
      clock := t.clock + 1
      waiting := postStamped (t.state.world.queue.len - 1) msg t.clock t.waiting }
  | none =>
    if event.takesHead t.state then { t with
      state := after
      delivered := t.delivered ++ t.waiting.take 1
      waiting := t.waiting.drop 1 }
    else { t with
      state := after
      waiting := t.waiting.filter fun entry => !event.throwsOut entry.1 }

/-- The runs of the queue with their history. -/
def orderSystem : System Stamped Event where
  init t := queueSystem.init t.state ∧ t = ⟨t.state, 0, [], []⟩
  step t event t' := ∃ after, exec t.state event = some after ∧ t' = t.next event after

@[simp] theorem Stamped.state_next (t : Stamped) (event : Event) (after : State) :
    (t.next event after).state = after := by
  unfold next
  split
  · rfl
  · split <;> rfl

/-- Every run of the queue has a history. -/
theorem reachable_stamped {s : State} (reached : queueSystem.Reachable s) :
    ∃ t, orderSystem.Reachable t ∧ t.state = s := by
  induction reached with
  | @start s initial => exact ⟨⟨s, 0, [], []⟩, .start ⟨initial, rfl⟩, rfl⟩
  | @next s after event _ _ runs ih =>
    obtain ⟨t, reached, rfl⟩ := ih
    exact ⟨t.next event after, reached.then_step ⟨after, runs, rfl⟩, t.state_next event after⟩

/-- And the other way round. -/
theorem stamped_reachable {allowed : Stamped → Event → Prop} {t : Stamped}
    (reached : orderSystem.ReachableBy allowed t) : queueSystem.Reachable t.state := by
  induction reached with
  | start initial => exact .start initial.1
  | next _ _ step ih =>
    obtain ⟨after, runs, rfl⟩ := step
    rw [Stamped.state_next]
    exact ih.then_step runs

/-! ### The stamped ring is the ring -/

theorem mergesWith_iff {msg entry : Msg} : mergesWith msg entry = true ↔
    coalesceKey msg ≠ none ∧ coalesceKey entry = coalesceKey msg := by
  unfold mergesWith
  rw [Bool.and_eq_true, beq_iff_eq, Option.isSome_iff_ne_none]

/-- A post merges into the one entry of its key. -/
theorem postStamped_merges {cap stamp old : ℕ} {msg entry : Msg} {before behind : List Stamp}
    (unmerged : Unmerged ((before ++ (entry, old) :: behind).map Prod.fst))
    (merges : mergesWith msg entry = true) :
    postStamped cap msg stamp (before ++ (entry, old) :: behind) = before ++
      ({ entry with wParam := msg.wParam, lParam := msg.lParam, time := msg.time }, stamp) ::
        behind := by
  obtain ⟨keyed, same⟩ := mergesWith_iff.mp merges
  obtain ⟨key, hasKey⟩ := Option.ne_none_iff_exists'.mp keyed
  rw [List.map_append, List.map_cons] at unmerged
  obtain ⟨-, tail, across⟩ := List.pairwise_append.mp (unmerged.pairwise key)
  have others : ∀ other : Stamp, other ∈ before ∨ other ∈ behind →
      mergesWith msg other.1 = false := by
    intro other member
    by_contra also
    rw [Bool.not_eq_false, mergesWith_iff, hasKey] at also
    rcases member with member | member
    · exact across other.1 (List.mem_map_of_mem member) entry List.mem_cons_self
        ⟨also.2, same.trans hasKey⟩
    · exact (List.pairwise_cons.mp tail).1 other.1 (List.mem_map_of_mem member)
        ⟨same.trans hasKey, also.2⟩
  have keep : ∀ entries : List Stamp, (∀ other ∈ entries, other ∈ before ∨ other ∈ behind) →
      entries.map (fun other => if mergesWith msg other.1 then
        ({ other.1 with wParam := msg.wParam, lParam := msg.lParam, time := msg.time }, stamp)
        else other) = entries := by
    intro entries inside
    refine (List.map_congr_left fun other member => ?_).trans (List.map_id _)
    rw [others other (inside other member)]
    rfl
  unfold postStamped
  rw [if_pos (List.any_eq_true.mpr ⟨(entry, old), by simp, merges⟩), List.map_append, List.map_cons,
    keep before fun _ => .inl, keep behind fun _ => .inr, if_pos merges]

/-- Without an entry of its key a post appends or is refused. -/
theorem postStamped_unmerged {cap stamp : ℕ} {msg : Msg} {entries : List Stamp}
    (alone : ∀ entry ∈ entries, mergesWith msg entry.1 = false) :
    postStamped cap msg stamp entries =
      if entries.length < cap then entries ++ [(msg, stamp)] else entries := by
  unfold postStamped
  refine if_neg fun some_merges => ?_
  obtain ⟨entry, member, merges⟩ := List.any_eq_true.mp some_merges
  rw [alone entry member] at merges
  cases merges

theorem mergesWith_mouse {msg entry : Msg} (mouse : isMouseMoveClass msg.message = true) :
    mergesWith msg entry = true ↔ sameMouseKey msg entry = true := by
  rw [mergesWith_iff, sameMouseKey_iff_key mouse]
  exact and_iff_right (by rw [coalesceKey_mouse mouse]; simp)

/-- **Posting to the stamped list** is posting to the list. -/
theorem postStamped_refines {cap stamp : ℕ} {msg : Msg} {entries : List Stamp} {accepted : Bool}
    {left : List Msg} (unmerged : Unmerged (entries.map Prod.fst))
    (posts : PostSpec cap msg (entries.map Prod.fst) accepted left) :
    (postStamped cap msg stamp entries).map Prod.fst = left := by
  by_cases some_merges : ∃ entry ∈ entries, mergesWith msg entry.1 = true
  · obtain ⟨⟨entry, old⟩, member, merges⟩ := some_merges
    obtain ⟨before, behind, rfl⟩ := List.append_of_mem member
    rw [postStamped_merges unmerged merges]
    rw [List.map_append, List.map_cons] at unmerged posts ⊢
    obtain ⟨keyed, same⟩ := mergesWith_iff.mp merges
    exact (posts.merges unmerged keyed same).2.symm
  · have alone : ∀ entry ∈ entries, mergesWith msg entry.1 = false := fun entry member =>
      Bool.eq_false_iff.mpr fun merges => some_merges ⟨entry, member, merges⟩
    have absent : ∀ entry ∈ entries.map Prod.fst, mergesWith msg entry = false := by
      intro entry member
      obtain ⟨stamped, inside, rfl⟩ := List.mem_map.mp member
      exact alone stamped inside
    rw [postStamped_unmerged alone]
    cases posts with
    | appended _ _ room =>
      rw [List.length_map] at room
      rw [if_pos room, List.map_append]
      rfl
    | refused _ _ full =>
      rw [List.length_map] at full
      rw [if_neg full]
    | mergedMouse before after entry mouse split same =>
      have merges := absent entry (by rw [split]; simp)
      rw [(mergesWith_mouse mouse).mpr same] at merges
      cases merges
    | mergedTimeout before after entry notMouse timeout split same =>
      have merges := absent entry (by rw [split]; simp)
      have key := (sameTimeoutKey_iff_key timeout).mp same
      rw [mergesWith_iff.mpr ⟨by rw [coalesceKey_timeout timeout]; simp, key⟩] at merges
      cases merges

/-! ### What every run keeps -/

/-- Of two related messages, a mouse move in front carries the position of the earlier post. -/
def InOrder (related : Msg → Msg → Prop) (first second : Stamp) : Prop :=
  isMouseMoveClass first.1.message = true → related first.1 second.1 → first.2 < second.2

/-- The history stands for the ring, and is in order. -/
structure HistoryOk (related : Msg → Msg → Prop) (t : Stamped) : Prop where
  refines : t.waiting.map Prod.fst = pending t.state.world.queue
  past : ∀ entry ∈ t.history, entry.2 < t.clock
  order : t.history.Pairwise (InOrder related)

/-- Overwriting one element of an ordered list. -/
theorem pairwise_overwrite {α : Type} {R : α → α → Prop} {before behind : List α} {old new : α}
    (ordered : (before ++ old :: behind).Pairwise R) (ahead : ∀ other ∈ before, R other new)
    (after : ∀ other ∈ behind, R new other) : (before ++ new :: behind).Pairwise R := by
  obtain ⟨first, second, across⟩ := List.pairwise_append.mp ordered
  refine List.pairwise_append.mpr ⟨first, ?_, fun other member last inside => ?_⟩
  · exact List.pairwise_cons.mpr ⟨after, (List.pairwise_cons.mp second).2⟩
  · rcases List.mem_cons.mp inside with rfl | inside
    · exact ahead other member
    · exact across other member last (List.mem_cons_of_mem _ inside)

section

variable {related : Msg → Msg → Prop} {t : Stamped} {after : State} {event : Event}

theorem Stamped.next_posts {msg : Msg} (posts : event.posts = some msg) :
    t.next event after = ⟨after, t.clock + 1, t.delivered,
      postStamped (t.state.world.queue.len - 1) msg t.clock t.waiting⟩ := by
  rw [next, posts]

theorem Stamped.next_takes (silent : event.posts = none) (takes : event.takesHead t.state = true) :
    t.next event after =
      ⟨after, t.clock, t.delivered ++ t.waiting.take 1, t.waiting.drop 1⟩ := by
  rw [next, silent]
  exact if_pos takes

theorem Stamped.next_filters (silent : event.posts = none)
    (stays : event.takesHead t.state = false) : t.next event after =
      ⟨after, t.clock, t.delivered, t.waiting.filter fun entry => !event.throwsOut entry.1⟩ := by
  rw [next, silent]
  exact if_neg (by rw [stays]; simp)

/-- A merging mouse move reaches over no related message. -/
def MergesApart (related : Msg → Msg → Prop) (t : Stamped) (event : Event) : Prop :=
  ∀ msg before entry old behind, event.posts = some msg →
    isMouseMoveClass msg.message = true → t.waiting = before ++ (entry, old) :: behind →
    sameMouseKey msg entry = true → ∀ other ∈ behind, ¬ related msg other.1

/-- **Posting keeps the order** when a merge reaches over no related message. -/
theorem postStamped_order (cap : ℕ) {msg : Msg} (inv : HistoryOk related t)
    (unmerged : Unmerged (pending t.state.world.queue))
    (congr : ∀ first first' second : Msg, first'.hwnd = first.hwnd → first'.message = first.message →
      first'.wParam = first.wParam → related first' second → related first second)
    (apart : ∀ before entry old behind, isMouseMoveClass msg.message = true →
      t.waiting = before ++ (entry, old) :: behind → sameMouseKey msg entry = true →
      ∀ other ∈ behind, ¬ related msg other.1) :
    (∀ entry ∈ t.delivered ++ postStamped cap msg t.clock t.waiting, entry.2 < t.clock + 1) ∧
      (t.delivered ++ postStamped cap msg t.clock t.waiting).Pairwise (InOrder related) := by
  have order : (t.delivered ++ t.waiting).Pairwise (InOrder related) := inv.order
  have past : ∀ entry ∈ t.delivered ++ t.waiting, entry.2 < t.clock := inv.past
  by_cases some_merges : ∃ entry ∈ t.waiting, mergesWith msg entry.1 = true
  · obtain ⟨⟨entry, old⟩, member, merges⟩ := some_merges
    obtain ⟨before, behind, split⟩ := List.append_of_mem member
    have single : Unmerged ((before ++ (entry, old) :: behind).map Prod.fst) := by
      rw [← split, inv.refines]
      exact unmerged
    rw [split, postStamped_merges single merges]
    rw [split] at order past
    rw [← List.append_assoc] at order past ⊢
    refine ⟨fun other inside => ?_, pairwise_overwrite order (fun other inside _ _ => ?_) ?_⟩
    · rcases List.mem_append.mp inside with inside | inside
      · exact Nat.lt_succ_of_lt (past other (List.mem_append_left _ inside))
      · rcases List.mem_cons.mp inside with rfl | inside
        · exact Nat.lt_succ_self _
        · exact Nat.lt_succ_of_lt (past other
            (List.mem_append_right _ (List.mem_cons_of_mem _ inside)))
    · exact past other (List.mem_append_left _ inside)
    · intro other inside mouse same
      have mouse : isMouseMoveClass entry.message = true := mouse
      have key := (mergesWith_iff.mp merges).2
      obtain ⟨message, wParam, hwnd⟩ :=
        sameMouseKey_iff.mp ((sameMouseKey_iff_key mouse).mpr key.symm)
      have reached := sameMouseKey_iff.mpr ⟨message.symm, wParam.symm, hwnd.symm⟩
      have posted : related msg other.1 := congr msg
        { entry with wParam := msg.wParam, lParam := msg.lParam, time := msg.time } other.1
        hwnd.symm message.symm rfl same
      exact absurd posted (apart before entry old behind (by rw [message]; exact mouse) split reached other inside)
  · have alone : ∀ entry ∈ t.waiting, mergesWith msg entry.1 = false := fun entry member =>
      Bool.eq_false_iff.mpr fun merges => some_merges ⟨entry, member, merges⟩
    rw [postStamped_unmerged alone]
    split
    · rw [← List.append_assoc]
      refine ⟨fun other inside => ?_, ?_⟩
      · rcases List.mem_append.mp inside with inside | inside
        · exact Nat.lt_succ_of_lt (past other inside)
        · rw [List.mem_singleton.mp inside]
          exact Nat.lt_succ_self _
      · refine List.pairwise_append.mpr ⟨order, List.pairwise_singleton _ _, ?_⟩
        intro other member last inside _ _
        rw [List.mem_singleton.mp inside]
        exact past other member
    · exact ⟨fun other inside => Nat.lt_succ_of_lt (past other inside), order⟩

/-- **One event** keeps the history in order. -/
theorem history_step (ok : RingOk t.state.world.queue)
    (unmerged : Unmerged (pending t.state.world.queue)) (inv : HistoryOk related t)
    (congr : ∀ first first' second : Msg, first'.hwnd = first.hwnd → first'.message = first.message →
      first'.wParam = first.wParam → related first' second → related first second)
    (apart : MergesApart related t event) (runs : exec t.state event = some after) :
    HistoryOk related (t.next event after) := by
  have order : (t.delivered ++ t.waiting).Pairwise (InOrder related) := inv.order
  cases ring_event ok runs with
  | posted msg accepted posts spec =>
    rw [← inv.refines] at spec
    have single : Unmerged (t.waiting.map Prod.fst) := by
      rw [inv.refines]
      exact unmerged
    rw [Stamped.next_posts posts]
    obtain ⟨past, order⟩ := postStamped_order (t.state.world.queue.len - 1) inv unmerged congr
      fun before entry old behind => apart msg before entry old behind posts
    exact ⟨postStamped_refines single spec, past, order⟩
  | took silent takes left =>
    rw [Stamped.next_takes silent takes]
    have whole : t.delivered ++ t.waiting.take 1 ++ t.waiting.drop 1 = t.delivered ++ t.waiting := by
      rw [List.append_assoc, List.take_append_drop]
    have past : ∀ entry ∈ t.delivered ++ t.waiting, entry.2 < t.clock := inv.past
    rw [← whole] at past order
    refine ⟨?_, past, order⟩
    show (t.waiting.drop 1).map Prod.fst = _
    rw [List.map_drop, inv.refines, left]
  | filtered silent stays left =>
    rw [Stamped.next_filters silent stays]
    have fewer : (t.delivered ++ t.waiting.filter fun entry => !event.throwsOut entry.1).Sublist
        (t.delivered ++ t.waiting) := List.filter_sublist.append_left t.delivered
    refine ⟨?_, fun entry inside => inv.past entry (fewer.subset inside), order.sublist fewer⟩
    show (t.waiting.filter fun entry => !event.throwsOut entry.1).map Prod.fst = _
    rw [left, ← inv.refines, List.filter_map]
    rfl

theorem history_run {allowed : Stamped → Event → Prop}
    (congr : ∀ first first' second : Msg, first'.hwnd = first.hwnd → first'.message = first.message →
      first'.wParam = first.wParam → related first' second → related first second)
    (apart : ∀ t event, Unmerged (t.waiting.map Prod.fst) → allowed t event →
      MergesApart related t event)
    (reached : orderSystem.ReachableBy allowed t) : HistoryOk related t := by
  refine reached.invariant (HistoryOk related) ?_ ?_
  · rintro t ⟨⟨defMsgqueueLen, iBufferLen, buffer, frames, -, initial⟩, fresh⟩
    rw [fresh]
    refine ⟨?_, fun entry inside => absurd inside List.not_mem_nil, List.Pairwise.nil⟩
    show [] = pending t.state.world.queue
    rw [initial]
    exact (Ring.contents_self _ _ _).symm
  · rintro t event _ before inv meets ⟨after, runs, rfl⟩
    have reached := stamped_reachable before
    have unmerged := reachable_unmerged reached
    refine history_step (reachable_ring reached) unmerged inv congr (apart t event ?_ meets) runs
    rw [inv.refines]
    exact unmerged

end

/-! ### The result -/

/-- Two messages that a mouse move is merged by. -/
def SameMove (first second : Msg) : Prop := sameMouseKey first second = true

/-- Two messages for one window. -/
def SameWindow (first second : Msg) : Prop := first.hwnd = second.hwnd

/-- A mouse move that is merged finds no other message of its window behind the entry. -/
def nothingBehind (t : Stamped) (event : Event) : Prop := MergesApart SameWindow t event

/-- What posting a mouse move does to the entry it is merged into, and to the others. -/
def MergesInPlace (q : MsgQueue) : Prop :=
  ∀ fuel tick msg r before entry behind, isMouseMoveClass msg.message = true →
    kernelQueueMessage fuel tick msg q = some r → pending q = before ++ entry :: behind →
    sameMouseKey msg entry = true →
      pending r.2 = before ++ { entry with lParam := msg.lParam, time := tick } :: behind ∧
      ∀ other ∈ behind, sameMouseKey msg other = false

/-- Behind an entry there is no other of its kind. -/
theorem sameMove_apart {msg entry : Msg} {before behind : List Msg}
    (unmerged : Unmerged (before ++ entry :: behind)) (mouse : isMouseMoveClass msg.message = true)
    (same : sameMouseKey msg entry = true) : ∀ other ∈ behind, sameMouseKey msg other = false := by
  intro other member
  by_contra also
  rw [Bool.not_eq_false, sameMouseKey_iff_key mouse, coalesceKey_mouse mouse] at also
  rw [sameMouseKey_iff_key mouse, coalesceKey_mouse mouse] at same
  obtain ⟨-, tail, -⟩ := List.pairwise_append.mp (unmerged.pairwise _)
  exact (List.pairwise_cons.mp tail).1 other member ⟨same, also⟩

theorem merges_in_place {q : MsgQueue} (ok : RingOk q) (unmerged : Unmerged (pending q)) :
    MergesInPlace q := by
  intro fuel tick msg r before entry behind mouse returns split same
  have keyed : coalesceKey msg ≠ none := by
    rw [coalesceKey_mouse mouse]
    simp
  have key := (sameMouseKey_iff_key mouse).mp same
  obtain ⟨-, posted⟩ := (coalesces_of_unmerged ok unmerged).merges tick msg before entry behind split
    keyed key
  rw [split] at unmerged
  refine ⟨?_, sameMove_apart unmerged mouse same⟩
  rw [(posted fuel r returns).2, (sameMouseKey_iff.mp same).2.1]

/-- **Mouse moves of one kind are delivered in the order of their posts**, in every run. With respect
to all messages of the window they are in the runs in which no merge reaches over one of these. -/
theorem moves_in_order {t : Stamped} :
    (orderSystem.Reachable t → MergesInPlace t.state.world.queue ∧ HistoryOk SameMove t) ∧
      (orderSystem.ReachableBy nothingBehind t → HistoryOk SameWindow t) := by
  constructor
  · intro reached
    have queue := stamped_reachable reached
    refine ⟨merges_in_place (reachable_ring queue) (reachable_unmerged queue),
      history_run (fun first first' second hwnd message wParam same => ?_) ?_ reached⟩
    · rw [SameMove, sameMouseKey_iff] at same ⊢
      rwa [hwnd, message, wParam] at same
    · intro t event unmerged _ msg before entry old behind _ mouse split same other inside
      rw [split, List.map_append, List.map_cons] at unmerged
      rw [SameMove, sameMove_apart unmerged mouse same other.1 (List.mem_map_of_mem inside)]
      exact Bool.false_ne_true
  · intro reached
    refine history_run (fun first first' second hwnd _ _ same => ?_) (fun t event _ apart => apart)
      reached
    exact hwnd.symm.trans same

/-- A button press between two mouse moves of one window. -/
def moveButtonMove : List Event :=
  [.post 8 5 none 1 msgMouseMove 0 3, .post 8 6 none 1 msgFirstMouseMsg 0 0,
    .post 8 7 none 1 msgMouseMove 0 4]

/-- The state with its history after a list of events. -/
def Stamped.run (t : Stamped) (events : List Event) : Option Stamped :=
  runEvents (fun t event => (exec t.state event).map (t.next event)) t events

theorem stamped_reachable_of_run {events : List Event} {t after : Stamped}
    (reached : orderSystem.Reachable t) (runs : t.run events = some after) :
    orderSystem.Reachable after := by
  refine reached.run (fun t event next ran => ⟨trivial, ?_⟩) runs
  obtain ⟨s, executed, rfl⟩ := Option.map_eq_some_iff.mp ran
  exact ⟨s, executed, rfl⟩

/-- The queue of four slots before anything was posted. -/
def Stamped.blank : Stamped := ⟨State.blank, 0, [], []⟩

theorem stamped_blank_reachable : orderSystem.Reachable Stamped.blank := .start ⟨blank_init, rfl⟩

/-- The second move is merged into the first one: its position is in front of the button press,
which was posted earlier. -/
theorem move_passes_button : ∃ t, Stamped.blank.run moveButtonMove = some t ∧
    orderSystem.Reachable t ∧
    t.history = [(⟨1, msgMouseMove, 0, 4, 7, none⟩, 2), (⟨1, msgFirstMouseMsg, 0, 0, 6, none⟩, 1)] ∧
    ¬ HistoryOk SameWindow t := by
  refine ⟨_, rfl, stamped_reachable_of_run stamped_blank_reachable
    (rfl : Stamped.blank.run moveButtonMove = some _), rfl,
    fun inv => ?_⟩
  have order := (List.pairwise_cons.mp inv.order).1 (⟨1, msgFirstMouseMsg, 0, 0, 6, none⟩, 1) (by decide)
  exact absurd (order (by decide) rfl) (by decide)

theorem moves_in_order_passed : ∃ t, Stamped.blank.run moveButtonMove = some t ∧
    HistoryOk SameMove t :=
  ⟨_, rfl, (moves_in_order.1 (stamped_reachable_of_run stamped_blank_reachable
    (rfl : Stamped.blank.run moveButtonMove = some _))).2⟩

end Aple.Message
