/-
**The ring of posted messages is a bounded list.**

* `pending` — the entries from the read position up to the write position, wrapping around.
* `PostSpec` — what posting does to a bounded list: append, refuse, or overwrite one entry.
* `lastMatch_spec`, `firstMatch_spec` — the two coalescing scans find the last and the first match.
* `shift_spec`, `throwPosted_spec` — the inner loop deletes one entry, the outer one filters.
* **`ring_refines_bounded_list`** — every operation, in every state of every run.
-/

import Aple.Lib.RingBuffer
import Aple.Message.Frame
import Aple.Message.PeekEffect

namespace Aple.Message

open Aple.Lib

/-! ### The list -/

/-- Both positions are inside the buffer. -/
structure RingOk (q : MsgQueue) : Prop where
  read : q.readpos < q.len
  write : q.writepos < q.len

/-- The entries from `readpos` up to `writepos` modulo `len`. -/
def pending (q : MsgQueue) : List Msg := Ring.contents q.msg q.len q.readpos q.writepos

theorem pending_length (q : MsgQueue) :
    (pending q).length = Ring.used q.len q.readpos q.writepos := by
  rw [pending, Ring.contents_length, Ring.window_length]

/-- What posting `msg` does to a list bounded by `cap`: the return value and the list. -/
inductive PostSpec (cap : ℕ) (msg : Msg) (entries : List Msg) : Bool → List Msg → Prop
  /-- No entry to merge with, and room. -/
  | appended :
      (isMouseMoveClass msg.message = true → ∀ entry ∈ entries, sameMouseKey msg entry = false) →
      (isMouseMoveClass msg.message = false → isTimeoutClass msg.message = true →
        ∀ entry ∈ entries, sameTimeoutKey msg entry = false) →
      entries.length < cap → PostSpec cap msg entries true (entries ++ [msg])
  /-- No entry to merge with, and no room. -/
  | refused :
      (isMouseMoveClass msg.message = true → ∀ entry ∈ entries, sameMouseKey msg entry = false) →
      (isMouseMoveClass msg.message = false → isTimeoutClass msg.message = true →
        ∀ entry ∈ entries, sameTimeoutKey msg entry = false) →
      ¬ entries.length < cap → PostSpec cap msg entries false entries
  /-- The last entry for the same mouse key gets the new position and time. -/
  | mergedMouse (before after : List Msg) (entry : Msg) :
      isMouseMoveClass msg.message = true → entries = before ++ entry :: after →
      sameMouseKey msg entry = true → (∀ later ∈ after, sameMouseKey msg later = false) →
      PostSpec cap msg entries true
        (before ++ { entry with lParam := msg.lParam, time := msg.time } :: after)
  /-- The first entry for the same timeout key gets the new parameters and time. -/
  | mergedTimeout (before after : List Msg) (entry : Msg) :
      isMouseMoveClass msg.message = false → isTimeoutClass msg.message = true →
      entries = before ++ entry :: after → sameTimeoutKey msg entry = true →
      (∀ earlier ∈ before, sameTimeoutKey msg earlier = false) →
      PostSpec cap msg entries true
        (before ++ { entry with
          wParam := msg.wParam, lParam := msg.lParam, time := msg.time } :: after)

/-! ### The scans -/

/-- The first scan finds the last match of the window. -/
theorem lastMatch_spec {q : MsgQueue} (ok : RingOk q) (msg : Msg) :
    LoopSpec (lastMatchTurn q msg) (q.readpos, none) (pending q).length (fun found =>
      found = (Ring.window q.len q.readpos q.writepos).reverse.find?
        fun p => sameMouseKey msg (q.msg p)) := by
  refine loop_total (fun bound (v : ℕ × Option ℕ) => v.1 < q.len ∧
    bound = Ring.used q.len v.1 q.writepos ∧
    ∃ seen, Ring.window q.len q.readpos q.writepos = seen ++ Ring.window q.len v.1 q.writepos ∧
      v.2 = seen.reverse.find? fun p => sameMouseKey msg (q.msg p)) _ ?_
    ⟨ok.read, pending_length q, [], rfl, rfl⟩
  rintro bound ⟨p, lastMsg⟩ ⟨inside, rfl, seen, split, found⟩
  have inside : p < q.len := inside
  unfold lastMatchTurn
  by_cases done : p = q.writepos
  · refine ⟨_, if_pos done, ?_⟩
    show lastMsg = _
    have split : _ = seen ++ Ring.window q.len p q.writepos := split
    rw [done, Ring.window_self, List.append_nil] at split
    rw [split]
    exact found
  · refine ⟨_, if_neg done, Ring.used q.len ((p + 1) % q.len) q.writepos, ?_,
      Ring.succ_mod_lt inside, rfl, seen ++ [p], ?_, ?_⟩
    · show _ < Ring.used q.len p q.writepos
      rw [Ring.used_succ_left inside ok.write done]
      exact Nat.lt_succ_self _
    · rw [split, List.append_assoc, List.singleton_append]
      congr 1
      exact Ring.window_cons inside ok.write done
    · rw [List.reverse_concat, List.find?_cons]
      show (if sameMouseKey msg (q.msg p) then some p else lastMsg) = _
      cases sameMouseKey msg (q.msg p) with
      | true => rfl
      | false => exact found

/-- The second scan finds the first match of the window. -/
theorem firstMatch_spec {q : MsgQueue} (ok : RingOk q) (msg : Msg) :
    LoopSpec (firstMatchTurn q msg) q.readpos (pending q).length (fun found =>
      found = (Ring.window q.len q.readpos q.writepos).find?
        fun p => sameTimeoutKey msg (q.msg p)) := by
  refine loop_total (fun bound p => p < q.len ∧ bound = Ring.used q.len p q.writepos ∧
    (Ring.window q.len q.readpos q.writepos).find? (fun p => sameTimeoutKey msg (q.msg p)) =
      (Ring.window q.len p q.writepos).find? fun p => sameTimeoutKey msg (q.msg p)) _ ?_
    ⟨ok.read, pending_length q, rfl⟩
  rintro bound p ⟨inside, rfl, same⟩
  unfold firstMatchTurn
  by_cases done : p = q.writepos
  · refine ⟨_, if_pos done, ?_⟩
    show none = _
    rw [same, done, Ring.window_self]
    rfl
  · rw [Ring.window_cons inside ok.write done, List.find?_cons] at same
    rw [if_neg done]
    by_cases hit : sameTimeoutKey msg (q.msg p) = true
    · refine ⟨_, if_pos hit, ?_⟩
      show some p = _
      rw [same, hit]
    · refine ⟨_, if_neg hit, Ring.used q.len ((p + 1) % q.len) q.writepos, ?_,
        Ring.succ_mod_lt inside, rfl, ?_⟩
      · rw [Ring.used_succ_left inside ok.write done]
        exact Nat.lt_succ_self _
      · rw [Bool.not_eq_true] at hit
        rw [same, hit]

/-! ### Posting -/

/-- What posting does to a queue, in terms of the list it stands for. -/
structure Posts (msg : Msg) (q : MsgQueue) (r : Bool × MsgQueue) : Prop where
  inside : RingOk r.2
  list : PostSpec (q.len - 1) msg (pending q) r.1 (pending r.2)
  refused : r.1 = false → r.2 = q

/-- Without a match the message is appended when there is room. -/
theorem writePosted_spec {q : MsgQueue} (ok : RingOk q) {msg : Msg}
    (noMouse : isMouseMoveClass msg.message = true →
      ∀ entry ∈ pending q, sameMouseKey msg entry = false)
    (noTimeout : isMouseMoveClass msg.message = false → isTimeoutClass msg.message = true →
      ∀ entry ∈ pending q, sameTimeoutKey msg entry = false) :
    Posts msg q (writePosted msg q) := by
  have full := Ring.used_full ok.read ok.write
  rw [← pending_length] at full
  unfold writePosted
  by_cases refuses : (q.writepos + 1) % q.len = q.readpos
  · rw [if_pos refuses]
    exact ⟨ok, .refused noMouse noTimeout (full.mp refuses), fun _ => rfl⟩
  · rw [if_neg refuses]
    have room : (pending q).length < q.len - 1 := not_not.mp (full.not.mp refuses)
    have grown : pending (posted { q with
        msg := Function.update q.msg q.writepos msg
        writepos := (q.writepos + 1) % q.len }).2 = pending q ++ [msg] :=
      Ring.contents_push ok.read ok.write refuses msg
    refine ⟨⟨ok.read, Ring.succ_mod_lt ok.write⟩, ?_, fun impossible => by cases impossible⟩
    rw [grown]
    exact .appended noMouse noTimeout room

/-- Overwriting the last entry for a mouse key. -/
theorem mergeMouse_spec {q : MsgQueue} (ok : RingOk q) {msg : Msg} {last : ℕ}
    (mouse : isMouseMoveClass msg.message = true)
    (found : (Ring.window q.len q.readpos q.writepos).reverse.find?
      (fun p => sameMouseKey msg (q.msg p)) = some last) :
    Posts msg q
      (posted { q with msg := Function.update q.msg last (mergeMouse msg (q.msg last)) }) := by
  obtain ⟨hit, after, before, split, none_after⟩ := List.find?_eq_some_iff_append.mp found
  rw [List.reverse_eq_iff, List.reverse_append, List.reverse_cons, List.append_assoc,
    List.singleton_append] at split
  obtain ⟨old, new⟩ :=
    Ring.contents_update ok.read ok.write split q.msg (mergeMouse msg (q.msg last))
  refine ⟨⟨ok.read, ok.write⟩, ?_, fun impossible => by cases impossible⟩
  have merged : pending (posted
      { q with msg := Function.update q.msg last (mergeMouse msg (q.msg last)) }).2 = _ := new
  rw [merged]
  refine .mergedMouse _ _ (q.msg last) mouse old hit fun later member => ?_
  obtain ⟨p, inAfter, rfl⟩ := List.mem_map.mp member
  simpa using none_after p (List.mem_reverse.mp inAfter)

/-- Overwriting the first entry for a timeout key. -/
theorem mergeTimeout_spec {q : MsgQueue} (ok : RingOk q) {msg : Msg} {first : ℕ}
    (notMouse : isMouseMoveClass msg.message = false) (timeout : isTimeoutClass msg.message = true)
    (found : (Ring.window q.len q.readpos q.writepos).find?
      (fun p => sameTimeoutKey msg (q.msg p)) = some first) :
    Posts msg q
      (posted { q with msg := Function.update q.msg first (mergeTimeout msg (q.msg first)) }) := by
  obtain ⟨hit, before, after, split, none_before⟩ := List.find?_eq_some_iff_append.mp found
  obtain ⟨old, new⟩ :=
    Ring.contents_update ok.read ok.write split q.msg (mergeTimeout msg (q.msg first))
  refine ⟨⟨ok.read, ok.write⟩, ?_, fun impossible => by cases impossible⟩
  have merged : pending (posted
      { q with msg := Function.update q.msg first (mergeTimeout msg (q.msg first)) }).2 = _ := new
  rw [merged]
  refine .mergedTimeout _ _ (q.msg first) notMouse timeout old hit fun earlier member => ?_
  obtain ⟨p, inBefore, rfl⟩ := List.mem_map.mp member
  simpa using none_before p inBefore

/-- A scan that found nothing saw every entry. -/
theorem unmatched {q : MsgQueue} {test : Msg → Bool} {slots : List ℕ}
    (all : ∀ p ∈ Ring.window q.len q.readpos q.writepos, p ∈ slots)
    (missing : slots.find? (fun p => test (q.msg p)) = none) :
    ∀ entry ∈ pending q, test entry = false := by
  intro entry member
  obtain ⟨p, inWindow, rfl⟩ := List.mem_map.mp member
  simpa using List.find?_eq_none.mp missing p (all p inWindow)

/-- **Posting.** -/
theorem kernelQueueMessage_spec {q : MsgQueue} (ok : RingOk q) (tick : Dword) (msg : Msg) :
    (∀ fuel, (pending q).length < fuel → ∃ r, kernelQueueMessage fuel tick msg q = some r) ∧
      ∀ fuel r, kernelQueueMessage fuel tick msg q = some r →
        Posts { msg with time := tick } q r := by
  have lastSpec := lastMatch_spec ok { msg with time := tick }
  have firstSpec := firstMatch_spec ok { msg with time := tick }
  constructor
  · intro fuel enough
    obtain ⟨last, lastLooped⟩ := lastSpec.returns fuel enough
    obtain ⟨first, firstLooped⟩ := firstSpec.returns fuel enough
    simp only [kernelQueueMessage, lastLooped, firstLooped]
    cases last <;> cases first <;> split <;> first | exact ⟨_, rfl⟩ | (split <;> exact ⟨_, rfl⟩)
  · intro fuel r returns
    simp only [kernelQueueMessage] at returns
    by_cases mouse : isMouseMoveClass msg.message = true
    · rw [if_pos mouse] at returns
      rcases looped : loop (lastMatchTurn q { msg with time := tick }) fuel (q.readpos, none) with
        _ | _ | last
      · rw [looped] at returns
        cases returns
      · rw [looped] at returns
        rw [← Option.some.inj returns]
        refine writePosted_spec ok (fun _ => unmatched (fun p => List.mem_reverse.mpr) ?_)
          (fun notMouse => absurd mouse (by simp [notMouse]))
        exact (lastSpec.post fuel _ looped).symm
      · rw [looped] at returns
        rw [← Option.some.inj returns]
        exact mergeMouse_spec ok mouse (lastSpec.post fuel _ looped).symm
    · rw [if_neg mouse] at returns
      have notMouse : isMouseMoveClass msg.message = false := by simpa using mouse
      by_cases timeout : isTimeoutClass msg.message = true
      · rw [if_pos timeout] at returns
        rcases looped : loop (firstMatchTurn q { msg with time := tick }) fuel q.readpos with
          _ | _ | first
        · rw [looped] at returns
          cases returns
        · rw [looped] at returns
          rw [← Option.some.inj returns]
          refine writePosted_spec ok (fun mouse' => absurd mouse' mouse)
            (fun _ _ => unmatched (fun p member => member) ?_)
          exact (firstSpec.post fuel _ looped).symm
        · rw [looped] at returns
          rw [← Option.some.inj returns]
          exact mergeTimeout_spec ok notMouse timeout (firstSpec.post fuel _ looped).symm
      · rw [if_neg timeout] at returns
        rw [← Option.some.inj returns]
        exact writePosted_spec ok (fun mouse' => absurd mouse' mouse)
          (fun _ timeout' => absurd timeout' timeout)

/-! ### Throwing away -/

/-- The inner loop copies every later entry down by one. -/
theorem shift_spec {len w p : ℕ} (hp : p < len) (hw : w < len) (pending : p ≠ w)
    (buf : ℕ → Msg) :
    LoopSpec (shiftTurn len w) ⟨p, p, buf⟩ (Ring.used len p w)
      (fun buf' => buf' = Ring.shiftDown len w (Ring.used len p w) p buf) := by
  refine loop_total (fun bound (v : ShiftVars) => v.pos < len ∧ v.oldPos = v.pos ∧ v.pos ≠ w ∧
    bound = Ring.used len v.pos w ∧
    Ring.shiftDown len w bound v.pos v.msg = Ring.shiftDown len w (Ring.used len p w) p buf) _ ?_
    ⟨hp, rfl, pending, rfl, rfl⟩
  rintro bound ⟨pos, oldPos, msg⟩ ⟨inside, same, notEnd, rfl, goal⟩
  obtain rfl : oldPos = pos := same
  have inside : oldPos < len := inside
  have notEnd : oldPos ≠ w := notEnd
  have count := Ring.used_succ_left inside hw notEnd
  have goal : Ring.shiftDown len w (Ring.used len oldPos w) oldPos msg = _ := goal
  rw [count, Ring.shiftDown] at goal
  unfold shiftTurn
  by_cases last : (oldPos + 1) % len = w
  · rw [if_pos last] at goal
    exact ⟨_, if_neg (not_not.mpr last), goal⟩
  · rw [if_neg last] at goal
    refine ⟨_, if_pos last, Ring.used len ((oldPos + 1) % len) w, ?_, Ring.succ_mod_lt inside, rfl,
      last, rfl, goal⟩
    show _ < Ring.used len oldPos w
    rw [count]
    exact Nat.lt_succ_self _

/-- What the outer loop keeps: the slots in `kept` were looked at. -/
def ThrowPostedInv (thrown : Hwnd → Bool) (len r : ℕ) (goal : List Msg) (total bound : ℕ)
    (v : ThrowVars) : Prop :=
  v.readpos < len ∧ v.writepos < len ∧ bound = Ring.used len v.readpos v.writepos ∧
    ∃ kept, Ring.window len r v.writepos = kept ++ Ring.window len v.readpos v.writepos ∧
      kept.map v.msg ++ (Ring.contents v.msg len v.readpos v.writepos).filter
        (fun msg => !thrown msg.hwnd) = goal ∧
      v.nCountP + ((Ring.contents v.msg len v.readpos v.writepos).filter
        fun msg => thrown msg.hwnd).length = total

theorem throwPostedTurn_inv {thrown : Hwnd → Bool} {len r fuel : ℕ} {goal : List Msg}
    {total bound : ℕ} {v : ThrowVars} (hr : r < len) (enough : bound < fuel)
    (inv : ThrowPostedInv thrown len r goal total bound v) :
    ∃ out, throwPostedTurn fuel thrown len v = some out ∧
      out.elim (fun v' => ∃ bound' < bound, ThrowPostedInv thrown len r goal total bound' v')
        (fun v' => v'.writepos < len ∧ Ring.contents v'.msg len r v'.writepos = goal ∧
          v'.nCountP = total) := by
  obtain ⟨p, w, buf, count⟩ := v
  obtain ⟨hp, hw, rfl, kept, split, contents, counted⟩ := inv
  have hp : p < len := hp
  have hw : w < len := hw
  have split : Ring.window len r w = kept ++ Ring.window len p w := split
  have contents : kept.map buf ++ (Ring.contents buf len p w).filter
    (fun msg => !thrown msg.hwnd) = goal := contents
  have counted : count + ((Ring.contents buf len p w).filter
    fun msg => thrown msg.hwnd).length = total := counted
  unfold throwPostedTurn
  by_cases done : p = w
  · subst done
    rw [Ring.window_self, List.append_nil] at split
    rw [Ring.contents_self, List.filter_nil, List.append_nil] at contents
    rw [Ring.contents_self] at counted
    refine ⟨_, if_pos rfl, hw, ?_, counted⟩
    show (Ring.window len r p).map buf = goal
    rw [split, contents]
  · rw [Ring.contents_pop hp hw done] at contents counted
    simp only [if_neg done]
    by_cases hit : thrown (buf p).hwnd = true
    · -- delete the entry: the read position stays, the write position goes back by one
      rw [List.filter_cons, if_neg (by simp [hit])] at contents
      rw [List.filter_cons, if_pos hit, List.length_cons] at counted
      rw [if_pos hit]
      have moved := shift_spec hp hw done
        (Function.update buf p { buf p with hwnd := hwndInvalid })
      obtain ⟨shifted, looped⟩ := moved.returns fuel enough
      rw [looped]
      have result := moved.post fuel shifted looped
      have rest : Ring.contents shifted len p (Ring.pred len w) =
          Ring.contents buf len ((p + 1) % len) w := by
        rw [result]
        exact Ring.contents_shiftDown_update hp hw done buf _ (Nat.le_refl _)
      have keptOff : ∀ q ∈ kept, q ∉ Ring.window len p w := by
        have nodup := Ring.window_nodup hr hw
        rw [split, List.nodup_append] at nodup
        exact fun q inKept inRest => nodup.2.2 q inKept q inRest rfl
      have keptSame : kept.map shifted = kept.map buf := by
        refine List.map_congr_left fun q member => ?_
        rw [result]
        exact Ring.shiftDown_update_frame hp hw done buf _ (keptOff q member)
      have windowed : Ring.window len p w ≠ [] := by
        rw [Ring.window_cons hp hw done]
        exact List.cons_ne_nil _ _
      have someLeft : r ≠ w := by
        rintro rfl
        rw [Ring.window_self] at split
        exact windowed (List.append_eq_nil_iff.mp split.symm).2
      refine ⟨_, rfl, Ring.used len p (Ring.pred len w), ?_, hp, Ring.pred_lt hw, rfl, kept, ?_, ?_, ?_⟩
      · show _ < Ring.used len p w
        have shorter := congrArg List.length (Ring.window_pred hp hw done)
        rw [List.length_dropLast, Ring.window_length, Ring.window_length] at shorter
        have some_slot := (Ring.used_eq_zero (w := w) hp).not.mpr done
        omega
      · show Ring.window len r (Ring.pred len w) = kept ++ Ring.window len p (Ring.pred len w)
        rw [Ring.window_pred hr hw someLeft, Ring.window_pred hp hw done, split,
          List.dropLast_append_of_ne_nil windowed]
      · show kept.map shifted ++ (Ring.contents shifted len p (Ring.pred len w)).filter _ = goal
        rw [keptSame, rest, contents]
      · show count + 1 + ((Ring.contents shifted len p (Ring.pred len w)).filter _).length = total
        rw [rest, ← counted]
        omega
    · -- keep the entry
      rw [List.filter_cons, if_pos (by simpa using hit)] at contents
      rw [List.filter_cons, if_neg hit] at counted
      rw [if_neg hit]
      refine ⟨_, rfl, Ring.used len ((p + 1) % len) w, ?_, Ring.succ_mod_lt hp, hw, rfl,
        kept ++ [p], ?_, ?_, counted⟩
      · show _ < Ring.used len p w
        rw [Ring.used_succ_left hp hw done]
        exact Nat.lt_succ_self _
      · rw [split, List.append_assoc, List.singleton_append]
        congr 1
        exact Ring.window_cons hp hw done
      · show (kept ++ [p]).map buf ++ (Ring.contents buf len ((p + 1) % len) w).filter _ = goal
        rw [List.map_append, List.append_assoc, ← contents]
        rfl

/-- The fuel of the inner loop does not matter as long as it suffices. -/
theorem throwPostedTurn_agree {thrown : Hwnd → Bool} {len fuel fuel' : ℕ} {v : ThrowVars}
    {out out' : ThrowVars ⊕ ThrowVars} (first : throwPostedTurn fuel thrown len v = some out)
    (second : throwPostedTurn fuel' thrown len v = some out') : out = out' := by
  unfold throwPostedTurn at first second
  by_cases done : v.readpos = v.writepos
  · rw [if_pos done] at first second
    exact Option.some.inj (first.symm.trans second)
  · rw [if_neg done] at first second
    by_cases hit : thrown (v.msg v.readpos).hwnd = true
    · simp only [if_pos hit] at first second
      split at first
      · cases first
      rename_i msg looped
      split at second
      · cases second
      rename_i msg' looped'
      obtain rfl : msg = msg' := loop_agree looped looped'
      exact Option.some.inj (first.symm.trans second)
    · rw [if_neg hit] at first second
      exact Option.some.inj (first.symm.trans second)

/-- **Throwing away filters.** -/
theorem throwPosted_spec {q : MsgQueue} (ok : RingOk q) (thrown : Hwnd → Bool) :
    (∀ fuel, (pending q).length < fuel → ∃ r, throwPosted fuel thrown q = some r) ∧
      ∀ fuel count q', throwPosted fuel thrown q = some (count, q') →
        RingOk q' ∧ pending q' = (pending q).filter (fun msg => !thrown msg.hwnd) ∧
          count = ((pending q).filter fun msg => thrown msg.hwnd).length := by
  have inv : ThrowPostedInv thrown q.len q.readpos
      ((pending q).filter fun msg => !thrown msg.hwnd)
      ((pending q).filter fun msg => thrown msg.hwnd).length (pending q).length
      ⟨q.readpos, q.writepos, q.msg, 0⟩ :=
    ⟨ok.read, ok.write, pending_length q, [], rfl, rfl, Nat.zero_add _⟩
  constructor
  · intro fuel enough
    have spec : LoopSpec (throwPostedTurn fuel thrown q.len) ⟨q.readpos, q.writepos, q.msg, 0⟩
        (pending q).length (fun _ => True) := by
      refine loop_total (fun bound v => bound < fuel ∧ ThrowPostedInv thrown q.len q.readpos
        _ _ bound v) _ ?_ ⟨enough, inv⟩
      rintro bound v ⟨enough, inv⟩
      obtain ⟨out, turn, good⟩ := throwPostedTurn_inv ok.read enough inv
      refine ⟨out, turn, ?_⟩
      cases out with
      | inl v' =>
        obtain ⟨bound', fewer, inv'⟩ := good
        exact ⟨bound', fewer, Nat.lt_trans fewer enough, inv'⟩
      | inr v' => exact trivial
    obtain ⟨v, looped⟩ := spec.returns fuel enough
    simp [throwPosted, looped]
  · intro fuel count q' returns
    unfold throwPosted at returns
    split at returns
    · cases returns
    rename_i v looped
    obtain ⟨rfl, rfl⟩ := Prod.mk.inj (Option.some.inj returns)
    obtain ⟨inside, contents, counted⟩ := loop_partial
      (fun v => ∃ bound, ThrowPostedInv thrown q.len q.readpos _ _ bound v) _ (fun v out inv turn => by
        obtain ⟨bound, inv⟩ := inv
        obtain ⟨out', turn', good⟩ := throwPostedTurn_inv ok.read (Nat.lt_succ_self bound) inv
        obtain rfl : out = out' := throwPostedTurn_agree turn turn'
        cases out with
        | inl v' =>
          obtain ⟨bound', -, inv'⟩ := good
          exact ⟨bound', inv'⟩
        | inr v' => exact good) ⟨_, inv⟩ looped
    exact ⟨⟨ok.read, inside⟩, contents, counted⟩

/-! ### Reading -/

/-- The ring of two queues is the same. -/
structure RingSame (q q' : MsgQueue) : Prop where
  len : q'.len = q.len
  msg : q'.msg = q.msg
  readpos : q'.readpos = q.readpos
  writepos : q'.writepos = q.writepos

namespace RingSame

variable {q q' : MsgQueue}

theorem refl (q : MsgQueue) : RingSame q q := ⟨rfl, rfl, rfl, rfl⟩

theorem pending (same : RingSame q q') : pending q' = Message.pending q := by
  unfold Message.pending
  rw [same.len, same.msg, same.readpos, same.writepos]

theorem ok (same : RingSame q q') (ok : RingOk q) : RingOk q' :=
  ⟨by rw [same.readpos, same.len]; exact ok.read, by rw [same.writepos, same.len]; exact ok.write⟩

end RingSame

theorem Tidied.ringSame {w w' : World} (tidied : Tidied w w') : RingSame w.queue w'.queue := by
  obtain ⟨_, _, _, eq⟩ := tidied.queue
  rw [eq]
  exact ⟨rfl, rfl, rfl, rfl⟩

/-- **Reading drops the head.** -/
theorem readNext_spec {q : MsgQueue} (ok : RingOk q) (some_pending : q.readpos ≠ q.writepos) :
    RingOk q.readNext ∧ pending q = q.msg q.readpos :: pending q.readNext :=
  ⟨⟨Ring.succ_mod_lt ok.read, ok.write⟩, Ring.contents_pop ok.read ok.write some_pending⟩

/-- The head of the ring is what a pass that ends in the posted messages returns. -/
theorem peekPass_posted {env : PeekEnv} {args : PeekArgs} {s after : PeekState}
    (ok : RingOk s.world.queue) (effect : PeekEffect env args s (.got .posted) after) :
    RingOk after.world.queue ∧ ∃ msg rest, pending s.world.queue = msg :: rest ∧
      isMsgWanted args msg.message = true ∧
      after.pMsg = checkCapturedMouseMessage env { msg with pSyncMsg := none } ∧
      pending after.world.queue = if args.remove then rest else pending s.world.queue := by
  cases effect with
  | posted tidy _ _ _ _ _ some_pending wanted before after' returned =>
    have same := before.ringSame
    obtain ⟨-, popped⟩ := readNext_spec ok some_pending
    obtain ⟨advanced, -⟩ := readNext_spec (same.ok ok)
      (by rw [same.readpos, same.writepos]; exact some_pending)
    have sameNext : RingSame s.world.queue.readNext tidy.queue.readNext :=
      ⟨same.len, same.msg, by unfold MsgQueue.readNext; rw [same.readpos, same.len], same.writepos⟩
    by_cases remove : args.remove = true
    · rw [if_pos remove] at after'
      have result := after'.ringSame
      refine ⟨result.ok advanced, _, _, popped, wanted, returned, ?_⟩
      rw [if_pos remove, result.pending]
      exact sameNext.pending
    · rw [if_neg remove] at after'
      have result := after'.ringSame
      refine ⟨result.ok (same.ok ok), _, _, popped, wanted, returned, ?_⟩
      rw [if_neg remove, result.pending, same.pending]
  | timer _ slot timer _ _ _ _ _ _ _ _ _ outcome =>
    rcases outcome with outcome | ⟨outcome, -⟩ <;> cases outcome

/-- A pass that ends elsewhere leaves the ring alone. -/
theorem peekPass_ring {env : PeekEnv} {args : PeekArgs} {s after : PeekState} {outcome : Outcome}
    (effect : PeekEffect env args s outcome after) (other : outcome ≠ .got .posted)
    (good : outcome ≠ .fault) : RingSame s.world.queue after.world.queue := by
  cases effect with
  | quit _ jumps =>
    obtain ⟨_, _, eq, -, -⟩ := peekQuit_frame jumps
    rw [eq]
    exact ⟨rfl, rfl, rfl, rfl⟩
  | sync first _ _ _ _ _ tidied _ =>
    have same := tidied.ringSame
    split at same <;> exact ⟨same.len, same.msg, same.readpos, same.writepos⟩
  | notify head node tidy removed _ _ _ _ _ _ _ before unlinks after' _ =>
    have first := before.ringSame
    have last := after'.ringSame
    have middle : RingSame tidy.queue removed.queue := by
      split at unlinks
      · obtain ⟨heap, -, rfl⟩ := Option.map_eq_some_iff.mp unlinks
        exact ⟨rfl, rfl, rfl, rfl⟩
      · rw [unlinks]
        exact .refl _
    exact ⟨last.len.trans (middle.len.trans first.len), last.msg.trans (middle.msg.trans first.msg),
      last.readpos.trans (middle.readpos.trans first.readpos),
      last.writepos.trans (middle.writepos.trans first.writepos)⟩
  | posted => exact absurd rfl other
  | paint _ _ _ _ _ tidied _ => exact tidied.ringSame
  | deskTimer tidy _ _ _ _ _ _ _ before after' _ _ =>
    have first := before.ringSame
    have last := after'.ringSame
    split at last <;> exact ⟨last.len.trans first.len, last.msg.trans first.msg,
      last.readpos.trans first.readpos, last.writepos.trans first.writepos⟩
  | timer _ slot timer tidy _ _ _ _ _ _ before after' _ =>
    have first := before.ringSame
    have last := after'.ringSame
    exact ⟨last.len.trans first.len, last.msg.trans first.msg, last.readpos.trans first.readpos,
      last.writepos.trans first.writepos⟩
  | nothing _ _ _ _ _ tidied => exact tidied.ringSame
  | fault => exact absurd rfl good

/-- `PeekPostMessage` returns and, on request, drops the head. -/
theorem peekPostMessage_spec {q : MsgQueue} (ok : RingOk q) (nMsgFilterMin nMsgFilterMax : MsgId)
    (uRemoveMsg : BitVec 32) {found : Bool} {pMsg : Msg} {q' : MsgQueue}
    (returns : peekPostMessage nMsgFilterMin nMsgFilterMax uRemoveMsg q = (found, pMsg, q')) :
    RingOk q' ∧ (found = false → q' = q) ∧
      (found = true → ∃ msg rest, pending q = msg :: rest ∧ pMsg = { msg with pSyncMsg := none } ∧
        pending q' = if uRemoveMsg = pmRemove then rest else pending q) := by
  unfold peekPostMessage at returns
  by_cases ready : (q.has .postMsg && q.readpos != q.writepos) = true
  · simp only [if_pos ready] at returns
    rw [Bool.and_eq_true, bne_iff_ne] at ready
    obtain ⟨advanced, popped⟩ := readNext_spec ok ready.2
    by_cases wanted : nMsgFilterMin = 0 ∧ nMsgFilterMax = 0 ∨
        (q.msg q.readpos).message ≤ nMsgFilterMax ∧ (q.msg q.readpos).message ≥ nMsgFilterMin
    · simp only [if_pos wanted, Prod.mk.injEq] at returns
      obtain ⟨rfl, rfl, rfl⟩ := returns
      by_cases remove : uRemoveMsg = pmRemove
      · simp only [if_pos remove]
        exact ⟨advanced, (fun impossible => by cases impossible), fun _ => ⟨_, _, popped, rfl, rfl⟩⟩
      · simp only [if_neg remove]
        exact ⟨ok, (fun impossible => by cases impossible), fun _ => ⟨_, _, popped, rfl, trivial⟩⟩
    · simp only [if_neg wanted, Prod.mk.injEq] at returns
      obtain ⟨rfl, rfl, rfl⟩ := returns
      exact ⟨ok, fun _ => rfl, fun impossible => by cases impossible⟩
  · rw [if_neg ready] at returns
    simp only [Prod.mk.injEq] at returns
    obtain ⟨rfl, rfl, rfl⟩ := returns
    exact ⟨ok, fun _ => rfl, fun impossible => by cases impossible⟩

/-! ### Every run -/

/-- `__mg_throw_away_messages` on the ring, with the number of entries it adds to the count. -/
theorem throwAway_ring {fuel defNrTimers count : ℕ} {win : Windows} {hWnd : Hwnd} {w w' : World}
    (ok : RingOk w.queue) (real : hWnd ≠ hwndNull)
    (returns : mgThrowAwayMessages fuel defNrTimers win hWnd w = some (count, w')) :
    RingOk w'.queue ∧
      pending w'.queue = (pending w.queue).filter (fun msg => !addressedTo win hWnd msg.hwnd) ∧
      ∃ nCountN notified nCountS synced,
        throwNotify fuel (isThrown win hWnd) w = some (nCountN, notified) ∧
        cancelSync fuel (isThrown win hWnd) notified = some (nCountS, synced) ∧
        count = nCountN + nCountS +
          ((pending w.queue).filter fun msg => addressedTo win hWnd msg.hwnd).length := by
  obtain ⟨nCountN, notified, nCountS, synced, nCountP, posted, mask, first, second, third, rfl, rfl⟩ :=
    mgThrowAwayMessages_inv returns
  have before : RingSame w.queue synced.queue := by
    obtain ⟨_, _, _, -, rfl⟩ := throwNotify_frame first
    obtain ⟨_, _, -, rfl⟩ := cancelSync_frame second
    exact ⟨rfl, rfl, rfl, rfl⟩
  obtain ⟨inside, filtered, counted⟩ := (throwPosted_spec (before.ok ok) _).2 _ _ _ third
  rw [isThrown_eq_addressedTo real, before.pending] at filtered counted
  have after : RingSame posted { posted with expiredTimerMask := mask } := ⟨rfl, rfl, rfl, rfl⟩
  refine ⟨after.ok inside, after.pending.trans filtered, nCountN, notified, nCountS, synced, first,
    second, ?_⟩
  rw [counted]

theorem empty_ring {fuel : ℕ} {w w' : World} (ok : RingOk w.queue)
    (returns : emptyMessageQueue fuel w = some w') :
    RingOk w'.queue ∧ pending w'.queue = [] := by
  obtain ⟨_, synced, heap, first, -, rfl⟩ := emptyMessageQueue_inv returns
  obtain ⟨_, _, -, rfl⟩ := cancelSync_frame first
  have positive : 0 < w.queue.len := Nat.lt_of_le_of_lt (Nat.zero_le _) ok.read
  exact ⟨⟨positive, positive⟩, Ring.contents_self _ _ _⟩

/-- The events that do not work on the ring. -/
def leavesRing : Event → Bool
  | .queueMessage .. | .post .. | .peek .. | .peekPost .. | .throwAway .. | .empty .. => false
  | _ => true

theorem other_ring {s after : State} {event : Event} (other : leavesRing event = true)
    (runs : exec s event = some after) : RingSame s.world.queue after.world.queue := by
  cases event with
  | postQuit =>
    rw [← Option.some.inj runs]
    show RingSame _ (postQuitMessage s.world.queue)
    unfold postQuitMessage
    split <;> exact ⟨rfl, rfl, rfl, rfl⟩
  | sendNotify addr tick pad hWnd nMsg wParam lParam =>
    obtain ⟨w, returns, rfl⟩ := Option.map_eq_some_iff.mp runs
    obtain ⟨_, _, _, -, rfl⟩ := appendNotify_frame returns
    exact ⟨rfl, rfl, rfl, rfl⟩
  | notify addr pad hWnd id code dwAddData =>
    obtain ⟨w, returns, rfl⟩ := Option.map_eq_some_iff.mp runs
    obtain ⟨_, _, _, -, rfl⟩ := appendNotify_frame returns
    exact ⟨rfl, rfl, rfl, rfl⟩
  | sendPriorNotify addr tick pad hWnd nMsg wParam lParam =>
    obtain ⟨w, returns, rfl⟩ := Option.map_eq_some_iff.mp runs
    obtain ⟨_, _, _, -, rfl⟩ := sendPriorNotify_frame returns
    exact ⟨rfl, rfl, rfl, rfl⟩
  | sendSync addr win time pad hWnd msg wParam lParam =>
    obtain ⟨-, -, w, returns, rfl⟩ := execSendSync_inv runs
    obtain ⟨_, _, -, rfl⟩ := linkSync_frame returns
    exact ⟨rfl, rfl, rfl, rfl⟩
  | drain => cases execDrain_effect runs <;> exact ⟨rfl, rfl, rfl, rfl⟩
  | dispatch index procs result =>
    obtain ⟨_, _, _, rfl⟩ := execDispatch_inv runs
    exact .refl _
  | timers slots mask =>
    rw [← Option.some.inj runs]
    exact ⟨rfl, rfl, rfl, rfl⟩
  | deskTimer =>
    rw [← Option.some.inj runs]
    exact ⟨rfl, rfl, rfl, rfl⟩
  | windows root =>
    rw [← Option.some.inj runs]
    exact ⟨rfl, rfl, rfl, rfl⟩
  | queueMessage => cases other
  | post => cases other
  | peek => cases other
  | peekPost => cases other
  | throwAway => cases other
  | empty => cases other

/-- **The positions stay inside the buffer.** -/
theorem ring_step {s after : State} {event : Event} (ok : RingOk s.world.queue)
    (runs : exec s event = some after) : RingOk after.world.queue := by
  by_cases other : leavesRing event = true
  · exact (other_ring other runs).ok ok
  cases event with
  | queueMessage fuel tick msg =>
    obtain ⟨r, returns, rfl⟩ := Option.map_eq_some_iff.mp runs
    exact ((kernelQueueMessage_spec ok tick msg).2 fuel r returns).inside
  | post fuel tick pad hWnd nMsg wParam lParam =>
    obtain ⟨r, returns, rfl⟩ := Option.map_eq_some_iff.mp runs
    unfold postMessage at returns
    split at returns
    · rw [← Option.some.inj returns]
      exact ⟨ok.read, ok.write⟩
    · exact ((kernelQueueMessage_spec ok tick _).2 fuel r returns).inside
  | peek env args pMsg =>
    obtain ⟨outcome, afterPass, -, effect, good, rfl⟩ := execPeek_inv runs
    rw [State.world_hold]
    by_cases took : outcome = .got .posted
    · subst took
      exact (peekPass_posted ok effect).1
    · exact (peekPass_ring effect took good).ok ok
  | peekPost nMsgFilterMin nMsgFilterMax uRemoveMsg =>
    rw [← Option.some.inj runs]
    exact (peekPostMessage_spec ok nMsgFilterMin nMsgFilterMax uRemoveMsg rfl).1
  | throwAway fuel defNrTimers win hWnd =>
    obtain ⟨real, count, w, returns, rfl⟩ := execThrowAway_inv runs
    exact (throwAway_ring ok real returns).1
  | empty fuel =>
    obtain ⟨w, returns, rfl⟩ := Option.map_eq_some_iff.mp runs
    exact (empty_ring ok returns).1
  | _ => exact absurd rfl other

theorem reachable_ring {s : State} (reached : queueSystem.Reachable s) : RingOk s.world.queue := by
  refine reached.invariant (fun s => RingOk s.world.queue) ?_ ?_
  · rintro _ ⟨defMsgqueueLen, iBufferLen, buffer, frames, positive, rfl⟩
    have room : 0 < (mgInitMsgQueue defMsgqueueLen iBufferLen buffer).len := by
      show 0 < if iBufferLen ≤ 0 then defMsgqueueLen else iBufferLen.toNat
      split <;> omega
    exact ⟨room, room⟩
  · rintro s event after - ok - runs
    exact ring_step ok runs

/-- What holds of the ring of a state, with `pending` the list it stands for. -/
structure RingRefines (s : State) : Prop where
  inside : RingOk s.world.queue
  /-- Posting returns, and appends, refuses or overwrites one entry. -/
  posts : ∀ tick msg,
    (∀ fuel, (pending s.world.queue).length < fuel →
      ∃ r, kernelQueueMessage fuel tick msg s.world.queue = some r) ∧
    ∀ fuel r, kernelQueueMessage fuel tick msg s.world.queue = some r →
      Posts { msg with time := tick } s.world.queue r
  /-- A pass that returns a posted message returns the head and drops it on request. -/
  peeks : ∀ env args pMsg after, peekPass env args ⟨s.world, pMsg⟩ = (.got .posted, after) →
    ∃ msg rest, pending s.world.queue = msg :: rest ∧ isMsgWanted args msg.message = true ∧
      after.pMsg = checkCapturedMouseMessage env { msg with pSyncMsg := none } ∧
      pending after.world.queue = if args.remove then rest else pending s.world.queue
  /-- Any other pass leaves the list alone. -/
  skips : ∀ env args pMsg outcome after,
    peekPass env args ⟨s.world, pMsg⟩ = (outcome, after) → outcome ≠ .got .posted →
    outcome ≠ .fault → pending after.world.queue = pending s.world.queue
  /-- `PeekPostMessage` returns the head and drops it on request, or does nothing. -/
  peekPosts : ∀ nMsgFilterMin nMsgFilterMax uRemoveMsg found pMsg q',
    peekPostMessage nMsgFilterMin nMsgFilterMax uRemoveMsg s.world.queue = (found, pMsg, q') →
    (found = false → q' = s.world.queue) ∧
    (found = true → ∃ msg rest, pending s.world.queue = msg :: rest ∧
      pMsg = { msg with pSyncMsg := none } ∧
      pending q' = if uRemoveMsg = pmRemove then rest else pending s.world.queue)
  /-- Throwing away returns, and filters out the entries for the window and its controls. -/
  throwsReturn : ∀ thrown fuel, (pending s.world.queue).length < fuel →
    ∃ r, throwPosted fuel thrown s.world.queue = some r
  throws : ∀ fuel defNrTimers win hWnd count w', hWnd ≠ hwndNull →
    mgThrowAwayMessages fuel defNrTimers win hWnd s.world = some (count, w') →
    pending w'.queue =
      (pending s.world.queue).filter (fun msg => !addressedTo win hWnd msg.hwnd) ∧
    ∃ nCountN notified nCountS synced,
      throwNotify fuel (isThrown win hWnd) s.world = some (nCountN, notified) ∧
      cancelSync fuel (isThrown win hWnd) notified = some (nCountS, synced) ∧
      count = nCountN + nCountS +
        ((pending s.world.queue).filter fun msg => addressedTo win hWnd msg.hwnd).length
  empties : ∀ fuel w', emptyMessageQueue fuel s.world = some w' → pending w'.queue = []
  /-- Nothing else works on the ring. -/
  others : ∀ event after, leavesRing event = true → exec s event = some after →
    pending after.world.queue = pending s.world.queue

/-- **The ring is a bounded list** in every state of every run, for every buffer length. -/
theorem ring_refines_bounded_list {s : State} (reached : queueSystem.Reachable s) :
    RingRefines s := by
  have ok := reachable_ring reached
  constructor
  case inside => exact ok
  case posts => exact fun tick msg => kernelQueueMessage_spec ok tick msg
  case peeks => exact fun env args pMsg after pass => (peekPass_posted ok (peekPass_effect pass)).2
  case skips =>
    intro env args pMsg outcome after pass other good
    exact (peekPass_ring (peekPass_effect pass) other good).pending
  case peekPosts =>
    intro nMsgFilterMin nMsgFilterMax uRemoveMsg found pMsg q' returns
    exact (peekPostMessage_spec ok nMsgFilterMin nMsgFilterMax uRemoveMsg returns).2
  case throwsReturn => exact fun thrown => (throwPosted_spec ok thrown).1
  case throws =>
    intro fuel defNrTimers win hWnd count w' real returns
    exact (throwAway_ring ok real returns).2
  case empties => exact fun fuel w' returns => (empty_ring ok returns).2
  case others => exact fun event after other runs => (other_ring other runs).pending

/-- Three posts, the last of them merged into the first. -/
def mergedPosts : List Event :=
  [.post 8 5 none 1 msgMouseMove 0 7, .post 8 6 none 1 0x0010 0 0,
    .post 8 7 none 1 msgMouseMove 0 9]

theorem ring_refines_bounded_list_merged :
    ∃ s, State.blank.run mergedPosts = some s ∧ RingRefines s :=
  ⟨_, rfl, ring_refines_bounded_list
    (reachable_of_run blank_reachable (rfl : State.blank.run mergedPosts = some _))⟩

end Aple.Message
