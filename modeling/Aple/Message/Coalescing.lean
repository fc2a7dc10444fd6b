/-
**Coalesced messages are pending at most once.**

* `coalesceKey` — the key of a message that is merged when it is posted: with the parameter for
  mouse moves, without it for timeouts, idle messages and caret blinks.
* `Unmerged` — the keys of the pending entries are distinct; `PostSpec.unmerged` — every way of
  posting keeps them so, and `unmerged_step` — every event.
* `Coalesces` — what this means for the ring: one entry for each key, so that it does not matter
  from which end the scans start, and a further post of a pending key overwrites that entry.
* **`posted_ring_coalesces`** — in every state of every run.
-/

import Aple.Message.RingFifo

namespace Aple.Message

open Aple.Lib

/-! ### Keys -/

/-- What a message is merged by, if it is merged at all. -/
def coalesceKey (msg : Msg) : Option (MsgId × WParam × Hwnd) :=
  if isMouseMoveClass msg.message then some (msg.message, msg.wParam, msg.hwnd)
  else if isTimeoutClass msg.message then some (msg.message, 0, msg.hwnd)
  else none

/-- No two entries have the same key. -/
def Unmerged (entries : List Msg) : Prop := (entries.filterMap coalesceKey).Nodup

section Keys

variable {msg entry : Msg}

theorem notMouse_of_timeout {message : MsgId} (timeout : isTimeoutClass message = true) :
    isMouseMoveClass message = false := by
  simp only [isTimeoutClass, Bool.or_eq_true, beq_iff_eq] at timeout
  rcases timeout with (rfl | rfl) | rfl <;> decide

theorem sameMouseKey_iff : sameMouseKey msg entry = true ↔
    entry.message = msg.message ∧ entry.wParam = msg.wParam ∧ entry.hwnd = msg.hwnd := by
  simp only [sameMouseKey, Bool.and_eq_true, beq_iff_eq, and_assoc]

theorem sameTimeoutKey_iff : sameTimeoutKey msg entry = true ↔
    entry.message = msg.message ∧ entry.hwnd = msg.hwnd := by
  simp only [sameTimeoutKey, Bool.and_eq_true, beq_iff_eq]

theorem coalesceKey_mouse (mouse : isMouseMoveClass msg.message = true) :
    coalesceKey msg = some (msg.message, msg.wParam, msg.hwnd) := if_pos mouse

theorem coalesceKey_timeout (timeout : isTimeoutClass msg.message = true) :
    coalesceKey msg = some (msg.message, 0, msg.hwnd) := by
  rw [coalesceKey, notMouse_of_timeout timeout, if_neg (by simp), if_pos timeout]

/-- Two mouse moves have one key when the first scan takes them for the same. -/
theorem sameMouseKey_iff_key (mouse : isMouseMoveClass msg.message = true) :
    sameMouseKey msg entry = true ↔ coalesceKey entry = coalesceKey msg := by
  rw [sameMouseKey_iff, coalesceKey_mouse mouse]
  constructor
  · rintro ⟨message, wParam, hwnd⟩
    rw [coalesceKey_mouse (message ▸ mouse), message, wParam, hwnd]
  · intro same
    unfold coalesceKey at same
    split at same
    · simpa using same
    · rename_i notMouse
      split at same
      · simp only [Option.some.injEq, Prod.mk.injEq] at same
        exact absurd (same.1 ▸ mouse) notMouse
      · cases same

/-- Two timeouts have one key when the second scan takes them for the same. -/
theorem sameTimeoutKey_iff_key (timeout : isTimeoutClass msg.message = true) :
    sameTimeoutKey msg entry = true ↔ coalesceKey entry = coalesceKey msg := by
  rw [sameTimeoutKey_iff, coalesceKey_timeout timeout]
  constructor
  · rintro ⟨message, hwnd⟩
    rw [coalesceKey_timeout (message ▸ timeout), message, hwnd]
  · intro same
    unfold coalesceKey at same
    split at same
    · rename_i mouse
      simp only [Option.some.injEq, Prod.mk.injEq] at same
      have notMouse := notMouse_of_timeout timeout
      rw [← same.1, mouse] at notMouse
      cases notMouse
    · split at same
      · simp only [Option.some.injEq, Prod.mk.injEq, true_and] at same
        exact same
      · cases same

end Keys

/-! ### Posting -/

/-- Overwriting an entry with one of the same key. -/
theorem Unmerged.overwrite {before behind : List Msg} {entry entry' : Msg}
    (unmerged : Unmerged (before ++ entry :: behind))
    (same : coalesceKey entry' = coalesceKey entry) : Unmerged (before ++ entry' :: behind) := by
  unfold Unmerged at unmerged ⊢
  rw [List.filterMap_append, List.filterMap_cons] at unmerged ⊢
  rw [same]
  exact unmerged

/-- An entry with a key of its own is appended. -/
theorem Unmerged.append {entries : List Msg} {msg : Msg} (unmerged : Unmerged entries)
    (fresh : ∀ key, coalesceKey msg = some key → ∀ entry ∈ entries, coalesceKey entry ≠ some key) :
    Unmerged (entries ++ [msg]) := by
  unfold Unmerged at unmerged ⊢
  rw [List.filterMap_append]
  cases key : coalesceKey msg with
  | none =>
    rw [List.filterMap_cons_none key, List.filterMap_nil, List.append_nil]
    exact unmerged
  | some k =>
    rw [List.filterMap_cons_some key, List.filterMap_nil]
    refine List.nodup_append.mpr ⟨unmerged, List.nodup_singleton k, ?_⟩
    rintro k' member other isNew rfl
    obtain rfl := List.mem_singleton.mp isNew
    obtain ⟨entry, inList, has⟩ := List.mem_filterMap.mp member
    exact fresh k' key entry inList has

theorem Unmerged.sublist {entries fewer : List Msg} (unmerged : Unmerged entries)
    (sub : fewer.Sublist entries) : Unmerged fewer :=
  List.Nodup.sublist (sub.filterMap coalesceKey) unmerged

/-- The scans of a post that found nothing to merge with did not miss a key. -/
theorem key_ne_of_scans {msg entry : Msg} {entries : List Msg}
    (noMouse : isMouseMoveClass msg.message = true →
      ∀ entry ∈ entries, sameMouseKey msg entry = false)
    (noTimeout : isMouseMoveClass msg.message = false → isTimeoutClass msg.message = true →
      ∀ entry ∈ entries, sameTimeoutKey msg entry = false)
    {key : MsgId × WParam × Hwnd} (has : coalesceKey msg = some key) (member : entry ∈ entries) :
    coalesceKey entry ≠ some key := by
  intro same
  by_cases mouse : isMouseMoveClass msg.message = true
  · have differs := noMouse mouse entry member
    rw [(sameMouseKey_iff_key mouse).mpr (same.trans has.symm)] at differs
    cases differs
  · by_cases timeout : isTimeoutClass msg.message = true
    · have differs := noTimeout (by simpa using mouse) timeout entry member
      rw [(sameTimeoutKey_iff_key timeout).mpr (same.trans has.symm)] at differs
      cases differs
    · rw [coalesceKey, if_neg mouse, if_neg timeout] at has
      cases has

/-- **Posting** keeps the keys distinct. -/
theorem PostSpec.unmerged {cap : ℕ} {msg : Msg} {entries after : List Msg} {accepted : Bool}
    (posts : PostSpec cap msg entries accepted after) (unmerged : Unmerged entries) :
    Unmerged after := by
  cases posts with
  | appended noMouse noTimeout =>
    exact unmerged.append fun key has entry member => key_ne_of_scans noMouse noTimeout has member
  | refused => exact unmerged
  | mergedMouse before behind entry =>
    rename_i split _ _
    rw [split] at unmerged
    exact unmerged.overwrite rfl
  | mergedTimeout before behind entry _ timeout split hit =>
    rw [split] at unmerged
    have entryTimeout : isTimeoutClass entry.message = true := by
      rw [(sameTimeoutKey_iff.mp hit).1]
      exact timeout
    refine unmerged.overwrite ?_
    rw [coalesceKey_timeout entryTimeout]
    exact coalesceKey_timeout entryTimeout

theorem kernelQueueMessage_unmerged {fuel : ℕ} {tick : Dword} {msg : Msg} {q : MsgQueue}
    {r : Bool × MsgQueue} (ok : RingOk q) (unmerged : Unmerged (pending q))
    (returns : kernelQueueMessage fuel tick msg q = some r) : Unmerged (pending r.2) :=
  ((kernelQueueMessage_spec ok tick msg).2 fuel r returns).list.unmerged unmerged

/-- **Each event** keeps the keys distinct. -/
theorem unmerged_step {s after : State} {event : Event} (ok : RingOk s.world.queue)
    (unmerged : Unmerged (pending s.world.queue)) (runs : exec s event = some after) :
    Unmerged (pending after.world.queue) := by
  by_cases other : leavesRing event = true
  · rw [(other_ring other runs).pending]
    exact unmerged
  cases event with
  | queueMessage fuel tick msg =>
    obtain ⟨r, returns, rfl⟩ := Option.map_eq_some_iff.mp runs
    exact kernelQueueMessage_unmerged ok unmerged returns
  | post fuel tick pad hWnd nMsg wParam lParam =>
    obtain ⟨r, returns, rfl⟩ := Option.map_eq_some_iff.mp runs
    unfold postMessage at returns
    split at returns
    · rw [← Option.some.inj returns]
      exact unmerged
    · exact kernelQueueMessage_unmerged ok unmerged returns
  | peek env args pMsg =>
    obtain ⟨outcome, afterPass, -, effect, good, rfl⟩ := execPeek_inv runs
    rw [State.world_hold]
    show Unmerged (pending afterPass.world.queue)
    by_cases took : outcome = .got .posted
    · subst took
      obtain ⟨-, msg, rest, popped, -, -, left⟩ := peekPass_posted ok effect
      have popped : pending s.world.queue = msg :: rest := popped
      rw [left]
      split
      · exact unmerged.sublist (popped ▸ List.sublist_cons_self msg rest)
      · exact unmerged
    · rw [(peekPass_ring effect took good).pending]
      exact unmerged
  | peekPost nMsgFilterMin nMsgFilterMax uRemoveMsg =>
    rw [← Option.some.inj runs]
    rcases returns : peekPostMessage nMsgFilterMin nMsgFilterMax uRemoveMsg s.world.queue with
      ⟨found, pMsg, q'⟩
    show Unmerged (pending q')
    obtain ⟨-, kept, took⟩ := peekPostMessage_spec ok nMsgFilterMin nMsgFilterMax uRemoveMsg returns
    cases found with
    | false =>
      rw [kept rfl]
      exact unmerged
    | true =>
      obtain ⟨msg, rest, popped, -, left⟩ := took rfl
      rw [left]
      split
      · exact unmerged.sublist (popped ▸ List.sublist_cons_self msg rest)
      · exact unmerged
  | throwAway fuel defNrTimers win hWnd =>
    obtain ⟨real, count, w, returns, rfl⟩ := execThrowAway_inv runs
    show Unmerged (pending w.queue)
    rw [(throwAway_ring ok real returns).2.1]
    exact unmerged.sublist List.filter_sublist
  | empty fuel =>
    obtain ⟨w, returns, rfl⟩ := Option.map_eq_some_iff.mp runs
    show Unmerged (pending w.queue)
    rw [(empty_ring ok returns).2]
    exact List.nodup_nil
  | _ => exact absurd rfl other

theorem reachable_unmerged {s : State} (reached : queueSystem.Reachable s) :
    Unmerged (pending s.world.queue) := by
  refine reached.invariant (fun s => Unmerged (pending s.world.queue)) ?_ ?_
  · rintro _ ⟨defMsgqueueLen, iBufferLen, buffer, frames, -, rfl⟩
    have empty : pending (State.initial defMsgqueueLen iBufferLen buffer frames).world.queue = [] :=
      Ring.contents_self _ _ _
    rw [empty]
    exact List.nodup_nil
  · rintro s event after before unmerged - runs
    exact unmerged_step (reachable_ring before) unmerged runs

/-! ### What it means for the ring -/

/-- When a test holds of one element at most, it does not matter from which end one looks. -/
theorem find?_reverse_of_unique {α : Type} {test : α → Bool} {entries : List α}
    (unique : entries.Pairwise fun first second => ¬ (test first = true ∧ test second = true)) :
    entries.reverse.find? test = entries.find? test := by
  induction unique with
  | nil => rfl
  | @cons head rest apart _ ih =>
    rw [List.reverse_cons, List.find?_append, ih]
    cases hit : test head with
    | true =>
      have missing : rest.find? test = none :=
        List.find?_eq_none.mpr fun entry member also => apart entry member ⟨hit, also⟩
      rw [missing, List.find?_cons_of_pos hit, List.find?_cons_of_pos hit]
      rfl
    | false =>
      have misses : ¬ test head = true := by simp [hit]
      rw [List.find?_cons_of_neg misses, List.find?_cons_of_neg misses]
      exact Option.or_none

/-- The first place where a test holds is determined by the list. -/
theorem split_unique {α : Type} {test : α → Prop} {before before' : List α} {entry entry' : α}
    {behind behind' : List α} (same : before ++ entry :: behind = before' ++ entry' :: behind')
    (here : test entry) (here' : test entry') (apart : ∀ other ∈ before, ¬ test other)
    (apart' : ∀ other ∈ before', ¬ test other) :
    before = before' ∧ entry = entry' ∧ behind = behind' := by
  induction before generalizing before' with
  | nil =>
    cases before' with
    | nil =>
      obtain ⟨rfl, rfl⟩ := List.cons.inj same
      exact ⟨rfl, rfl, rfl⟩
    | cons first rest =>
      obtain ⟨rfl, -⟩ := List.cons.inj same
      exact absurd here (apart' entry List.mem_cons_self)
  | cons head tail ih =>
    cases before' with
    | nil =>
      obtain ⟨rfl, -⟩ := List.cons.inj same
      exact absurd here' (apart head List.mem_cons_self)
    | cons first rest =>
      obtain ⟨rfl, tails⟩ := List.cons.inj same
      obtain ⟨rfl, entries, behinds⟩ := ih tails
        (fun other member => apart other (List.mem_cons_of_mem _ member))
        fun other member => apart' other (List.mem_cons_of_mem _ member)
      exact ⟨rfl, entries, behinds⟩

section Reading

variable {entries before behind : List Msg} {entry msg : Msg} {key : MsgId × WParam × Hwnd}

/-- Two entries apart have different keys. -/
theorem Unmerged.pairwise (unmerged : Unmerged entries) (key : MsgId × WParam × Hwnd) :
    entries.Pairwise fun first second =>
      ¬ (coalesceKey first = some key ∧ coalesceKey second = some key) := by
  refine (List.pairwise_filterMap.mp unmerged).imp ?_
  rintro first second apart ⟨firstKey, secondKey⟩
  exact apart key firstKey key secondKey rfl

/-- The entries before one have other keys. -/
theorem Unmerged.apart (unmerged : Unmerged (before ++ entry :: behind))
    (has : coalesceKey entry = some key) : ∀ other ∈ before, coalesceKey other ≠ some key := by
  obtain ⟨-, -, across⟩ := List.pairwise_append.mp (unmerged.pairwise key)
  intro other member same
  exact across other member entry List.mem_cons_self ⟨same, has⟩

/-- A test that asks for one key holds of one entry at most. -/
theorem Unmerged.countP_le (unmerged : Unmerged entries) (key : MsgId × WParam × Hwnd)
    {test : Msg → Bool}
    (asks : ∀ entry, test entry = true → coalesceKey entry = some key) :
    entries.countP test ≤ 1 := by
  have once := List.nodup_iff_count_le_one.mp unmerged key
  rw [List.count_eq_countP, List.countP_filterMap] at once
  refine (List.countP_mono_left fun entry _ passes => ?_).trans once
  rw [asks entry passes]
  exact beq_self_eq_true key

end Reading

/-- The ring with its coalesced messages. -/
structure Coalesces (q : MsgQueue) : Prop where
  /-- One mouse move for each message, parameter and window. -/
  mice : ∀ message wParam hwnd, isMouseMoveClass message = true → (pending q).countP (fun entry =>
    entry.message == message && entry.wParam == wParam && entry.hwnd == hwnd) ≤ 1
  /-- One timeout, idle message or caret blink for each message and window. -/
  timeouts : ∀ message hwnd, isTimeoutClass message = true → (pending q).countP (fun entry =>
    entry.message == message && entry.hwnd == hwnd) ≤ 1
  /-- The scan for the last match ends at the first one. -/
  lastIsFirst : ∀ msg fuel found, isMouseMoveClass msg.message = true →
    loop (lastMatchTurn q msg) fuel (q.readpos, none) = some found →
    found = (Ring.window q.len q.readpos q.writepos).find? fun p => sameMouseKey msg (q.msg p)
  /-- The scan for the first match ends at the last one. -/
  firstIsLast : ∀ msg fuel found, isTimeoutClass msg.message = true →
    loop (firstMatchTurn q msg) fuel q.readpos = some found →
    found = (Ring.window q.len q.readpos q.writepos).reverse.find? fun p =>
      sameTimeoutKey msg (q.msg p)
  /-- A post of a pending key returns `TRUE` and overwrites that entry, also when the ring is
  full. -/
  merges : ∀ tick msg before entry behind, pending q = before ++ entry :: behind →
    coalesceKey msg ≠ none → coalesceKey entry = coalesceKey msg →
    (∀ fuel, (pending q).length < fuel → ∃ r, kernelQueueMessage fuel tick msg q = some r) ∧
    ∀ fuel r, kernelQueueMessage fuel tick msg q = some r → r.1 = true ∧
      pending r.2 = before ++ { entry with
        wParam := msg.wParam, lParam := msg.lParam, time := tick } :: behind

/-- A post of a pending key. -/
theorem PostSpec.merges {cap : ℕ} {msg entry : Msg} {before behind after : List Msg}
    {accepted : Bool}
    (posts : PostSpec cap msg (before ++ entry :: behind) accepted after)
    (unmerged : Unmerged (before ++ entry :: behind)) (keyed : coalesceKey msg ≠ none)
    (same : coalesceKey entry = coalesceKey msg) : accepted = true ∧ after = before ++ { entry with
      wParam := msg.wParam, lParam := msg.lParam, time := msg.time } :: behind := by
  obtain ⟨key, has⟩ := Option.ne_none_iff_exists'.mp keyed
  have here : entry ∈ before ++ entry :: behind := by simp
  have apart := unmerged.apart (same.trans has)
  cases posts with
  | appended noMouse noTimeout | refused noMouse noTimeout =>
    -- the scan cannot have missed the entry
    exact absurd (same.trans has) (key_ne_of_scans noMouse noTimeout has here)
  | mergedMouse before' behind' entry' mouse split hit =>
    have has' := ((sameMouseKey_iff_key mouse).mp hit).trans has
    obtain ⟨rfl, rfl, rfl⟩ :=
      split_unique split (same.trans has) has' apart ((split ▸ unmerged).apart has')
    refine ⟨rfl, ?_⟩
    rw [← (sameMouseKey_iff.mp hit).2.1]
  | mergedTimeout before' behind' entry' _ timeout split hit =>
    have has' := ((sameTimeoutKey_iff_key timeout).mp hit).trans has
    obtain ⟨rfl, rfl, rfl⟩ :=
      split_unique split (same.trans has) has' apart ((split ▸ unmerged).apart has')
    exact ⟨rfl, rfl⟩

theorem coalesces_of_unmerged {q : MsgQueue} (ok : RingOk q) (unmerged : Unmerged (pending q)) :
    Coalesces q := by
  -- a test for one key holds of one slot at most
  have slots : ∀ (test : Msg → Bool) key, (∀ entry, test entry = true → coalesceKey entry = some key) →
      (Ring.window q.len q.readpos q.writepos).Pairwise fun p p' =>
        ¬ (test (q.msg p) = true ∧ test (q.msg p') = true) := by
    intro test key asks
    refine (List.pairwise_map.mp (unmerged.pairwise key)).imp fun apart both => apart ?_
    exact ⟨asks _ both.1, asks _ both.2⟩
  constructor
  case mice =>
    intro message wParam hwnd mouse
    refine unmerged.countP_le (message, wParam, hwnd) fun entry passes => ?_
    simp only [Bool.and_eq_true, beq_iff_eq] at passes
    obtain ⟨⟨rfl, rfl⟩, rfl⟩ := passes
    exact coalesceKey_mouse mouse
  case timeouts =>
    intro message hwnd timeout
    refine unmerged.countP_le (message, 0, hwnd) fun entry passes => ?_
    simp only [Bool.and_eq_true, beq_iff_eq] at passes
    obtain ⟨rfl, rfl⟩ := passes
    exact coalesceKey_timeout timeout
  case lastIsFirst =>
    intro msg fuel found mouse looped
    rw [(lastMatch_spec ok msg).post fuel found looped]
    refine find?_reverse_of_unique (slots _ (msg.message, msg.wParam, msg.hwnd) fun entry hit => ?_)
    exact ((sameMouseKey_iff_key mouse).mp hit).trans (coalesceKey_mouse mouse)
  case firstIsLast =>
    intro msg fuel found timeout looped
    rw [(firstMatch_spec ok msg).post fuel found looped]
    refine (find?_reverse_of_unique (slots _ (msg.message, 0, msg.hwnd) fun entry hit => ?_)).symm
    exact ((sameTimeoutKey_iff_key timeout).mp hit).trans (coalesceKey_timeout timeout)
  case merges =>
    intro tick msg before entry behind split keyed same
    have spec := kernelQueueMessage_spec ok tick msg
    refine ⟨spec.1, fun fuel r returns => ?_⟩
    have posts := (spec.2 fuel r returns).list
    rw [split] at posts unmerged
    exact posts.merges unmerged keyed same

/-- **Coalesced messages are pending once** in every state of every run, and posting them again
overwrites what is pending. -/
theorem posted_ring_coalesces {s : State} (reached : queueSystem.Reachable s) :
    Coalesces s.world.queue :=
  coalesces_of_unmerged (reachable_ring reached) (reachable_unmerged reached)

/-- A full ring of two caret blinks and a timeout, which take another caret blink. -/
def fullRing : List Event :=
  [.post 8 5 none 1 msgCaretBlink 0 0, .post 8 6 none 2 msgCaretBlink 0 0,
    .post 8 7 none 1 msgTimeout 0 0, .post 8 8 none 2 msgCaretBlink 3 4]

theorem posted_ring_coalesces_full : ∃ s, State.blank.run fullRing = some s ∧
    (pending s.world.queue).length = s.world.queue.len - 1 ∧ Coalesces s.world.queue :=
  ⟨_, rfl, rfl, posted_ring_coalesces
    (reachable_of_run blank_reachable (rfl : State.blank.run fullRing = some _))⟩

end Aple.Message
