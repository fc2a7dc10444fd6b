/-
**What a broadcast returns.**

The count of a broadcast is kept in the `time` of the message, which `kernel_QueueMessage` overwrites
with the tick counter for every window that has a queue.

* `Gets` — whether a window gets its copy, in terms of the queues before the broadcast; `served`
  counts these windows, and `clock` is the `time` that the message ends with.
* `Counted` — what holds after some windows are served; `Counted.serve` — one more window.
* **`broadcast_count_iff`** — the number of windows is returned exactly when the tick counter happens
  to agree with it.
-/

import Aple.Message.Broadcast

namespace Aple.Message

open Aple.Lib

section Merging

variable {msg : Msg} {q q' : MsgQueue}

instance : Decidable (Merges msg q) :=
  decidable_of_iff (∃ key ∈ coalesceKey msg, key ∈ (pending q).filterMap coalesceKey)
    (by simp [Merges])

/-- The key has no time. -/
theorem coalesceKey_of_body {copy : Msg} (message : copy.message = msg.message)
    (wParam : copy.wParam = msg.wParam) (hwnd : copy.hwnd = msg.hwnd) :
    coalesceKey copy = coalesceKey msg := by
  simp only [coalesceKey, message, wParam, hwnd]

theorem Merges.congr {copy : Msg} (key : coalesceKey copy = coalesceKey msg)
    (keys : (pending q).filterMap coalesceKey = (pending q').filterMap coalesceKey) :
    Merges copy q ↔ Merges msg q' := by
  unfold Merges
  rw [key, keys]

/-- A key names the window. -/
theorem hwnd_of_coalesceKey {key : MsgId × WParam × Hwnd} (has : coalesceKey msg = some key) :
    key.2.2 = msg.hwnd := by
  unfold coalesceKey at has
  split at has
  · rw [← Option.some.inj has]
  · split at has
    · rw [← Option.some.inj has]
    · cases has

/-- An entry for one window is not merged with copies for another one. -/
theorem Merges.appended {entry : Msg} (appended : pending q' = pending q ++ [entry])
    (apart : msg.hwnd ≠ entry.hwnd) : Merges msg q' ↔ Merges msg q := by
  unfold Merges
  refine exists_congr fun key => and_congr_right fun has => ?_
  rw [appended, List.filterMap_append, List.mem_append]
  refine or_iff_left fun new => apart ?_
  obtain ⟨other, isNew, hasToo⟩ := List.mem_filterMap.mp new
  obtain rfl := List.mem_singleton.mp isNew
  rw [← hwnd_of_coalesceKey has, hwnd_of_coalesceKey hasToo]

end Merging

/-! ### The windows that get their copies -/

/-- The windows that a broadcast of the queue serves. -/
def MsgQueue.targets (q : MsgQueue) : List Hwnd :=
  match q.pRootMainWin with
  | none => []
  | some root => root.windows

section Counting

variable {Queue : Type} [DecidableEq Queue] (env : BroadcastEnv Queue) (queue : Queue → MsgQueue)
  (msg : Msg)

/-- How many of the windows ask for a place of their own in the ring. -/
def wanted (id : Queue) (windows : List Hwnd) : ℕ :=
  windows.countP fun hwnd =>
    env.pMsgQueue hwnd = some id ∧ ¬ Merges { msg with hwnd := hwnd } (queue id)

/-- The window gets its copy when the earlier ones have been served: the copy is merged, or there is
a place left for it. -/
def Gets (earlier : List Hwnd) (hwnd : Hwnd) : Prop :=
  ∃ id ∈ env.pMsgQueue hwnd,
    Merges { msg with hwnd := hwnd } (queue id) ∨ wanted env queue msg id earlier < (queue id).room

instance (earlier : List Hwnd) (hwnd : Hwnd) : Decidable (Gets env queue msg earlier hwnd) :=
  inferInstanceAs (Decidable (∃ _ ∈ _, _))

/-- How many windows get their copies, the last window first. -/
def served : List Hwnd → ℕ
  | [] => 0
  | hwnd :: earlier => served earlier + if Gets env queue msg earlier hwnd then 1 else 0

/-- What the tick counter was when the last window that has a queue was served, and one more if that
window got its copy. -/
def clock : List Hwnd → Dword
  | [] => 0
  | hwnd :: earlier =>
    if (env.pMsgQueue hwnd).isSome then
      env.tick (earlier.countP fun other => (env.pMsgQueue other).isSome) +
        if Gets env queue msg earlier hwnd then 1 else 0
    else clock earlier

/-- **The tick counter agrees with the number of copies.** -/
def ClockCounts (msgQueue : Queue) : Prop :=
  ((clock env queue msg (queue msgQueue).targets.reverse).setWidth 32).toInt =
    served env queue msg (queue msgQueue).targets.reverse

instance (msgQueue : Queue) : Decidable (ClockCounts env queue msg msgQueue) :=
  inferInstanceAs (Decidable (_ = _))

/-- The call returns the number of the windows that `kernel_QueueMessage` returned `TRUE` for. -/
def ReturnsCount (result : Option (ℤ × Broadcast Queue)) : Prop :=
  ∃ s, result = some ((s.posted.length : ℤ), s)

/-- What holds when the windows of the list have been served, the last one first. -/
structure Counted (done : List Hwnd) (s : Broadcast Queue) : Prop where
  inside : ∀ id, RingOk (s.queue id)
  len : ∀ id, (s.queue id).len = (queue id).len
  room : ∀ id, (s.queue id).room = (queue id).room - wanted env queue msg id done
  keys : ∀ id, ∀ hwnd ∉ done,
    Merges { msg with hwnd := hwnd } (s.queue id) ↔ Merges { msg with hwnd := hwnd } (queue id)
  message : s.msg.message = msg.message
  wParam : s.msg.wParam = msg.wParam
  reads : s.reads = done.countP fun hwnd => (env.pMsgQueue hwnd).isSome
  posted : s.posted.length = served env queue msg done
  time : s.msg.time = clock env queue msg done

end Counting

section Counting

variable {Queue : Type} [DecidableEq Queue] {env : BroadcastEnv Queue} {queue : Queue → MsgQueue}
  {msg : Msg} {fuel : ℕ} {earlier : List Hwnd} {hwnd : Hwnd} {s after : Broadcast Queue}

theorem wanted_of_ne {id : Queue} (other : env.pMsgQueue hwnd ≠ some id) :
    wanted env queue msg id (hwnd :: earlier) = wanted env queue msg id earlier :=
  List.countP_cons_of_neg (by simp [other])

theorem wanted_merges {id : Queue} (merges : Merges { msg with hwnd := hwnd } (queue id)) :
    wanted env queue msg id (hwnd :: earlier) = wanted env queue msg id earlier :=
  List.countP_cons_of_neg (by simp [merges])

theorem wanted_new {id : Queue} (mine : env.pMsgQueue hwnd = some id)
    (new : ¬ Merges { msg with hwnd := hwnd } (queue id)) :
    wanted env queue msg id (hwnd :: earlier) = wanted env queue msg id earlier + 1 :=
  List.countP_cons_of_pos (by simp [mine, new])

theorem gets_iff {id : Queue} (mine : env.pMsgQueue hwnd = some id) :
    Gets env queue msg earlier hwnd ↔ Merges { msg with hwnd := hwnd } (queue id) ∨
      wanted env queue msg id earlier < (queue id).room := by
  simp [Gets, mine]

/-- A window without a queue gets nothing. -/
theorem Counted.skip (counted : Counted env queue msg earlier s) (missing : env.pMsgQueue hwnd = none) :
    Counted env queue msg (hwnd :: earlier) { s with msg := { s.msg with hwnd := hwnd } } := by
  have none : ¬ Gets env queue msg earlier hwnd := by simp [Gets, missing]
  constructor
  case inside => exact counted.inside
  case len => exact counted.len
  case room =>
    intro id
    rw [wanted_of_ne (by simp [missing])]
    exact counted.room id
  case keys => exact fun id other apart => counted.keys id other (List.not_mem_of_not_mem_cons apart)
  case message => exact counted.message
  case wParam => exact counted.wParam
  case reads =>
    rw [List.countP_cons_of_neg (by simp [missing])]
    exact counted.reads
  case posted =>
    rw [served, if_neg none]
    exact counted.posted
  case time =>
    rw [clock, if_neg (by simp [missing])]
    exact counted.time

/-- The queue of a window decides about the copy as the queue before the broadcast does. -/
theorem Counted.merges_iff (counted : Counted env queue msg earlier s) (fresh : hwnd ∉ earlier)
    (id : Queue) (time : Dword) :
    Merges { s.msg with hwnd := hwnd, time := time } (s.queue id) ↔
      Merges { msg with hwnd := hwnd } (queue id) := by
  have key : coalesceKey { s.msg with hwnd := hwnd, time := time } =
      coalesceKey { msg with hwnd := hwnd } :=
    coalesceKey_of_body counted.message counted.wParam rfl
  exact (Merges.congr key rfl).trans (counted.keys id hwnd fresh)

/-- **The copy of one window**: whether it is made, what room is left, and that no other window's
copy is merged with it. -/
theorem Counted.copy (counted : Counted env queue msg earlier s) (fresh : hwnd ∉ earlier) {id : Queue}
    (mine : env.pMsgQueue hwnd = some id) {time : Dword} {r : Bool × MsgQueue}
    (posts : Posts { s.msg with hwnd := hwnd, time := time } (s.queue id) r)
    (len : r.2.len = (s.queue id).len) :
    (r.1 = true ↔ Gets env queue msg earlier hwnd) ∧
      r.2.room = (queue id).room - wanted env queue msg id (hwnd :: earlier) ∧
      ∀ other, other ≠ hwnd → (Merges { msg with hwnd := other } r.2 ↔
        Merges { msg with hwnd := other } (s.queue id)) := by
  have before := counted.room id
  have merges := counted.merges_iff fresh id time
  by_cases known : Merges { msg with hwnd := hwnd } (queue id)
  · obtain ⟨done, same, sameLength⟩ := posts.merged (merges.mpr known)
    refine ⟨by simp [done, gets_iff mine, known], ?_, fun other _ => Merges.congr rfl same⟩
    rw [wanted_merges known, ← before, MsgQueue.room, MsgQueue.room, sameLength, len]
  · rcases posts.unmerged (mt merges.mp known) with ⟨free, done, appended⟩ | ⟨full, refused⟩
    · refine ⟨?_, ?_, fun other apart => Merges.appended appended apart⟩
      · rw [gets_iff mine, done]
        exact iff_of_true rfl (.inr (by omega))
      · have fewer : r.2.room = (s.queue id).room - 1 := by
          rw [MsgQueue.room, MsgQueue.room, appended, len, List.length_append,
            List.length_singleton, Nat.sub_sub _ _ 1]
        rw [wanted_new mine known, fewer, before, Nat.sub_sub]
    · obtain rfl : r = (false, s.queue id) := refused
      refine ⟨?_, ?_, fun _ _ => Iff.rfl⟩
      · rw [gets_iff mine]
        refine iff_of_false (by simp) ?_
        rintro (merged | free)
        · exact known merged
        · omega
      · show (s.queue id).room = _
        rw [wanted_new mine known]
        omega

/-- **One more window.** -/
theorem Counted.serve (counted : Counted env queue msg earlier s) (fresh : hwnd ∉ earlier)
    (returns : myTravelCb env fuel hwnd s = some after) :
    Counted env queue msg (hwnd :: earlier) after := by
  cases myTravelCb_spec (fun id _ => counted.inside id) returns with
  | skipped missing => exact counted.skip missing
  | posted id r mine posts len =>
    obtain ⟨got, room, keys⟩ := counted.copy fresh mine posts len
    have has : (env.pMsgQueue hwnd).isSome := by simp [mine]
    -- of the queues, only the one that was posted to changes
    constructor
    case inside =>
      exact (Function.forall_update_iff s.queue fun _ q => RingOk q).mpr
        ⟨posts.inside, fun other _ => counted.inside other⟩
    case len =>
      exact (Function.forall_update_iff s.queue fun other q => q.len = (queue other).len).mpr
        ⟨len.trans (counted.len id), fun other _ => counted.len other⟩
    case room =>
      refine (Function.forall_update_iff s.queue fun other q =>
        q.room = (queue other).room - wanted env queue msg other (hwnd :: earlier)).mpr
          ⟨room, fun other apart => ?_⟩
      rw [wanted_of_ne fun too => apart (Option.some.inj (too.symm.trans mine))]
      exact counted.room other
    case keys =>
      refine (Function.forall_update_iff s.queue fun other q => ∀ window ∉ hwnd :: earlier,
        Merges { msg with hwnd := window } q ↔ Merges { msg with hwnd := window } (queue other)).mpr
          ⟨fun window apart => ?_, fun other _ window apart => ?_⟩
      · obtain ⟨differs, missing⟩ := not_or.mp (mt List.mem_cons.mpr apart)
        exact (keys window differs).trans (counted.keys id window missing)
      · exact counted.keys other window (List.not_mem_of_not_mem_cons apart)
    case message => exact counted.message
    case wParam => exact counted.wParam
    case reads =>
      rw [List.countP_cons, if_pos has, ← counted.reads]
    case posted =>
      rw [served, ← counted.posted]
      by_cases copy : Gets env queue msg earlier hwnd
      · simp [got.mpr copy, copy]
      · simp [mt got.mp copy, copy]
    case time =>
      rw [clock, if_pos has, ← counted.reads]
      exact congrArg (env.tick s.reads + ·) (if_congr got rfl rfl)

/-- **All windows.** -/
theorem Counted.serveAll {windows : List Hwnd} (counted : Counted env queue msg earlier s)
    (distinct : (windows.reverse ++ earlier).Nodup)
    (enough : ∀ hwnd ∈ windows, ∀ id, env.pMsgQueue hwnd = some id → (queue id).len ≤ fuel) :
    ∃ after, serveAll (myTravelCb env fuel) windows s = some after ∧
      Counted env queue msg (windows.reverse ++ earlier) after := by
  induction windows generalizing earlier s with
  | nil => exact ⟨s, rfl, counted⟩
  | cons hwnd rest ih =>
    rw [List.reverse_cons, List.append_assoc, List.singleton_append] at distinct ⊢
    have fresh : hwnd ∉ earlier := (List.nodup_cons.mp (List.nodup_append.mp distinct).2.1).1
    obtain ⟨middle, served⟩ : ∃ middle, myTravelCb env fuel hwnd s = some middle := by
      refine myTravelCb_returns fun id mine => ?_
      refine (kernelQueueMessage_spec (counted.inside id) _ _).1 fuel ?_
      have short := Ring.used_lt (counted.inside id).read (counted.inside id).write
      rw [← pending_length, counted.len] at short
      exact short.trans_le (enough hwnd List.mem_cons_self id mine)
    obtain ⟨after, runs, all⟩ := ih (counted.serve fresh served) distinct
      fun other member => enough other (List.mem_cons_of_mem _ member)
    refine ⟨after, ?_, all⟩
    rw [serveAll_cons, served]
    exact runs

end Counting

/-! ### The three functions -/

section Functions

variable {Queue : Type} [DecidableEq Queue] {env : BroadcastEnv Queue} {queue : Queue → MsgQueue}
  {msg : Msg} {fuel : ℕ} {msgQueue : Queue}

/-- A broadcast returns, and has counted all windows. -/
theorem mgBroadcastMessage_counted (ok : ∀ id, RingOk (queue id))
    (distinct : (queue msgQueue).targets.Nodup)
    (enough : ∀ hwnd ∈ (queue msgQueue).targets, ∀ id, env.pMsgQueue hwnd = some id →
      (queue id).len ≤ fuel) :
    ∃ s, mgBroadcastMessage env fuel msgQueue queue msg = some (s.count, s) ∧
      Counted env queue msg (queue msgQueue).targets.reverse s := by
  have start : Counted env queue msg [] ⟨queue, { msg with time := 0 }, 0, []⟩ :=
    ⟨ok, fun _ => rfl, fun _ => rfl, fun _ _ _ => Iff.rfl, rfl, rfl, rfl, rfl, rfl⟩
  cases atRoot : (queue msgQueue).pRootMainWin with
  | none =>
    refine ⟨_, by simp only [mgBroadcastMessage, atRoot]; rfl, ?_⟩
    simp only [MsgQueue.targets, atRoot]
    exact start
  | some root =>
    have windows : (queue msgQueue).targets = root.windows := by rw [MsgQueue.targets, atRoot]
    rw [windows] at distinct enough ⊢
    obtain ⟨s, runs, counted⟩ := start.serveAll
      (by rw [List.append_nil]; exact List.nodup_reverse.mpr distinct) enough
    rw [List.append_nil] at counted
    exact ⟨s, by rw [mgBroadcastMessage_eq atRoot, runs]; rfl, counted⟩

theorem mgBroadcastMessage_returnsCount (ok : ∀ id, RingOk (queue id))
    (distinct : (queue msgQueue).targets.Nodup)
    (enough : ∀ hwnd ∈ (queue msgQueue).targets, ∀ id, env.pMsgQueue hwnd = some id →
      (queue id).len ≤ fuel) :
    ReturnsCount (mgBroadcastMessage env fuel msgQueue queue msg) ↔
      ClockCounts env queue msg msgQueue := by
  obtain ⟨s, returns, counted⟩ := mgBroadcastMessage_counted ok distinct enough
  have exact : s.count = s.posted.length ↔ ClockCounts env queue msg msgQueue := by
    rw [ClockCounts, ← counted.time, ← counted.posted]
    rfl
  rw [← exact, ReturnsCount, returns]
  constructor
  · rintro ⟨s', same⟩
    obtain ⟨count, rfl⟩ := Prod.mk.inj (Option.some.inj same)
    exact count
  · intro count
    exact ⟨s, by rw [count]⟩

variable (env msg) in
/-- The rings alone decide about the copies. -/
theorem counting_congr {queue' : Queue → MsgQueue}
    (rings : ∀ id, pending (queue' id) = pending (queue id))
    (lens : ∀ id, (queue' id).len = (queue id).len) (windows : List Hwnd) :
    served env queue' msg windows = served env queue msg windows ∧
      clock env queue' msg windows = clock env queue msg windows := by
  have gets : ∀ earlier hwnd, Gets env queue' msg earlier hwnd ↔ Gets env queue msg earlier hwnd := by
    intro earlier hwnd
    have merges : ∀ id copy, Merges copy (queue' id) ↔ Merges copy (queue id) := fun id copy =>
      Merges.congr rfl (congrArg _ (rings id))
    refine exists_congr fun id => and_congr_right fun _ => or_congr (merges id _) ?_
    rw [wanted, wanted, MsgQueue.room, MsgQueue.room, rings, lens]
    simp only [merges]
  induction windows with
  | nil => exact ⟨rfl, rfl⟩
  | cons hwnd earlier ih => simp only [served, clock, gets, ih.1, ih.2, and_self]

/-- **What a broadcast returns** is the number of the windows that `kernel_QueueMessage` returned
`TRUE` for exactly when the tick counter agrees with it. -/
theorem broadcast_count_iff (ok : ∀ id, RingOk (queue id))
    (distinct : (queue msgQueue).targets.Nodup)
    (enough : ∀ hwnd ∈ (queue msgQueue).targets, ∀ id, env.pMsgQueue hwnd = some id →
      (queue id).len ≤ fuel) :
    (∀ msg, ReturnsCount (mgBroadcastMessage env fuel msgQueue queue msg) ↔
      ClockCounts env queue msg msgQueue) ∧
    (∀ nMsg wParam lParam,
      ReturnsCount (broadcastMessageInThisThread env fuel (some msgQueue) queue nMsg wParam lParam) ↔
        ClockCounts env queue ⟨hwndNull, nMsg, wParam, lParam, 0, none⟩ msgQueue) ∧
    ∀ maxIdleCounter now,
      ReturnsCount (handleIdleMessage env fuel maxIdleCounter now msgQueue queue) ↔
        (queue msgQueue).idleCounter + 1 < maxIdleCounter ∨
          ClockCounts env queue ⟨hwndNull, msgIdle, now, 0, 0, none⟩ msgQueue := by
  refine ⟨fun msg => mgBroadcastMessage_returnsCount ok distinct enough,
    fun nMsg wParam lParam => mgBroadcastMessage_returnsCount ok distinct enough, ?_⟩
  intro maxIdleCounter now
  -- counting the idle turn leaves the rings and the tree
  generalize counting : Function.update queue msgQueue
    { queue msgQueue with idleCounter := (queue msgQueue).idleCounter + 1 } = counted
  have same : ∀ id, (counted id).len = (queue id).len ∧ pending (counted id) = pending (queue id) ∧
      (counted id).targets = (queue id).targets ∧ RingOk (counted id) := by
    intro id
    subst counting
    by_cases mine : id = msgQueue
    · subst mine
      rw [Function.update_self]
      exact ⟨rfl, rfl, rfl, ⟨(ok id).read, (ok id).write⟩⟩
    · rw [Function.update_of_ne mine]
      exact ⟨rfl, rfl, rfl, ok id⟩
  have count : (counted msgQueue).idleCounter = (queue msgQueue).idleCounter + 1 := by
    rw [← counting, Function.update_self]
  by_cases early : (queue msgQueue).idleCounter + 1 < maxIdleCounter
  · refine iff_of_true ⟨⟨counted, ⟨hwndNull, msgIdle, now, 0, 0, none⟩, 0, []⟩, ?_⟩ (.inl early)
    simp only [handleIdleMessage, counting, count, ge_iff_le, Nat.not_le.mpr early, if_false,
      List.length_nil, Nat.cast_zero]
  · have broadcasts : ReturnsCount (handleIdleMessage env fuel maxIdleCounter now msgQueue queue) ↔
        ReturnsCount (mgBroadcastMessage env fuel msgQueue counted
          ⟨hwndNull, msgIdle, now, 0, 0, none⟩) := by
      simp only [handleIdleMessage, counting, count, ge_iff_le, Nat.le_of_not_lt early, if_true]
      cases mgBroadcastMessage env fuel msgQueue counted ⟨hwndNull, msgIdle, now, 0, 0, none⟩ with
      | none => exact iff_of_false (by rintro ⟨_, ⟨⟩⟩) (by rintro ⟨_, ⟨⟩⟩)
      | some result =>
        obtain ⟨n, s⟩ := result
        simp [ReturnsCount]
    have rings := counting_congr env ⟨hwndNull, msgIdle, now, 0, 0, none⟩
      (fun id => (same id).2.1) (fun id => (same id).1) (queue msgQueue).targets.reverse
    rw [broadcasts, or_iff_right early, mgBroadcastMessage_returnsCount (fun id => (same id).2.2.2)
      (by rw [(same msgQueue).2.2.1]; exact distinct)
      (by rw [(same msgQueue).2.2.1]; exact fun hwnd member id mine =>
        (same id).1.trans_le (enough hwnd member id mine)), ClockCounts, ClockCounts,
      (same msgQueue).2.2.1, rings.1, rings.2]

end Functions

/-- The root hosts one window. -/
def twoWindows : HostWin := .node (plainWin 1) [.node (plainWin 2) []]

/-- The tick counter is 1, and both windows get their copies. -/
theorem broadcast_count_iff_two : ReturnsCount (mgBroadcastMessage (sharedEnv 1) 4 ()
    (sharedQueue twoWindows) ⟨0, msgNotification, 7, 8, 0, none⟩) := by
  have counts := @broadcast_count_iff Unit _ (sharedEnv 1) (sharedQueue twoWindows) 4 ()
    (fun () => ⟨by decide, by decide⟩) (by decide) (fun _ _ () _ => by decide)
  exact (counts.1 _).mpr (by decide)

/-- Both windows get their copies at tick 100, and the call returns 101. -/
theorem broadcast_count_late :
    (mgBroadcastMessage (sharedEnv 100) 4 () (sharedQueue twoWindows)
      ⟨0, msgNotification, 7, 8, 0, none⟩).map (fun (n, s) => (n, s.posted)) = some (101, [2, 1]) ∧
    ¬ ReturnsCount (mgBroadcastMessage (sharedEnv 100) 4 () (sharedQueue twoWindows)
      ⟨0, msgNotification, 7, 8, 0, none⟩) := by
  have returns : (mgBroadcastMessage (sharedEnv 100) 4 () (sharedQueue twoWindows)
      ⟨0, msgNotification, 7, 8, 0, none⟩).map (fun (n, s) => (n, s.posted)) = some (101, [2, 1]) := by
    decide
  refine ⟨returns, ?_⟩
  rintro ⟨s, counted⟩
  rw [counted, Option.map_some, Option.some.injEq, Prod.mk.injEq] at returns
  obtain ⟨count, posted⟩ := returns
  rw [posted] at count
  exact absurd count (by decide)

end Aple.Message
