/-
**The protocol of a session.**

* `SessionInv.step`, `sessionInv_of_reachable` — the invariant over a run.
* **`session_answers`** — in every interleaving the threads exclude each other, the server gets the
  requests whole and in the order of the lock, and each reply goes to the thread that asked for it.
* `SessionInv.unserved`, `readCell_on` — a thread that waits has a request to be served, or a cell
  to read.
* **`session_completes`** — a request that was written gets its reply, with the help of the server
  alone.
-/

import Aple.ClientServer.SessionInv

namespace Aple.ClientServer

open Aple.Lib

variable {Thread H σ : Type} {sizeT : ℕ}

/-! ### The protocol -/

section Protocol

variable [DecidableEq Thread] {cfg : ClientConfig sizeT} {registry : Registry H}
  {handlers : Handlers H σ} {s after : Session Thread H σ sizeT} {served : ℕ}
  {past : List (Call H × List Byte × Fd)} {pending : List (Item H sizeT)}

omit [DecidableEq Thread] in
/-- **The session starts** with nothing under way. -/
theorem SessionInv.start (state : σ) : SessionInv cfg registry handlers
    (Session.start state : Session Thread H σ sizeT) 0 [] [] where
  inside _ := iff_of_false nofun nofun
  asks := nofun
  bounded := trivial
  few := le_rfl
  agreed := List.forall_mem_nil _
  stream := rfl
  calls := rfl
  answers := rfl
  given := List.forall_mem_nil _
  waiting := rfl
  replies := rfl
  delivered := .nil
  toClient := rfl
  messages := rfl
  async := List.forall_mem_nil _
  reads := nofun

/-- A reading step is one of a thread that waits, receives or polls. -/
theorem SessionInv.read (inv : SessionInv cfg registry handlers s served past pending)
    {thread : Thread} {cell : Cell Fd} {rest : List (Cell Fd)}
    (front : s.server.world.toClient = cell :: rest)
    (reads : (s.incoming rest).readCell cfg thread cell = some after) :
    ∃ past' pending', SessionInv cfg registry handlers after served past' pending' := by
  have phase : (s.incoming rest).phase thread = s.phase thread := rfl
  cases is : s.phase thread with
  | waits asked got => exact ⟨past, inv.waits is front reads⟩
  | receives asked fd got => exact inv.receives is front reads
  | polls got => exact ⟨past, inv.polls is front reads⟩
  | idle | locks asked | sends asked left | unlocks | stuck asked =>
    simp only [Session.readCell, phase, is] at reads
    cases reads

/-- **One step.** -/
theorem SessionInv.step (inv : SessionInv cfg registry handlers s served past pending)
    {event : SessionEvent Thread σ sizeT} (allowed : agreeing cfg registry handlers s event)
    (runs : sessionExec cfg handlers registry s event = some after) :
    ∃ served' past' pending', SessionInv cfg registry handlers after served' past' pending' := by
  cases event with
  | call thread asked =>
    obtain ⟨⟨idle, -⟩, same⟩ := Option.ite_none_right_eq_some.mp runs
    rw [← Option.some.inj same]
    exact ⟨served, past, pending, inv.call idle allowed⟩
  | lock thread =>
    simp only [sessionExec] at runs
    split at runs
    · rename_i asked locks free
      rw [← Option.some.inj runs]
      exact ⟨served, past, pending, inv.lock locks free⟩
    · cases runs
  | write thread =>
    simp only [sessionExec] at runs
    split at runs
    · rename_i asked cell left sends
      rw [← Option.some.inj runs]
      exact ⟨served, past, pending, inv.write sends⟩
    · cases runs
  | read thread =>
    simp only [sessionExec] at runs
    split at runs
    · cases runs
    · rename_i cell rest front
      exact ⟨served, inv.read front runs⟩
  | unlock thread =>
    obtain ⟨unlocks, same⟩ := Option.ite_none_right_eq_some.mp runs
    rw [← Option.some.inj same]
    exact ⟨served, past, pending, inv.unlock unlocks⟩
  | poll thread =>
    obtain ⟨⟨-, free⟩, same⟩ := Option.ite_none_right_eq_some.mp runs
    rw [← Option.some.inj same]
    exact ⟨served, past, pending, inv.poll free⟩
  | serve =>
    obtain ⟨arrived, same⟩ := Option.ite_none_right_eq_some.mp runs
    obtain ⟨more, inv'⟩ := inv.serve arrived
    rw [← Option.some.inj same]
    exact ⟨served + 1, past, pending ++ more, inv'⟩
  | push msg =>
    rw [← Option.some.inj runs]
    exact ⟨served, past, pending ++ [.push msg], inv.push allowed⟩
  | act state =>
    rw [← Option.some.inj runs]
    exact ⟨served, past, pending, { inv with }⟩

/-- **The invariant holds** in every state reached. -/
theorem sessionInv_of_reachable
    (reached : (sessionSystem cfg handlers registry).ReachableBy
      (agreeing cfg registry handlers) s) :
    ∃ served past pending, SessionInv cfg registry handlers s served past pending := by
  refine reached.invariant
    (fun s => ∃ served past pending, SessionInv cfg registry handlers s served past pending) ?_ ?_
  · rintro _ ⟨state, rfl⟩
    exact ⟨0, [], [], .start state⟩
  · rintro s event after - ⟨served, past, pending, inv⟩ allowed runs
    exact inv.step allowed runs

/-- What a session guarantees to its threads. -/
structure SessionSafe (registry : Registry H) (s : Session Thread H σ sizeT) (served : ℕ) : Prop where
  /-- One thread at a time is between the lock and its release. -/
  exclusive : ∀ first second, (s.phase first).inside = true → (s.phase second).inside = true →
    first = second
  /-- The handlers got the requests whole, in the order of the lock. -/
  whole : s.server.calls =
    (s.sent.take served).flatMap fun entry => entry.2.request.expectedCalls registry
  /-- The requests that wait have had their replies, in that order, except the last one of them. -/
  outstanding : s.waiting.length ≤ s.returned.length + 1
  /-- A reply that was handed out is the server's reply to that very request. -/
  mine : ∀ (k : ℕ) (thread : Thread) (asked : Asked) (reply : Reply),
    s.returned[k]? = some (thread, asked, reply) → s.waiting[k]? = some (thread, asked) ∧
      ∃ call bytes fd, s.replies[k]? = some (call, bytes, fd) ∧
      asked.request.expectedCalls registry = [call] ∧ bytes.length = asked.lenRslt ∧
      reply = asked.delivered (arriving unixAttaches fd bytes.length) bytes
  /-- The messages of the server are read once each, in order. -/
  messages : s.taken <+: s.pushed

omit [DecidableEq Thread] in
/-- The `k`-th request that waits gets the `k`-th reply. -/
theorem SessionInv.answered_at (inv : SessionInv cfg registry handlers s served past pending) {k : ℕ}
    {entry : Thread × Asked} {reply : Call H × List Byte × Fd} (waits : s.waiting[k]? = some entry)
    (replied : s.replies[k]? = some reply) : AnsweredBy registry entry reply := by
  have answered := inv.answered
  obtain ⟨low, is⟩ := List.getElem?_eq_some_iff.mp replied
  have low' : k < ((s.sent.take served).filter Waits).length := answered.length_eq.symm ▸ low
  rw [s.served_waiting served, List.getElem?_append_left low'] at waits
  obtain ⟨_, is'⟩ := List.getElem?_eq_some_iff.mp waits
  have here := (List.forall₂_iff_get.mp answered).2 k low' low
  rw [List.get_eq_getElem, List.get_eq_getElem, is, is'] at here
  exact here

omit [DecidableEq Thread] in
theorem SessionInv.safe (inv : SessionInv cfg registry handlers s served past pending) :
    SessionSafe registry s served where
  exclusive first second inside inside' :=
    Option.some.inj (((inv.inside first).mp inside).symm.trans ((inv.inside second).mp inside'))
  whole := inv.calls
  outstanding := by
    rw [inv.waiting, List.length_append, List.length_map]
    apply Nat.add_le_add_left
    cases s.holder.bind fun thread => s.active.awaited.map fun asked => (thread, asked) with
    | none => exact Nat.zero_le 1
    | some entry => exact le_rfl
  mine := by
    intro k thread asked reply returned
    obtain ⟨low, is⟩ := List.getElem?_eq_some_iff.mp returned
    have waits : s.waiting[k]? = some (thread, asked) := by
      rw [inv.waiting, List.getElem?_append_left (by rwa [List.length_map]), List.getElem?_map,
        returned]
      rfl
    have delivered := inv.delivered
    have low' : k < past.length := delivered.length_eq ▸ low
    have reads : s.replies[k]? = some past[k] := by
      rw [inv.replies, List.getElem?_append_left low', List.getElem?_eq_getElem low']
    have delivers := (List.forall₂_iff_get.mp delivered).2 k low low'
    have answered : AnsweredBy registry (thread, asked) past[k] :=
      inv.answered_at waits reads
    refine ⟨waits, past[k].1, past[k].2.1, past[k].2.2, reads, answered.call, answered.length, ?_⟩
    rw [List.get_eq_getElem, List.get_eq_getElem, is] at delivers
    exact delivers
  messages := ⟨pending.filterMap Item.pushed?, inv.messages.symm⟩

/-- **The protocol of a session.** In every interleaving of threads that use the lock, over a connection
that does not fail, where every call asks for what the handler of its request replies: one thread at a
time is inside; the handlers get every request whole, in the order of the lock; every reply is the
answer to the request of the thread that gets it, and nobody else's reply or message is read for it; and
the messages of the server are read once each. -/
theorem session_answers
    (reached : (sessionSystem cfg handlers registry).ReachableBy
      (agreeing cfg registry handlers) s) : ∃ served ≤ s.sent.length, SessionSafe registry s served := by
  obtain ⟨served, past, pending, inv⟩ := sessionInv_of_reachable reached
  exact ⟨served, inv.few, inv.safe⟩

/-! ### Progress -/

/-- A request that was written and whose thread waits for the reply. -/
def Phase.awaiting : Phase → Option Asked
  | .waits asked _ | .receives asked _ _ => some asked
  | _ => none

/-- The request is over: its thread has the reply, or a wake-up came in between. -/
def Session.Over (s : Session Thread H σ sizeT) (thread : Thread) (asked : Asked) : Prop :=
  s.phase thread = .stuck asked ∨
    s.phase thread = .unlocks ∧ ∃ reply, (thread, asked, reply) ∈ s.returned

omit [DecidableEq Thread] in
/-- **A request that was written** can be served. -/
theorem SessionInv.arrived (inv : SessionInv cfg registry handlers s served past pending)
    (wrote : s.active.left = []) (unserved : served < s.sent.length) :
    (receiveFrame sizeT s.server.stream).isSome = true := by
  have stream := inv.stream
  rw [wrote, List.append_nil, List.drop_eq_getElem_cons unserved, List.flatMap_cons,
    ← List.flatMap_map (fun entry : Thread × Asked => entry.2.request)] at stream
  have agreed := inv.agreed _ (List.getElem_mem unserved)
  rw [stream, receiveFrame_frame agreed.carried (plain_frames unixAttaches sizeT _)]
  rfl

omit [DecidableEq Thread] in
/-- A thread that waits, with nothing to read, has a request that was not served. -/
theorem SessionInv.unserved (inv : SessionInv cfg registry handlers s served past pending)
    {thread : Thread} {asked : Asked} (awaits : (s.phase thread).awaiting = some asked)
    (silent : s.server.world.toClient = []) : s.active.left = [] ∧ served < s.sent.length := by
  have toClient := inv.toClient
  have bounded := inv.bounded
  have waiting := inv.waiting
  rw [silent] at toClient
  cases is : s.phase thread with
  | waits asked got =>
    have holds := inv.holds is rfl
    have was : s.active = .waits asked got := (s.active_holder holds).trans is
    rw [was] at toClient bounded waiting
    obtain ⟨some_bytes, inside⟩ := bounded
    refine ⟨by rw [was]; rfl, inv.few.lt_of_ne fun all => ?_⟩
    cases pending with
    | nil =>
      -- every request was served, so the reply was written and read
      have count := inv.answered.length_eq
      have delivered := inv.delivered.length_eq
      have lengths := congrArg List.length waiting
      rw [inv.replies, all, List.take_length] at count
      rw [holds, Phase.awaited, if_pos some_bytes] at lengths
      simp only [Session.waiting, List.filterMap_nil, List.append_nil, Option.bind_some,
        Option.map_some, Option.toList_some, List.length_append, List.length_map,
        List.length_singleton] at count lengths
      omega
    | cons item others =>
      rw [← cfg.layout.length_encode (item.head cfg)] at inside
      rw [List.flatMap_cons, Item.cells, List.append_assoc] at toClient
      obtain ⟨cell, more, none_left⟩ := cell_left inside toClient
      cases none_left
  | receives asked fd got =>
    have holds := inv.holds is rfl
    have was : s.active = .receives asked fd got := (s.active_holder holds).trans is
    obtain ⟨call, bytes, fd', others, rfl, long⟩ := inv.reads asked fd got was
    rw [was] at toClient bounded
    have inside : got.length < bytes.length := long ▸ bounded
    rw [List.flatMap_cons, Item.cells] at toClient
    simp only [Phase.consumed, Item.head, Item.tail, List.append_assoc] at toClient
    obtain ⟨cell, more, none_left⟩ :=
      cell_left_of_message inside (List.append_cancel_left toClient)
    cases none_left
  | idle | locks asked | sends asked left | polls got | unlocks | stuck asked =>
    rw [is] at awaits
    cases awaits

/-- What one cell does to a thread that waits: it goes on waiting, or its request is over. -/
structure ReadOn (s after : Session Thread H σ sizeT) (thread : Thread) (asked : Asked) : Prop where
  sent : after.sent = s.sent
  server : after.server = s.server
  goes : (after.phase thread).awaiting = some asked ∨ after.Over thread asked

theorem Session.goto_phase (s : Session Thread H σ sizeT) (thread : Thread) (phase : Phase) :
    (s.goto thread phase).phase thread = phase :=
  Function.update_self ..

theorem ReadOn.goto {s' : Session Thread H σ sizeT} {thread : Thread} {asked : Asked} {phase : Phase}
    (sent : s'.sent = s.sent) (server : s'.server = s.server) (awaits : phase.awaiting = some asked) :
    ReadOn s (s'.goto thread phase) thread asked :=
  ⟨sent, server, .inl (by rw [s'.goto_phase]; exact awaits)⟩

/-- **Reading one cell.** -/
theorem readCell_on (cfg : ClientConfig sizeT) {thread : Thread} {asked : Asked}
    (awaits : (s.phase thread).awaiting = some asked) (cell : Cell Fd) :
    ∃ after, s.readCell cfg thread cell = some after ∧ ReadOn s after thread asked := by
  cases is : s.phase thread with
  | waits asked' got =>
    obtain rfl : asked' = asked := by
      rw [is] at awaits
      exact Option.some.inj awaits
    cases cell with
    | byte value =>
      simp only [Session.readCell, is]
      refine ⟨_, rfl, ?_⟩
      unfold Session.heard
      split
      · exact .goto rfl rfl rfl
      split
      · exact .goto rfl rfl rfl
      split
      · exact ⟨rfl, rfl, .inr (.inl (Session.goto_phase ..))⟩
      · exact .goto rfl rfl rfl
    | attached value =>
      simp only [Session.readCell, is]
      exact ⟨s, rfl, rfl, rfl, .inl awaits⟩
  | receives asked' fd got =>
    obtain rfl : asked' = asked := by
      rw [is] at awaits
      exact Option.some.inj awaits
    cases cell with
    | byte value =>
      simp only [Session.readCell, is]
      refine ⟨_, rfl, ?_⟩
      split
      · exact .goto rfl rfl rfl
      · refine ⟨rfl, rfl, .inr (.inr ⟨Session.goto_phase .., asked'.delivered fd (got ++ [value]), ?_⟩)⟩
        exact List.mem_append_right _ (List.mem_singleton_self _)
    | attached value =>
      rcases fd with _ | front <;> rcases got with _ | ⟨byte, others⟩ <;>
        simp only [Session.readCell, is]
      · exact ⟨_, rfl, .goto rfl rfl rfl⟩
      · exact ⟨s, rfl, rfl, rfl, .inl awaits⟩
      · exact ⟨s, rfl, rfl, rfl, .inl awaits⟩
      · exact ⟨s, rfl, rfl, rfl, .inl awaits⟩
  | idle | locks asked | sends asked left | polls got | unlocks | stuck asked =>
    rw [is] at awaits
    cases awaits

/-- **A request ends** with the help of the server alone: the requests in front of it are served, and
the thread reads. Each step leaves fewer requests, or as many and fewer cells. -/
theorem SessionInv.completes {s : Session Thread H σ sizeT} {served : ℕ}
    {past : List (Call H × List Byte × Fd)} {pending : List (Item H sizeT)}
    (inv : SessionInv cfg registry handlers s served past pending) {thread : Thread} {asked : Asked}
    (awaits : (s.phase thread).awaiting = some asked) :
    ∃ events after, (∀ event ∈ events, event = .serve ∨ event = .read thread) ∧
      runEvents (sessionExec cfg handlers registry) s events = some after ∧ after.Over thread asked := by
  cases front : s.server.world.toClient with
  | nil =>
    obtain ⟨wrote, unserved⟩ := inv.unserved awaits front
    have arrived := inv.arrived wrote unserved
    obtain ⟨more, inv'⟩ := inv.serve arrived
    obtain ⟨events, after, helped, runs, ends⟩ := inv'.completes awaits
    refine ⟨.serve :: events, after, ?_, ?_, ends⟩
    · exact List.forall_mem_cons.mpr ⟨.inl rfl, helped⟩
    · exact (congrArg (Option.bind · _) (if_pos arrived)).trans runs
  | cons cell rest =>
    have awaits' : ((s.incoming rest).phase thread).awaiting = some asked := awaits
    obtain ⟨after, reads, sent, server, phase⟩ := readCell_on cfg awaits' cell
    have step : sessionExec cfg handlers registry s (.read thread) = some after := by
      rw [sessionExec, front]
      exact reads
    rcases phase with goes | ends
    · obtain ⟨past', pending', inv'⟩ := inv.read front reads
      obtain ⟨events, last, helped, runs, ends⟩ := inv'.completes goes
      refine ⟨.read thread :: events, last, ?_, ?_, ends⟩
      · exact List.forall_mem_cons.mpr ⟨.inr rfl, helped⟩
      · rw [runEvents, step]
        exact runs
    · refine ⟨[.read thread], after, ?_, ?_, ends⟩
      · exact List.forall_mem_singleton.mpr (.inr rfl)
      · rw [runEvents, step]
        rfl
termination_by (s.sent.length - served, s.server.world.toClient.length)
decreasing_by
  · apply Prod.Lex.left
    exact Nat.sub_succ_lt_self _ _ unserved
  · rw [sent, server, front]
    apply Prod.Lex.right
    exact Nat.lt_succ_self _

/-- **No request waits for ever**, under the same conditions. In every state reached, a thread that has
written its request gets its reply by its own reads and by what the server has to serve, whatever the
other threads do not do; only a wake-up message in front of the reply keeps it from that. -/
theorem session_completes
    (reached : (sessionSystem cfg handlers registry).ReachableBy
      (agreeing cfg registry handlers) s) {thread : Thread} {asked : Asked}
    (awaits : (s.phase thread).awaiting = some asked) :
    ∃ events after, (∀ event ∈ events, event = .serve ∨ event = .read thread) ∧
      runEvents (sessionExec cfg handlers registry) s events = some after ∧
      after.Over thread asked := by
  obtain ⟨served, past, pending, inv⟩ := sessionInv_of_reachable reached
  exact inv.completes awaits

end Protocol

/-! ### A run -/

/-- Version 0 handlers: the first one replies with one byte. -/
def oneReply : Handlers ℕ Unit where
  respond call state :=
    match call with
    | .v0 0 _ _ => (some ([7], -1), state)
    | _ => (none, state)
  close _ := id
  checkDirtyZnode := id
  mgRemoveClient := id

def twoPlainHandlers : Registry ℕ := ⟨0xC0000000, 2, 14, fun index => ⟨some index, 0⟩⟩

def askedFirst : Asked := ⟨⟨1, [5], [], -1⟩, 1, false⟩
def askedSecond : Asked := ⟨⟨2, [], [], -1⟩, 0, false⟩

/-- A thread sends a request without a result while another one waits for the lock to send one with a
result; the server writes a message in front of the reply. -/
def twoThreads (reads : ℕ) : List (SessionEvent Bool Unit 4) :=
  [.call false askedSecond, .lock false, .call true askedFirst] ++ List.replicate 12 (.write false) ++
    [.unlock false, .lock true] ++ List.replicate 13 (.write true) ++
    [.serve, .push ⟨0, 9, 0, 0, 0⟩, .serve] ++ List.replicate reads (.read true)

def twoThreadsRun (reads : ℕ) : Option (Session Bool ℕ Unit 4) :=
  runEvents (sessionExec smallClient oneReply twoPlainHandlers) (.start ()) (twoThreads reads)

theorem askedFirst_agreed : Agreed twoPlainHandlers oneReply 4 askedFirst where
  carried := ⟨by decide, nofun⟩
  silent := nofun
  replies _ := ⟨.v0 0 [5] 1, rfl, fun _ => ⟨[7], -1, rfl, rfl⟩⟩

theorem askedSecond_agreed : Agreed twoPlainHandlers oneReply 4 askedSecond where
  carried := ⟨by decide, nofun⟩
  silent _ := by
    intro call member state
    obtain rfl := List.mem_singleton.mp
      (show call ∈ [Call.v0 1 [] 0] from member)
    rfl
  replies := nofun

theorem twoThreads_reachable {reads : ℕ} {s : Session Bool ℕ Unit 4}
    (runs : twoThreadsRun reads = some s) :
    (sessionSystem smallClient oneReply twoPlainHandlers).ReachableBy
      (agreeing smallClient twoPlainHandlers oneReply) s := by
  refine System.ReachableBy.run_all (fun _ _ _ ran => ran) ?_ (.start ⟨(), rfl⟩) runs
  have first := askedFirst_agreed
  have second := askedSecond_agreed
  intro event member state
  simp only [twoThreads, List.mem_append, List.mem_cons, List.mem_replicate, List.not_mem_nil,
    or_false] at member
  rcases member with (((((rfl | rfl | rfl) | ⟨-, rfl⟩) | (rfl | rfl)) | ⟨-, rfl⟩) |
    (rfl | rfl | rfl)) | ⟨-, rfl⟩
  · exact second
  · trivial
  · exact first
  · trivial
  · trivial
  · trivial
  · trivial
  · trivial
  · show (0 : BitVec 32) ≠ -1
    decide
  · trivial
  · trivial

theorem session_answers_two : ∃ s, twoThreadsRun 41 = some s ∧
    s.returned = [(true, askedFirst, ⟨[7], none⟩)] ∧ s.taken = [⟨0, 9, 0, 0, 0⟩] ∧
    ∃ served ≤ s.sent.length, SessionSafe twoPlainHandlers s served := by
  have seen : (twoThreadsRun 41).map (fun s => (s.returned, s.taken)) =
    some ([(true, askedFirst, ⟨[7], none⟩)], [⟨0, 9, 0, 0, 0⟩]) := by decide +kernel
  obtain ⟨s, runs, same⟩ := Option.map_eq_some_iff.mp seen
  obtain ⟨returned, taken⟩ := Prod.mk.inj same
  exact ⟨s, runs, returned, taken, session_answers (twoThreads_reachable runs)⟩

theorem session_completes_two : ∃ s, twoThreadsRun 0 = some s ∧
    ∃ events after, (∀ event ∈ events, event = .serve ∨ event = .read true) ∧
      runEvents (sessionExec smallClient oneReply twoPlainHandlers) s events = some after ∧
      after.Over true askedFirst := by
  have seen : (twoThreadsRun 0).map (fun s => (s.phase true).awaiting) = some (some askedFirst) := by
    decide +kernel
  obtain ⟨s, runs, awaits⟩ := Option.map_eq_some_iff.mp seen
  exact ⟨s, runs, session_completes (twoThreads_reachable runs) awaits⟩

end Aple.ClientServer
