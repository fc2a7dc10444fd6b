/-
**A call of the session is a call of ClientRequestEx2.**

The steps of a thread are cell by cell, with the steps of the other threads and of the server in
between; `clientRequestEx2` does the whole call at once.

* `Entered` — who is inside has the lock, and was let in by the tests at the start of the call.
* `Phase.rest` — what `clientRequestEx2` still has to do in each phase.
* `Called` — what a call has done so far; `called_step` — one step of anybody.
* **`session_call_refines`** — whatever happens in between, a call writes and gives back what
  `clientRequestEx2` does when the cells that the thread read are in front of it.
-/

import Aple.ClientServer.SessionSafe
import Aple.Lib.Outputs

namespace Aple.ClientServer

open Aple.Lib

variable {Thread H σ ω : Type} {sizeT : ℕ} [DecidableEq Thread]
  {cfg : ClientConfig sizeT} {registry : Registry H} {handlers : Handlers H σ}
  {out : ClientOutside sizeT ω} {s after : Session Thread H σ sizeT} {thread : Thread} {asked : Asked}

/-! ### Reading a cell -/

/-- The cases of a reading step, by the phase of the thread and the cell it finds. -/
inductive ReadCase (cfg : ClientConfig sizeT) (s : Session Thread H σ sizeT) (thread : Thread) :
    Phase → Cell Fd → Session Thread H σ sizeT → Prop
  | part {asked : Asked} {got : List Byte} {value : Byte}
      (short : (got ++ [value]).length < cfg.layout.size) : ReadCase cfg s thread (.waits asked got)
        (.byte value) (s.goto thread (.waits asked (got ++ [value])))
  | whole {asked : Asked} {got : List Byte} {value : Byte}
      (full : cfg.layout.size ≤ (got ++ [value]).length) : ReadCase cfg s thread (.waits asked got)
        (.byte value) (s.heard cfg thread asked (cfg.layout.decode (got ++ [value])))
  | lost {asked : Asked} {got : List Byte} {value : Fd} :
      ReadCase cfg s thread (.waits asked got) (.attached value) s
  | replyPart {asked : Asked} {fd : Option Fd} {got : List Byte} {value : Byte}
      (short : (got ++ [value]).length < asked.lenRslt) : ReadCase cfg s thread (.receives asked fd got)
        (.byte value) (s.goto thread (.receives asked fd (got ++ [value])))
  | replyWhole {asked : Asked} {fd : Option Fd} {got : List Byte} {value : Byte}
      (full : asked.lenRslt ≤ (got ++ [value]).length) : ReadCase cfg s thread (.receives asked fd got)
        (.byte value)
        ({ s with returned := s.returned ++ [(thread, asked, asked.delivered fd (got ++ [value]))] }.goto
          thread .unlocks)
  | replyFd {asked : Asked} {value : Fd} : ReadCase cfg s thread (.receives asked none [])
      (.attached value) (s.goto thread (.receives asked (some value) []))
  | replyLost {asked : Asked} {fd : Option Fd} {got : List Byte} {value : Fd}
      (behind : fd ≠ none ∨ got ≠ []) :
      ReadCase cfg s thread (.receives asked fd got) (.attached value) s
  | pollPart {got : List Byte} {value : Byte} (short : (got ++ [value]).length < cfg.layout.size) :
      ReadCase cfg s thread (.polls got) (.byte value) (s.goto thread (.polls (got ++ [value])))
  | pollWhole {got : List Byte} {value : Byte} (full : cfg.layout.size ≤ (got ++ [value]).length) :
      ReadCase cfg s thread (.polls got) (.byte value)
        ({ s with taken := s.taken ++ [cfg.layout.decode (got ++ [value])] }.goto thread .unlocks)
  | pollLost {got : List Byte} {value : Fd} : ReadCase cfg s thread (.polls got) (.attached value) s

/-- **A reading step is one of these cases.** -/
theorem readCell_cases {cell : Cell Fd} (reads : s.readCell cfg thread cell = some after) :
    ReadCase cfg s thread (s.phase thread) cell after := by
  cases is : s.phase thread with
  | waits asked got =>
    cases cell with
    | byte value =>
      simp only [Session.readCell, is] at reads
      rw [← Option.some.inj reads]
      split
      · exact .part ‹_›
      · exact .whole (Nat.le_of_not_lt ‹_›)
    | attached value =>
      simp only [Session.readCell, is] at reads
      rw [← Option.some.inj reads]
      exact .lost
  | receives asked fd got =>
    cases cell with
    | byte value =>
      simp only [Session.readCell, is] at reads
      rw [← Option.some.inj reads]
      split
      · exact .replyPart ‹_›
      · exact .replyWhole (Nat.le_of_not_lt ‹_›)
    | attached value =>
      cases fd with
      | none =>
        cases got with
        | nil =>
          simp only [Session.readCell, is] at reads
          rw [← Option.some.inj reads]
          exact .replyFd
        | cons first others =>
          simp only [Session.readCell, is] at reads
          rw [← Option.some.inj reads]
          exact .replyLost (.inr (List.cons_ne_nil _ _))
      | some front =>
        simp only [Session.readCell, is] at reads
        rw [← Option.some.inj reads]
        exact .replyLost (.inl (Option.some_ne_none _))
  | polls got =>
    cases cell with
    | byte value =>
      simp only [Session.readCell, is] at reads
      rw [← Option.some.inj reads]
      split
      · exact .pollPart ‹_›
      · exact .pollWhole (Nat.le_of_not_lt ‹_›)
    | attached value =>
      simp only [Session.readCell, is] at reads
      rw [← Option.some.inj reads]
      exact .pollLost
  | idle | locks | sends | unlocks | stuck => simp [Session.readCell, is] at reads

/-! ### Who is inside -/

/-- Who is inside has the lock, and a call that waits for it passed the first tests. -/
structure Entered (cfg : ClientConfig sizeT) (s : Session Thread H σ sizeT) : Prop where
  holds : ∀ thread, (s.phase thread).inside = true → s.holder = some thread
  client : ∀ thread asked, s.phase thread = .locks asked → cfg.mgIsServer = false
  permits : ∀ thread asked, s.phase thread = .locks asked → Permitted cfg asked.request.id

/-- A thread that has the lock goes on with it. -/
theorem Entered.moves (entered : Entered cfg s) (mine : (s.phase thread).inside = true) {phase : Phase}
    (inside : phase.inside = true) (holder : after.holder = s.holder)
    (phases : after.phase = Function.update s.phase thread phase) : Entered cfg after := by
  have held := entered.holds thread mine
  have outside : ∀ other asked, after.phase other = .locks asked → s.phase other = .locks asked := by
    intro other asked locks
    rw [phases] at locks
    by_cases same : other = thread
    · rw [same, Function.update_self] at locks
      rw [locks] at inside
      cases inside
    · rwa [Function.update_of_ne same] at locks
  refine ⟨fun other is => ?_, fun other asked locks => entered.client other asked (outside other asked locks),
    fun other asked locks => entered.permits other asked (outside other asked locks)⟩
  rw [holder]
  by_cases same : other = thread
  · rw [same]
    exact held
  · rw [phases, Function.update_of_ne same] at is
    exact entered.holds other is

/-- A thread gets the lock when nobody has it. -/
theorem Entered.enters (entered : Entered cfg s) (free : s.holder = none) {phase : Phase}
    (inside : phase.inside = true) (holder : after.holder = some thread)
    (phases : after.phase = Function.update s.phase thread phase) : Entered cfg after := by
  have outside : ∀ other asked, after.phase other = .locks asked → s.phase other = .locks asked := by
    intro other asked locks
    rw [phases] at locks
    by_cases same : other = thread
    · rw [same, Function.update_self] at locks
      rw [locks] at inside
      cases inside
    · rwa [Function.update_of_ne same] at locks
  refine ⟨fun other is => ?_, fun other asked locks => entered.client other asked (outside other asked locks),
    fun other asked locks => entered.permits other asked (outside other asked locks)⟩
  rw [holder]
  by_cases same : other = thread
  · rw [same]
  · rw [phases, Function.update_of_ne same] at is
    have held := entered.holds other is
    rw [free] at held
    cases held

/-- The thread that has the lock gives it back. -/
theorem Entered.leaves (entered : Entered cfg s) (held : s.holder = some thread)
    (phases : after.phase = Function.update s.phase thread .idle) : Entered cfg after := by
  have outside : ∀ other phase, phase ≠ .idle → after.phase other = phase →
      other ≠ thread ∧ s.phase other = phase := by
    intro other phase busy is
    rw [phases] at is
    by_cases same : other = thread
    · rw [same, Function.update_self] at is
      exact absurd is.symm busy
    · rw [Function.update_of_ne same] at is
      exact ⟨same, is⟩
  refine ⟨fun other is => ?_, fun other asked locks =>
    entered.client other asked (outside other (.locks asked) nofun locks).2, fun other asked locks =>
    entered.permits other asked (outside other (.locks asked) nofun locks).2⟩
  obtain ⟨differs, before⟩ := outside other _ (fun idle => by rw [idle] at is; cases is) rfl
  rw [← before] at is
  have mine := entered.holds other is
  rw [held] at mine
  exact absurd (Option.some.inj mine).symm differs

omit [DecidableEq Thread] in
/-- Nothing happened to the threads. -/
theorem Entered.same (entered : Entered cfg s) (holder : after.holder = s.holder)
    (phase : after.phase = s.phase) : Entered cfg after := by
  refine ⟨?_, ?_, ?_⟩
  · rw [holder, phase]
    exact entered.holds
  · rw [phase]
    exact entered.client
  · rw [phase]
    exact entered.permits

/-- A reading step keeps its thread inside. -/
theorem readCell_moves {cell : Cell Fd} (reads : s.readCell cfg thread cell = some after) :
    (s.phase thread).inside = true ∧ after.holder = s.holder ∧
      ∃ phase, phase.inside = true ∧ after.phase = Function.update s.phase thread phase := by
  have steps := readCell_cases reads
  have stays : (s.phase thread).inside = true →
      ∃ phase, phase.inside = true ∧ s.phase = Function.update s.phase thread phase :=
    fun inside => ⟨s.phase thread, inside, (Function.update_eq_self thread s.phase).symm⟩
  generalize is : s.phase thread = before at steps stays
  cases steps with
  | part => exact ⟨rfl, rfl, _, rfl, rfl⟩
  | whole =>
    unfold Session.heard
    split
    · exact ⟨rfl, rfl, _, rfl, rfl⟩
    · refine ⟨rfl, rfl, _, ?_, rfl⟩
      split <;> rfl
  | replyPart => exact ⟨rfl, rfl, _, rfl, rfl⟩
  | replyWhole => exact ⟨rfl, rfl, _, rfl, rfl⟩
  | replyFd => exact ⟨rfl, rfl, _, rfl, rfl⟩
  | pollPart => exact ⟨rfl, rfl, _, rfl, rfl⟩
  | pollWhole => exact ⟨rfl, rfl, _, rfl, rfl⟩
  | lost | replyLost | pollLost => exact ⟨rfl, rfl, stays rfl⟩

theorem entered_step {event : SessionEvent Thread σ sizeT} (entered : Entered cfg s)
    (runs : sessionExec cfg handlers registry s event = some after) : Entered cfg after := by
  cases event with
  | call thread asked =>
    obtain ⟨⟨idle, client, permitted⟩, moved⟩ := Option.ite_none_right_eq_some.mp runs
    rw [← Option.some.inj moved]
    refine ⟨fun other is => ?_, fun other _ _ => client, fun other asked' locks => ?_⟩
    · by_cases same : other = thread
      · rw [same] at is
        simp [Session.goto, Phase.inside] at is
      · simp only [Session.goto, Function.update_of_ne same] at is
        exact entered.holds other is
    · by_cases same : other = thread
      · simp only [same, Session.goto, Function.update_self, Phase.locks.injEq] at locks
        rw [← locks]
        exact permitted_iff.mpr permitted
      · simp only [Session.goto, Function.update_of_ne same] at locks
        exact entered.permits other asked' locks
  | lock thread =>
    simp only [sessionExec] at runs
    split at runs
    · rw [← Option.some.inj runs]
      exact entered.enters ‹_› rfl rfl rfl
    · cases runs
  | write thread =>
    simp only [sessionExec] at runs
    split at runs
    · rename_i asked cell left sends
      rw [← Option.some.inj runs]
      refine entered.moves (by rw [sends]; rfl) ?_ rfl rfl
      split
      · unfold Asked.afterWrite
        split <;> rfl
      · rfl
    · cases runs
  | read thread =>
    simp only [sessionExec] at runs
    split at runs
    · cases runs
    rename_i cell rest front
    obtain ⟨mine, holder, phase, inside, phases⟩ := readCell_moves runs
    exact (entered.same rfl rfl).moves mine inside holder phases
  | unlock thread =>
    obtain ⟨unlocks, moved⟩ := Option.ite_none_right_eq_some.mp runs
    rw [← Option.some.inj moved]
    exact entered.leaves (entered.holds thread (by rw [unlocks]; rfl)) rfl
  | poll thread =>
    obtain ⟨⟨-, free⟩, moved⟩ := Option.ite_none_right_eq_some.mp runs
    rw [← Option.some.inj moved]
    exact entered.enters free rfl rfl rfl
  | serve =>
    obtain ⟨-, moved⟩ := Option.ite_none_right_eq_some.mp runs
    rw [← Option.some.inj moved]
    exact entered.same rfl rfl
  | push msg =>
    rw [← Option.some.inj runs]
    exact entered.same rfl rfl
  | act state =>
    rw [← Option.some.inj runs]
    exact entered.same rfl rfl

theorem entered_of_reachable (reached : (sessionSystem cfg handlers registry).Reachable s) :
    Entered cfg s := by
  refine reached.invariant (Entered cfg) ?_ ?_
  · rintro _ ⟨state, rfl⟩
    exact ⟨nofun, nofun, nofun⟩
  · exact fun _ _ _ _ entered _ runs => entered_step entered runs

/-! ### What is left of a call -/

section Rest

variable (cfg) (out)

/-- The loop that waits for the marker, and the reply behind it. -/
def waitReply (asked : Asked) (fuel : ℕ) (w : Wire sizeT ω) : Option (ClientResult (Wire sizeT ω)) :=
  (loop (waitTurn cfg (replyOps unixAttaches out)) fuel w).map
    (receiveReply (replyOps unixAttaches out) asked.lenRslt asked.wantsFd)

/-- What `clientRequestEx2` still has to do, where a request counts as written. The bytes that a read
got so far are put back in front of the stream. -/
def Phase.rest (asked : Asked) (reply : Option Reply) (fuel : ℕ) (phase : Phase) (w : Wire sizeT ω) :
    Option (ClientResult (Wire sizeT ω)) :=
  match phase with
  | .sends _ _ =>
    if asked.lenRslt = 0 then some (.ok none { w with world := out.onUnlock w.world })
    else waitReply cfg out asked (fuel + 1) w
  | .waits _ got => waitReply cfg out asked (fuel + 1) { w with toClient := cells got ++ w.toClient }
  | .receives _ fd got => some (receiveReply (replyOps unixAttaches out) asked.lenRslt asked.wantsFd
      (.marker { w with toClient := attachment fd ++ (cells got ++ w.toClient) }))
  | _ => some (.ok reply { w with world := out.onUnlock w.world })

/-- Behind the request. -/
def Wire.behind (begun : Wire sizeT ω) (asked : Asked) : Wire sizeT ω :=
  { begun with
    toServer := begun.toServer ++ frame unixAttaches sizeT asked.request
    world := out.onLock begun.world }

/-- **The whole of a call** is what is left of it before the first write. -/
theorem clientRequestEx2_rest (client : cfg.mgIsServer = false)
    (permitted : Permitted cfg asked.request.id) (begun : Wire sizeT ω) (more left : List (Cell Fd))
    (fuel : ℕ) : clientRequestEx2 cfg (replyOps unixAttaches out) (fuel + 1) asked.request asked.lenRslt
      asked.wantsFd { begun with toClient := more } =
    (Phase.sends asked left).rest cfg out asked none fuel { begun.behind out asked with toClient := more } := by
  simp only [clientRequestEx2, Phase.rest, clientRequestNoReply,
    requestHead_wire unixAttaches out client asked.request permitted]
  rfl

/-! ### Reading a cell, and what is left -/

/-- What is left depends on what can be read. -/
theorem waitReply_congr (fuel : ℕ) (w : Wire sizeT ω) {stream stream' : List (Cell Fd)}
    (same : readBytes cfg.layout.size stream = readBytes cfg.layout.size stream') :
    waitReply cfg out asked (fuel + 1) { w with toClient := stream } =
      waitReply cfg out asked (fuel + 1) { w with toClient := stream' } := by
  unfold waitReply
  cases read : readBytes cfg.layout.size stream' with
  | none =>
    rw [read] at same
    have closes : ∀ stream, readBytes cfg.layout.size stream = none →
        waitTurn cfg (replyOps unixAttaches out) { w with toClient := stream } =
          some (.inr (.error .closed { w with toClient := stream })) := by
      intro stream ends
      simp only [waitTurn, replyOps, ends, Code.negative, if_true]
    rw [loop_exit (closes stream same), loop_exit (closes stream' read)]
    rfl
  | some result =>
    rw [read] at same
    have turns : waitTurn cfg (replyOps unixAttaches out) { w with toClient := stream } =
        waitTurn cfg (replyOps unixAttaches out) { w with toClient := stream' } := by
      simp only [waitTurn, replyOps, same, read]
    unfold loop
    rw [turns]

theorem receiveReply_congr (w : Wire sizeT ω) {stream stream' : List (Cell Fd)}
    (same : receiveMsg asked.lenRslt stream = receiveMsg asked.lenRslt stream') :
    receiveReply (replyOps unixAttaches out) asked.lenRslt asked.wantsFd
        (.marker { w with toClient := stream }) =
      receiveReply (replyOps unixAttaches out) asked.lenRslt asked.wantsFd
        (.marker { w with toClient := stream' }) := by
  cases read : receiveMsg asked.lenRslt stream' with
  | none =>
    rw [read] at same
    simp only [receiveReply, replyOps, same, read, Code.negative, if_true, sockError]
  | some result =>
    rw [read] at same
    simp only [receiveReply, replyOps, same, read]

/-- A message that is no wake-up changes the client alone. -/
theorem processSocketMessage_quiet {msg : Msg sizeT} (quiet : msg.message ≠ cfg.msgWakeupClient)
    (w : Wire sizeT ω) : ∃ world, ∀ toClient,
      processSocketMessage cfg (replyOps unixAttaches out) msg { w with toClient := toClient } =
        some { w with toClient := toClient, world := world } := by
  by_cases updates : msg.message = cfg.msgUpdatecliwin ∧ out.checkHwnd msg.hwnd w.world = true
  · exact ⟨out.updateWindow msg.hwnd (losword msg.wParam) (hisword msg.wParam) (losword msg.lParam)
      (hisword msg.lParam) w.world, fun toClient => (if_neg quiet).trans (if_pos updates)⟩
  by_cases isNull : msg.hwnd = cfg.hwndNull
  · exact ⟨out.queueDeskMessage { msg with hwnd := cfg.hwndDesktop } w.world, fun toClient =>
      (if_neg quiet).trans ((if_neg updates).trans (if_pos isNull))⟩
  by_cases mine : out.checkHwnd msg.hwnd w.world = true
  · exact ⟨out.queueDeskMessage msg w.world, fun toClient =>
      (if_neg quiet).trans ((if_neg updates).trans ((if_neg isNull).trans (if_pos mine)))⟩
  · exact ⟨w.world, fun toClient =>
      (if_neg quiet).trans ((if_neg updates).trans ((if_neg isNull).trans (if_neg mine)))⟩

/-- The bytes of a message that is whole. -/
theorem readBytes_whole {got : List Byte} {value : Byte} {size : ℕ} (inside : got.length < size)
    (full : size ≤ (got ++ [value]).length) (rest : List (Cell Fd)) :
    readBytes size (cells got ++ .byte value :: rest) = some (got ++ [value], rest) := by
  have length : (got ++ [value]).length = size := by
    rw [List.length_append, List.length_singleton] at full ⊢
    omega
  have whole : cells got ++ .byte value :: rest = cells (got ++ [value]) ++ rest := by
    rw [cells_append, List.append_assoc]
    rfl
  rw [whole, ← length]
  exact readBytes_cells _ _

/-- The marker is read: the loop ends. -/
theorem waits_marker {got : List Byte} {value : Byte} (inside : got.length < cfg.layout.size)
    (full : cfg.layout.size ≤ (got ++ [value]).length)
    (marks : (cfg.layout.decode (got ++ [value])).hwnd = cfg.hwndInvalid) (w : Wire sizeT ω)
    (rest : List (Cell Fd)) (fuel : ℕ) :
    waitReply cfg out asked (fuel + 1) { w with toClient := cells got ++ .byte value :: rest } =
      some (receiveReply (replyOps unixAttaches out) asked.lenRslt asked.wantsFd
        (.marker { w with toClient := rest })) := by
  have turns : waitTurn cfg (replyOps unixAttaches out)
      { w with toClient := cells got ++ .byte value :: rest } =
      some (.inr (.marker { w with toClient := rest })) := by
    simp only [waitTurn, replyOps, readBytes_whole inside full, negative_count, Bool.false_eq_true,
      if_false, if_pos marks]
  rw [waitReply, loop_exit turns]
  rfl

/-- Another message is read: the loop goes on. -/
theorem waits_msg {got : List Byte} {value : Byte} (inside : got.length < cfg.layout.size)
    (full : cfg.layout.size ≤ (got ++ [value]).length)
    (async : (cfg.layout.decode (got ++ [value])).hwnd ≠ cfg.hwndInvalid) {w w' : Wire sizeT ω}
    {rest : List (Cell Fd)}
    (handled : processSocketMessage cfg (replyOps unixAttaches out)
      (cfg.layout.decode (got ++ [value])) { w with toClient := rest } = some w') (fuel : ℕ) :
    waitReply cfg out asked (fuel + 1) { w with toClient := cells got ++ .byte value :: rest } =
      waitReply cfg out asked fuel w' := by
  have turns : waitTurn cfg (replyOps unixAttaches out)
      { w with toClient := cells got ++ .byte value :: rest } = some (.inl w') := by
    have read := readBytes_whole inside full rest
    simp only [replyOps] at handled
    simp only [waitTurn, replyOps, read, negative_count, Bool.false_eq_true, if_false, if_neg async,
      handled]
  rw [waitReply, loop_again turns]
  rfl

/-- The reply is whole. -/
theorem receives_whole {fd : Option Fd} {got : List Byte} {value : Byte}
    (inside : got.length < asked.lenRslt) (full : asked.lenRslt ≤ (got ++ [value]).length)
    (w : Wire sizeT ω) (rest : List (Cell Fd)) :
    receiveReply (replyOps unixAttaches out) asked.lenRslt asked.wantsFd
        (.marker { w with toClient := attachment fd ++ (cells got ++ .byte value :: rest) }) =
      .ok (some (asked.delivered fd (got ++ [value])))
        { w with toClient := rest, world := out.onUnlock w.world } := by
  have bytes := readBytes_whole inside full rest
  have received : receiveMsg asked.lenRslt (attachment fd ++ (cells got ++ .byte value :: rest)) =
      some (fd, got ++ [value], rest) := by
    cases fd with
    | some front =>
      show (readBytes asked.lenRslt (cells got ++ .byte value :: rest)).map _ = _
      rw [bytes]
      rfl
    | none =>
      have plain : ∃ first others, cells got ++ .byte value :: rest = .byte first :: others := by
        cases got with
        | nil => exact ⟨_, _, rfl⟩
        | cons first others => exact ⟨_, _, rfl⟩
      obtain ⟨first, others, starts⟩ := plain
      rw [starts] at bytes
      show receiveMsg asked.lenRslt (cells got ++ .byte value :: rest) = _
      rw [starts, receiveMsg, bytes]
      · rfl
      · intro value others same
        cases same
  simp only [receiveReply, replyOps, received, negative_count, Bool.false_eq_true, if_false]
  rfl

end Rest

/-! ### What a call has done -/

/-- The cell that a step reads. -/
def Session.reads (s : Session Thread H σ sizeT) : SessionEvent Thread σ sizeT → List (Cell Fd)
  | .read _ => s.server.world.toClient.take 1
  | _ => []

/-- The cell that a step writes. -/
def Session.writes (s : Session Thread H σ sizeT) : SessionEvent Thread σ sizeT → List (Cell Fd)
  | .write thread => (s.phase thread).left.take 1
  | _ => []

section

variable (cfg) (registry) (handlers)

/-- The cells that the threads read in a run. -/
def cellsRead (s : Session Thread H σ sizeT) (events : List (SessionEvent Thread σ sizeT)) :
    List (Cell Fd) := outputs (sessionExec cfg handlers registry) Session.reads s events

/-- The cells that they write. -/
def cellsWritten (s : Session Thread H σ sizeT) (events : List (SessionEvent Thread σ sizeT)) :
    List (Cell Fd) := outputs (sessionExec cfg handlers registry) Session.writes s events

end

/-- Where a call is; it has no reply until it is over. -/
def Phase.At (asked : Asked) (reply : Option Reply) : Phase → Prop
  | .sends asked' _ | .waits asked' _ | .receives asked' _ _ => asked' = asked ∧ reply = none
  | .unlocks => True
  | _ => False

/-- **What a call has done** since `first`, where its thread got the lock: what it wrote and read, the
messages that it handled, the wire behind them, and the reply. -/
structure Called (cfg : ClientConfig sizeT) (out : ClientOutside sizeT ω) (begun : Wire sizeT ω)
    (thread : Thread) (asked : Asked) (first s : Session Thread H σ sizeT)
    (written consumed : List (Cell Fd)) (msgs : List (Msg sizeT)) (handled : Wire sizeT ω)
    (reply : Option Reply) : Prop where
  holder : s.holder = some thread
  place : (s.phase thread).At asked reply
  bounded : (s.phase thread).Bounded cfg
  taken : s.taken = first.taken ++ msgs
  returned : s.returned = first.returned ++ (reply.map fun reply => (thread, asked, reply)).toList
  writes : written ++ (s.phase thread).left = frame unixAttaches sizeT asked.request
  handles : ∀ more, processAll cfg (replyOps unixAttaches out) msgs
    { begun.behind out asked with toClient := more } = some { handled with toClient := more }
  runs : ∀ more fuel, clientRequestEx2 cfg (replyOps unixAttaches out) (msgs.length + (fuel + 1))
      asked.request asked.lenRslt asked.wantsFd { begun with toClient := consumed ++ more } =
    (s.phase thread).rest cfg out asked reply fuel { handled with toClient := more }

/-- A step of the thread itself. -/
def SessionEvent.Own (thread : Thread) (event : SessionEvent Thread σ sizeT) : Prop :=
  event = .write thread ∨ event = .read thread ∨ event = .unlock thread

omit [DecidableEq Thread] in
theorem holder_unique (entered : Entered cfg s) (held : s.holder = some thread) {other : Thread}
    (inside : (s.phase other).inside = true) : other = thread := by
  have mine := entered.holds other inside
  rw [held] at mine
  exact (Option.some.inj mine).symm

/-- **A step of somebody else** leaves a call as it is. -/
theorem other_step {event : SessionEvent Thread σ sizeT} (entered : Entered cfg s)
    (held : s.holder = some thread) (inside : (s.phase thread).inside = true)
    (other : ¬ event.Own thread) (runs : sessionExec cfg handlers registry s event = some after) :
    after.holder = some thread ∧ after.phase thread = s.phase thread ∧ after.taken = s.taken ∧
      after.returned = s.returned ∧ s.reads event = [] ∧ s.writes event = [] := by
  cases event with
  | call thread' asked =>
    obtain ⟨⟨idle, -, -⟩, moved⟩ := Option.ite_none_right_eq_some.mp runs
    have differs : thread ≠ thread' := by
      rintro rfl
      rw [idle] at inside
      cases inside
    rw [← Option.some.inj moved]
    exact ⟨held, Function.update_of_ne differs _ _, rfl, rfl, rfl, rfl⟩
  | lock thread' =>
    simp only [sessionExec, held] at runs
    split at runs
    · rename_i free
      cases free
    · cases runs
  | write thread' =>
    simp only [sessionExec] at runs
    split at runs
    · rename_i sends
      have mine : thread' = thread := holder_unique entered held (by rw [sends]; rfl)
      exact absurd (.inl (by rw [mine])) other
    · cases runs
  | read thread' =>
    simp only [sessionExec] at runs
    split at runs
    · cases runs
    · obtain ⟨reader, -⟩ := readCell_moves runs
      have mine : thread' = thread := holder_unique entered held reader
      exact absurd (.inr (.inl (by rw [mine]))) other
  | unlock thread' =>
    obtain ⟨unlocks, -⟩ := Option.ite_none_right_eq_some.mp runs
    have mine : thread' = thread := holder_unique entered held (by rw [unlocks]; rfl)
    exact absurd (.inr (.inr (by rw [mine]))) other
  | poll thread' =>
    obtain ⟨⟨-, free⟩, -⟩ := Option.ite_none_right_eq_some.mp runs
    rw [held] at free
    cases free
  | serve =>
    obtain ⟨-, moved⟩ := Option.ite_none_right_eq_some.mp runs
    rw [← Option.some.inj moved]
    exact ⟨held, rfl, rfl, rfl, rfl, rfl⟩
  | push msg =>
    rw [← Option.some.inj runs]
    exact ⟨held, rfl, rfl, rfl, rfl, rfl⟩
  | act state =>
    rw [← Option.some.inj runs]
    exact ⟨held, rfl, rfl, rfl, rfl, rfl⟩

section Call

variable {begun handled : Wire sizeT ω} {first : Session Thread H σ sizeT}
  {written consumed : List (Cell Fd)} {msgs : List (Msg sizeT)} {reply : Option Reply}

omit [DecidableEq Thread] in
/-- Nothing happened to the call. -/
theorem Called.same (called : Called cfg out begun thread asked first s written consumed msgs handled reply)
    (holder : after.holder = some thread) (phase : after.phase thread = s.phase thread)
    (taken : after.taken = s.taken) (returned : after.returned = s.returned) :
    Called cfg out begun thread asked first after written consumed msgs handled reply := by
  refine ⟨holder, ?_, ?_, ?_, ?_, ?_, called.handles, ?_⟩
  · rw [phase]
    exact called.place
  · rw [phase]
    exact called.bounded
  · rw [taken]
    exact called.taken
  · rw [returned]
    exact called.returned
  · rw [phase]
    exact called.writes
  · rw [phase]
    exact called.runs

/-- Behind a write there is as much left as before. -/
theorem written_phase (cfg : ClientConfig sizeT) (out : ClientOutside sizeT ω) (asked : Asked) (cell : Cell Fd) (left : List (Cell Fd)) :
    ∃ phase, phase = (if left = [] then asked.afterWrite else Phase.sends asked left) ∧
      phase.At asked none ∧ phase.Bounded cfg ∧ phase.left = left ∧ ∀ fuel (w : Wire sizeT ω),
        phase.rest cfg out asked none fuel w =
          (Phase.sends asked (cell :: left)).rest cfg out asked none fuel w := by
  by_cases done : left = []
  · rw [if_pos done, done]
    unfold Asked.afterWrite
    by_cases none_waits : asked.lenRslt = 0
    · rw [if_pos none_waits]
      refine ⟨_, rfl, trivial, trivial, rfl, fun fuel w => ?_⟩
      exact (if_pos none_waits).symm
    · rw [if_neg none_waits]
      refine ⟨_, rfl, ⟨rfl, rfl⟩, ⟨Nat.pos_of_ne_zero none_waits, cfg.layout.size_pos⟩, rfl,
        fun fuel w => ?_⟩
      exact (if_neg none_waits).symm
  · rw [if_neg done]
    exact ⟨_, rfl, ⟨rfl, rfl⟩, done, rfl, fun _ _ => rfl⟩

/-- **The thread writes a cell.** -/
theorem Called.write (called : Called cfg out begun thread asked first s written consumed msgs handled reply)
    (runs : sessionExec cfg handlers registry s (.write thread) = some after) :
    Called cfg out begun thread asked first after (written ++ s.writes (.write thread)) consumed msgs
      handled reply := by
  simp only [sessionExec] at runs
  split at runs
  case h_2 => cases runs
  rename_i asked' cell left sends
  have place := called.place
  have writes := called.writes
  have steps := called.runs
  rw [sends] at place writes steps
  obtain ⟨rfl, rfl⟩ := place
  rw [← Option.some.inj runs]
  have wrote : s.writes (.write thread) = [cell] := by
    simp only [Session.writes, sends, Phase.left, List.take_succ_cons, List.take_zero]
  obtain ⟨phase, is, place, bounded, rest, same⟩ := written_phase cfg out asked' cell left
  rw [wrote, ← is]
  have here : (((s.written cell).goto thread phase).phase thread) = phase := Function.update_self ..
  refine ⟨called.holder, ?_, ?_, called.taken, called.returned, ?_, called.handles, ?_⟩
  · rw [here]
    exact place
  · rw [here]
    exact bounded
  · rw [here, rest, List.append_assoc]
    exact writes
  · rw [here]
    intro more fuel
    rw [same]
    exact steps more fuel

omit [DecidableEq Thread] in
/-- A cell that brings neither a message nor the reply. -/
theorem Called.reads_on
    (called : Called cfg out begun thread asked first s written consumed msgs handled reply)
    {cell : Cell Fd} {phase : Phase} (holder : after.holder = s.holder)
    (here : after.phase thread = phase) (taken : after.taken = s.taken)
    (returned : after.returned = s.returned) (place : phase.At asked reply)
    (bounded : phase.Bounded cfg) (left : phase.left = (s.phase thread).left)
    (same : ∀ more fuel, (s.phase thread).rest cfg out asked reply fuel
      { handled with toClient := cell :: more } =
        phase.rest cfg out asked reply fuel { handled with toClient := more }) :
    Called cfg out begun thread asked first after written (consumed ++ [cell]) msgs handled reply := by
  refine ⟨holder.trans called.holder, ?_, ?_, ?_, ?_, ?_, called.handles, fun more fuel => ?_⟩
  · rw [here]
    exact place
  · rw [here]
    exact bounded
  · rw [taken]
    exact called.taken
  · rw [returned]
    exact called.returned
  · rw [here, left]
    exact called.writes
  · rw [here, ← same, List.append_assoc]
    exact called.runs (cell :: more) fuel

/-- The wake-up that the lock of its own thread keeps waiting. -/
def Stuck (s : Session Thread H σ sizeT) (thread : Thread) : Prop :=
  s.holder = some thread ∧ ∃ asked, s.phase thread = .stuck asked

/-- **A message is whole.** -/
theorem Called.heard
    (called : Called cfg out begun thread asked first s written consumed msgs handled reply)
    {got : List Byte} {value : Byte} (waits : s.phase thread = .waits asked got)
    (full : cfg.layout.size ≤ (got ++ [value]).length) :
    (∃ msgs' handled', Called cfg out begun thread asked first
      (s.heard cfg thread asked (cfg.layout.decode (got ++ [value]))) written (consumed ++ [.byte value])
        msgs' handled' reply) ∨
      Stuck (s.heard cfg thread asked (cfg.layout.decode (got ++ [value]))) thread := by
  have place := called.place
  have bounded := called.bounded
  have writes := called.writes
  have steps := called.runs
  rw [waits] at place bounded writes steps
  obtain ⟨some_reply, inside⟩ := bounded
  unfold Session.heard
  by_cases marks : (cfg.layout.decode (got ++ [value])).hwnd = cfg.hwndInvalid
  · rw [if_pos marks]
    refine .inl ⟨msgs, handled, called.reads_on rfl (Function.update_self ..) rfl rfl place some_reply ?_
      fun more fuel => ?_⟩
    · rw [waits]
      rfl
    · rw [waits]
      exact waits_marker cfg out inside full marks handled more fuel
  · rw [if_neg marks]
    by_cases wakes : (cfg.layout.decode (got ++ [value])).message = cfg.msgWakeupClient
    · rw [if_pos wakes]
      exact .inr ⟨called.holder, asked, Function.update_self ..⟩
    · rw [if_neg wakes]
      obtain ⟨world, processed⟩ := processSocketMessage_quiet cfg out wakes handled
      refine .inl ⟨msgs ++ [cfg.layout.decode (got ++ [value])], { handled with world := world }, ?_⟩
      have here : ((({ s with taken := s.taken ++ [cfg.layout.decode (got ++ [value])] } :
          Session Thread H σ sizeT).goto thread (.waits asked [])).phase thread) = .waits asked [] :=
        Function.update_self ..
      refine ⟨called.holder, ?_, ?_, ?_, called.returned, ?_, fun more => ?_, fun more fuel => ?_⟩
      · rw [here]
        exact place
      · rw [here]
        exact ⟨some_reply, cfg.layout.size_pos⟩
      · show s.taken ++ [_] = _
        rw [called.taken, List.append_assoc]
      · rw [here]
        exact writes
      · have before := called.handles more
        rw [processAll] at before ⊢
        rw [List.foldlM_append, before]
        exact (Option.bind_some _ _).trans ((List.foldlM_cons ..).trans (by rw [processed more]; rfl))
      · rw [here, List.length_append, List.length_singleton, Nat.add_assoc, List.append_assoc,
          Nat.add_comm 1 (fuel + 1)]
        exact (steps (.byte value :: more) (fuel + 1)).trans
          (waits_msg cfg out inside full marks (processed more) (fuel + 1))

/-- **The thread reads a cell.** -/
theorem Called.read
    (called : Called cfg out begun thread asked first s written consumed msgs handled reply)
    (runs : sessionExec cfg handlers registry s (.read thread) = some after) :
    (∃ msgs' handled' reply', Called cfg out begun thread asked first after written
      (consumed ++ s.reads (.read thread)) msgs' handled' reply') ∨ Stuck after thread := by
  simp only [sessionExec] at runs
  split at runs
  · cases runs
  rename_i cell stream front
  have reads : s.reads (.read thread) = [cell] := by
    simp only [Session.reads, front, List.take_succ_cons, List.take_zero]
  rw [reads]
  have here : ∀ phase, ((s.incoming stream).goto thread phase).phase thread = phase :=
    fun phase => Function.update_self ..
  have shifted : Called cfg out begun thread asked first (s.incoming stream) written consumed msgs
    handled reply := called.same called.holder rfl rfl rfl
  have place := called.place
  have bounded := called.bounded
  have steps := readCell_cases runs
  rw [show (s.incoming stream).phase = s.phase from rfl] at steps
  generalize is : s.phase thread = phase at steps place bounded
  cases steps with
  | @part asked' got value short =>
    obtain ⟨rfl, none_yet⟩ := place
    refine .inl ⟨msgs, handled, reply, called.reads_on rfl (here _) rfl rfl ⟨rfl, none_yet⟩
      ⟨bounded.1, short⟩ (by rw [is]; rfl) fun more fuel => ?_⟩
    rw [is]
    simp only [Phase.rest, cells_append, List.append_assoc]
    rfl
  | @whole asked' got value full =>
    obtain ⟨rfl, none_yet⟩ := place
    rcases shifted.heard is full with ⟨msgs', handled', called'⟩ | stuck
    · exact .inl ⟨msgs', handled', reply, called'⟩
    · exact .inr stuck
  | @lost asked' got value =>
    obtain ⟨rfl, none_yet⟩ := place
    refine .inl ⟨msgs, handled, reply, called.reads_on rfl is rfl rfl ⟨rfl, none_yet⟩ bounded
      (by rw [is]) fun more fuel => ?_⟩
    rw [is]
    exact waitReply_congr cfg out fuel handled (readBytes_skip bounded.2 value more)
  | @replyPart asked' fd got value short =>
    obtain ⟨rfl, none_yet⟩ := place
    refine .inl ⟨msgs, handled, reply, called.reads_on rfl (here _) rfl rfl ⟨rfl, none_yet⟩ short
      (by rw [is]; rfl) fun more fuel => ?_⟩
    rw [is]
    simp only [Phase.rest, cells_append, List.append_assoc]
    rfl
  | @replyWhole asked' fd got value full =>
    obtain ⟨rfl, rfl⟩ := place
    have returned := called.returned
    have writes := called.writes
    have runs := called.runs
    rw [is] at writes runs
    obtain ⟨next, next_eq⟩ : ∃ next, ({ s.incoming stream with returned := (s.incoming stream).returned ++
        [(thread, asked', asked'.delivered fd (got ++ [value]))] } : Session Thread H σ sizeT).goto thread
          .unlocks = next := ⟨_, rfl⟩
    have done : next.phase thread = .unlocks := by
      rw [← next_eq]
      exact Function.update_self ..
    rw [next_eq]
    refine .inl ⟨msgs, handled, some (asked'.delivered fd (got ++ [value])), ?_, ?_, ?_, ?_, ?_, ?_,
      called.handles, fun more fuel => ?_⟩
    · rw [← next_eq]
      exact called.holder
    · rw [done]
      trivial
    · rw [done]
      trivial
    · rw [← next_eq]
      exact called.taken
    · rw [← next_eq]
      show s.returned ++ _ = _
      rw [returned, Option.map_none, Option.toList_none, List.append_nil]
      rfl
    · rw [done]
      exact writes
    · rw [done, List.append_assoc]
      refine (runs (.byte value :: more) fuel).trans (congrArg some ?_)
      exact receives_whole out bounded full handled more
  | @replyFd asked' value =>
    obtain ⟨rfl, none_yet⟩ := place
    refine .inl ⟨msgs, handled, reply, called.reads_on rfl (here _) rfl rfl ⟨rfl, none_yet⟩ bounded
      (by rw [is]; rfl) fun more fuel => ?_⟩
    rw [is]
    rfl
  | @replyLost asked' fd got value behind =>
    obtain ⟨rfl, none_yet⟩ := place
    refine .inl ⟨msgs, handled, reply, called.reads_on rfl is rfl rfl ⟨rfl, none_yet⟩ bounded
      (by rw [is]) fun more fuel => ?_⟩
    rw [is]
    exact congrArg some (receiveReply_congr out handled (receiveMsg_skip bounded behind value more))
  | pollPart | pollWhole | pollLost => cases place

end Call

/-! ### Every interleaving -/

/-- What holds of a call that goes on: it is in step with `clientRequestEx2`, or stuck. -/
def InStep (cfg : ClientConfig sizeT) (out : ClientOutside sizeT ω) (begun : Wire sizeT ω)
    (thread : Thread) (asked : Asked) (first s : Session Thread H σ sizeT)
    (written consumed : List (Cell Fd)) : Prop :=
  (∃ msgs handled reply,
    Called cfg out begun thread asked first s written consumed msgs handled reply) ∨ Stuck s thread

omit [DecidableEq Thread] in
/-- A call is inside until it is over. -/
theorem InStep.inside {begun : Wire sizeT ω} {first : Session Thread H σ sizeT}
    {written consumed : List (Cell Fd)}
    (step : InStep cfg out begun thread asked first s written consumed) :
    s.holder = some thread ∧ (s.phase thread).inside = true := by
  rcases step with ⟨msgs, handled, reply, called⟩ | ⟨holder, asked', stuck⟩
  · refine ⟨called.holder, ?_⟩
    have place := called.place
    generalize s.phase thread = phase at place
    cases phase with
    | idle | locks => cases place
    | _ => rfl
  · refine ⟨holder, ?_⟩
    rw [stuck]
    rfl

/-- **One step of anybody**, as long as the thread does not unlock. -/
theorem called_step {begun : Wire sizeT ω} {first : Session Thread H σ sizeT}
    {written consumed : List (Cell Fd)} {event : SessionEvent Thread σ sizeT} (entered : Entered cfg s)
    (step : InStep cfg out begun thread asked first s written consumed)
    (goes_on : event ≠ .unlock thread)
    (runs : sessionExec cfg handlers registry s event = some after) :
    InStep cfg out begun thread asked first after (written ++ s.writes event)
      (consumed ++ s.reads event) := by
  obtain ⟨holder, inside⟩ := step.inside
  by_cases own : event.Own thread
  · rcases own with rfl | rfl | rfl
    · rcases step with ⟨msgs, handled, reply, called⟩ | ⟨-, asked', stuck⟩
      · refine .inl ⟨msgs, handled, reply, ?_⟩
        rw [show consumed ++ s.reads (.write thread) = consumed from List.append_nil _]
        exact called.write runs
      · simp [sessionExec, stuck] at runs
    · rcases step with ⟨msgs, handled, reply, called⟩ | ⟨-, asked', stuck⟩
      · rw [show written ++ s.writes (.read thread) = written from List.append_nil _]
        exact called.read runs
      · simp only [sessionExec] at runs
        split at runs
        · cases runs
        · rename_i cell stream front
          have steps := readCell_cases runs
          rw [show (s.incoming stream).phase thread = .stuck asked' from stuck] at steps
          cases steps
    · exact absurd rfl goes_on
  · obtain ⟨holder', phase, taken, returned, reads, writes⟩ := other_step entered holder inside own runs
    rw [reads, writes, List.append_nil, List.append_nil]
    rcases step with ⟨msgs, handled, reply, called⟩ | ⟨-, asked', stuck⟩
    · exact .inl ⟨msgs, handled, reply, called.same holder' phase taken returned⟩
    · exact .inr ⟨holder', asked', phase.trans stuck⟩

/-- **The lock.** The call begins. -/
theorem called_lock (entered : Entered cfg s) (locks : s.phase thread = .locks asked)
    (begun : Wire sizeT ω) (runs : sessionExec cfg handlers registry s (.lock thread) = some after) :
    Called cfg out begun thread asked s after [] [] [] (begun.behind out asked) none := by
  have client := entered.client thread asked locks
  have permitted := entered.permits thread asked locks
  simp only [sessionExec, locks] at runs
  split at runs
  case h_2 => cases runs
  rename_i asked' same free
  obtain rfl : asked = asked' := Phase.locks.inj same
  obtain ⟨next, next_eq⟩ : ∃ next, ({ s with
      holder := some thread, sent := s.sent ++ [(thread, asked)] } : Session Thread H σ sizeT).goto thread
        (.sends asked (frame unixAttaches sizeT asked.request)) = next := ⟨_, rfl⟩
  have here : next.phase thread = .sends asked (frame unixAttaches sizeT asked.request) := by
    rw [← next_eq]
    exact Function.update_self ..
  rw [← Option.some.inj runs, next_eq]
  refine ⟨?_, ?_, ?_, ?_, ?_, ?_, fun _ => rfl, fun more fuel => ?_⟩
  · rw [← next_eq]
    rfl
  · rw [here]
    exact ⟨rfl, rfl⟩
  · rw [here]
    intro none_left
    cases none_left
  · rw [← next_eq, List.append_nil]
    rfl
  · rw [← next_eq, Option.map_none, Option.toList_none, List.append_nil]
    rfl
  · rw [here]
    rfl
  · rw [here, List.length_nil, Nat.zero_add, List.nil_append]
    exact clientRequestEx2_rest cfg out client permitted begun more _ fuel

/-- **A call of the session is a call of ClientRequestEx2**, when it comes to its end. Whatever the other
threads and the server do from its lock to there, the thread writes the request, and what it was given
for the reply and the messages that it handled are those of `clientRequestEx2` when the cells that
it read are in front of the stream. -/
theorem session_call_refines (out : ClientOutside sizeT ω) (begun : Wire sizeT ω)
    (reached : (sessionSystem cfg handlers registry).Reachable s) (locks : s.phase thread = .locks asked)
    {events : List (SessionEvent Thread σ sizeT)} (goes_on : ∀ event ∈ events, event ≠ .unlock thread)
    (runs : runEvents (sessionExec cfg handlers registry) s (.lock thread :: events) = some after)
    (ends : after.phase thread = .unlocks) :
    cellsWritten cfg registry handlers s (.lock thread :: events) =
        frame unixAttaches sizeT asked.request ∧
      ∃ msgs, ∃ handled : Wire sizeT ω, ∃ reply : Option Reply, after.taken = s.taken ++ msgs ∧
        after.returned = s.returned ++ (reply.map fun reply => (thread, asked, reply)).toList ∧
        (∀ more, processAll cfg (replyOps unixAttaches out) msgs
          { begun.behind out asked with toClient := more } = some { handled with toClient := more }) ∧
        ∀ more fuel, msgs.length < fuel →
          clientRequestEx2 cfg (replyOps unixAttaches out) fuel asked.request asked.lenRslt asked.wantsFd
            { begun with
              toClient := cellsRead cfg registry handlers s (.lock thread :: events) ++ more } =
          some (.ok reply { handled with toClient := more, world := out.onUnlock handled.world }) := by
  have entered := entered_of_reachable reached
  obtain ⟨locked, first, others⟩ := Option.bind_eq_some_iff.mp runs
  have begins : Called cfg out begun thread asked s locked [] [] [] (begun.behind out asked) none :=
    called_lock entered locks begun first
  obtain ⟨-, whole⟩ := runEvents_outputs
    (fun written consumed state => Entered cfg state ∧
      InStep cfg out begun thread asked s state written consumed)
    (fun event => event ≠ .unlock thread)
    (fun _ _ _ _ _ ⟨entered, step⟩ meets ran =>
      ⟨entered_step entered ran, called_step entered step meets ran⟩)
    goes_on ⟨entered_step entered first, .inl ⟨_, _, _, begins⟩⟩ others
  rw [cellsWritten, cellsRead, outputs_cons first, outputs_cons first]
  rcases whole with ⟨msgs, handled, reply, called⟩ | ⟨-, asked', stuck⟩
  · have writes := called.writes
    have steps := called.runs
    rw [ends] at writes steps
    refine ⟨?_, msgs, handled, reply, called.taken, called.returned, called.handles, fun more fuel enough => ?_⟩
    · exact (List.append_nil _).symm.trans writes
    · obtain ⟨rest, rfl⟩ : ∃ rest, fuel = msgs.length + (rest + 1) := ⟨fuel - msgs.length - 1, by omega⟩
      exact steps more rest
  · rw [ends] at stuck
    cases stuck

/-- Two threads wait for the lock. -/
def twoWaitRun : Option (Session Bool ℕ Unit 4) :=
  runEvents (sessionExec smallClient oneReply twoPlainHandlers) (.start ())
    [.call false askedSecond, .call true askedFirst]

/-- One of them gets it; the server writes a message in front of its reply. -/
def oneCall : List (SessionEvent Bool Unit 4) :=
  List.replicate 13 (.write true) ++ [.push ⟨0, 9, 0, 0, 0⟩, .serve] ++ List.replicate 41 (.read true)

theorem session_call_refines_two : ∃ s after, twoWaitRun = some s ∧
    runEvents (sessionExec smallClient oneReply twoPlainHandlers) s (.lock true :: oneCall) = some after ∧
    cellsWritten smallClient twoPlainHandlers oneReply s (.lock true :: oneCall) =
      frame unixAttaches 4 askedFirst.request ∧
    ∃ handled : Wire 4 (List (Msg 4)), ∀ more fuel, 1 < fuel →
      clientRequestEx2 smallClient (replyOps unixAttaches queueing) fuel ⟨1, [5], [], -1⟩ 1 false
        { toServer := []
          toClient := cellsRead smallClient twoPlainHandlers oneReply s (.lock true :: oneCall) ++ more
          lastTicks := 0
          world := [] } = some (.ok (some ⟨[7], none⟩) { handled with toClient := more }) := by
  have before : twoWaitRun.map (fun s => (s.phase true, s.taken, s.returned)) =
      some (.locks askedFirst, [], []) := by decide +kernel
  have behind : (twoWaitRun.bind fun s =>
      (runEvents (sessionExec smallClient oneReply twoPlainHandlers) s (.lock true :: oneCall)).map
        fun after => (after.phase true, after.taken, after.returned)) =
      some (.unlocks, [⟨0, 9, 0, 0, 0⟩], [(true, askedFirst, ⟨[7], none⟩)]) := by decide +kernel
  obtain ⟨s, waits, run⟩ := Option.bind_eq_some_iff.mp behind
  obtain ⟨after, runs, same⟩ := Option.map_eq_some_iff.mp run
  rw [waits, Option.map_some, Option.some.injEq] at before
  simp only [Prod.mk.injEq] at before same
  obtain ⟨locks, none_taken, none_returned⟩ := before
  obtain ⟨done, taken, returned⟩ := same
  have start : (sessionSystem smallClient oneReply twoPlainHandlers).Reachable
      (.start () : Session Bool ℕ Unit 4) := .start ⟨(), rfl⟩
  have reached := start.run (fun _ _ _ ran => ⟨trivial, ran⟩) waits
  have goes_on : ∀ event ∈ oneCall, event ≠ .unlock true := by
    intro event member
    simp only [oneCall, List.mem_append, List.mem_replicate, List.mem_cons, List.not_mem_nil,
      or_false] at member
    rcases member with (⟨-, rfl⟩ | rfl | rfl) | ⟨-, rfl⟩ <;> exact nofun
  obtain ⟨writes, msgs, handled, reply, heard, given, -, call⟩ := session_call_refines queueing
    ⟨[], [], 0, []⟩ reached locks goes_on runs done
  rw [none_taken, taken, List.nil_append] at heard
  rw [none_returned, returned, List.nil_append] at given
  cases reply with
  | none => cases given
  | some reply =>
    obtain rfl : ⟨[7], none⟩ = reply := by simpa using given
    refine ⟨s, after, waits, runs, writes, { handled with world := queueing.onUnlock handled.world }, ?_⟩
    intro more fuel enough
    exact call more fuel (by rw [← heard]; exact enough)

end Aple.ClientServer
