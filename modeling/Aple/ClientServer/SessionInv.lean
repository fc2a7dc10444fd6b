/-
**The invariant of a session.**

* `Agreed` — a request whose handler replies with as many bytes as its thread waits for, or not at
  all when it does not wait; `agreeing` — the runs whose requests agree.
* `SessionInv` — the invariant: the requests that are not served yet lie on the stream one behind the
  other, what comes from the server is read up to where the lock's holder is, and at most the holder
  waits for a reply.
* `answered_each`, **`SessionInv.under_way`** — which request a reply is for.
* `SessionInv.call` to `SessionInv.delivers` — each step of a thread or of the server keeps it.
-/

import Aple.ClientServer.SessionServer

namespace Aple.ClientServer

open Aple.Lib

variable {Thread H σ : Type} {sizeT : ℕ}

/-! ### Requests that agree with their handlers -/

/-- The thread waits for as many bytes as the handler replies with. -/
structure Agreed (registry : Registry H) (handlers : Handlers H σ) (sizeT : ℕ) (asked : Asked) :
    Prop where
  carried : Carried sizeT asked.request
  silent : asked.lenRslt = 0 → ∀ call ∈ asked.request.expectedCalls registry, ∀ state,
    (handlers.respond call state).1 = none
  replies : 0 < asked.lenRslt → ∃ call, asked.request.expectedCalls registry = [call] ∧
    ∀ state, ∃ bytes fd, (handlers.respond call state).1 = some (bytes, fd) ∧
      bytes.length = asked.lenRslt

/-- The requests agree, and the server's own messages are no markers. -/
def agreeing (cfg : ClientConfig sizeT) (registry : Registry H) (handlers : Handlers H σ)
    (_ : Session Thread H σ sizeT) : SessionEvent Thread σ sizeT → Prop
  | .call _ asked => Agreed registry handlers sizeT asked
  | .push msg => msg.hwnd ≠ cfg.hwndInvalid
  | _ => True

/-- A request that waits for a reply. -/
def Waits (entry : Thread × Asked) : Bool := decide (0 < entry.2.lenRslt)

namespace Session

variable (s : Session Thread H σ sizeT)

/-- The requests that wait for replies, in the order of the lock. -/
def waiting : List (Thread × Asked) := s.sent.filter Waits

/-- The replies that the handlers gave, in their order. -/
def replies : List (Call H × List Byte × Fd) := s.server.world.answers.filterMap reply?

/-- Where the holder of the lock is. -/
def active : Phase :=
  match s.holder with
  | none => .idle
  | some thread => s.phase thread

end Session

/-! ### The invariant -/

namespace Phase

/-- What is left to write. -/
def left : Phase → List (Cell Fd)
  | .sends _ left => left
  | _ => []

/-- The request that waits for its reply. -/
def awaited : Phase → Option Asked
  | .sends asked _ | .waits asked _ | .receives asked _ _ | .stuck asked =>
    if 0 < asked.lenRslt then some asked else none
  | _ => none

/-- What was read of the item in front. -/
def consumed (cfg : ClientConfig sizeT) : Phase → List (Cell Fd)
  | .waits _ got | .polls got => cells got
  | .receives _ fd got => cells (cfg.layout.encode cfg.marker) ++ (attachment fd ++ cells got)
  | _ => []

/-- How far a thread can be. -/
def Bounded (cfg : ClientConfig sizeT) : Phase → Prop
  | .sends _ left => left ≠ []
  | .waits asked got => 0 < asked.lenRslt ∧ got.length < cfg.layout.size
  | .receives asked _ got => got.length < asked.lenRslt
  | .polls got => got.length < cfg.layout.size
  | _ => True

end Phase

/-- The reply of a thread is what the server answered. -/
def Delivers (entry : Thread × Asked × Reply) (reply : Call H × List Byte × Fd) : Prop :=
  entry.2.2 = entry.2.1.delivered (arriving unixAttaches reply.2.2 reply.2.1.length) reply.2.1

section Invariant

variable (cfg : ClientConfig sizeT) (registry : Registry H) (handlers : Handlers H σ)

/-- **The invariant.** `served` requests were served, `past` are the replies that were read, and
`pending` is what the server wrote and was not read to its end. -/
structure SessionInv (s : Session Thread H σ sizeT) (served : ℕ)
    (past : List (Call H × List Byte × Fd)) (pending : List (Item H sizeT)) : Prop where
  inside : ∀ thread, (s.phase thread).inside = true ↔ s.holder = some thread
  asks : ∀ thread asked, s.phase thread = .locks asked → Agreed registry handlers sizeT asked
  bounded : s.active.Bounded cfg
  few : served ≤ s.sent.length
  agreed : ∀ entry ∈ s.sent, Agreed registry handlers sizeT entry.2
  stream : s.server.stream ++ s.active.left =
    (s.sent.drop served).flatMap fun entry => frame unixAttaches sizeT entry.2.request
  calls : s.server.calls =
    (s.sent.take served).flatMap fun entry => entry.2.request.expectedCalls registry
  answers : s.server.world.answers.map Prod.fst = s.server.calls
  given : ∀ entry ∈ s.server.world.answers, Given handlers entry
  waiting : s.waiting = s.returned.map (fun entry => (entry.1, entry.2.1)) ++
    (s.holder.bind fun thread => s.active.awaited.map fun asked => (thread, asked)).toList
  replies : s.replies = past ++ pending.filterMap Item.replied?
  delivered : List.Forall₂ Delivers s.returned past
  toClient : s.active.consumed cfg ++ s.server.world.toClient = pending.flatMap (Item.cells cfg)
  messages : s.pushed = s.taken ++ pending.filterMap Item.pushed?
  async : ∀ msg ∈ pending.filterMap Item.pushed?, msg.hwnd ≠ cfg.hwndInvalid
  reads : ∀ asked fd got, s.active = .receives asked fd got → ∃ call bytes fd' rest,
    pending = .reply call bytes fd' :: rest ∧ bytes.length = asked.lenRslt

end Invariant

/-! ### Who waits for which reply -/

section Replies

variable {cfg : ClientConfig sizeT} {registry : Registry H} {handlers : Handlers H σ}
  {s after : Session Thread H σ sizeT} {served : ℕ} {past : List (Call H × List Byte × Fd)}
  {pending : List (Item H sizeT)}

/-- The reply to a request, as long as its thread expects it. -/
structure AnsweredBy (registry : Registry H) (entry : Thread × Asked)
    (reply : Call H × List Byte × Fd) : Prop where
  call : entry.2.request.expectedCalls registry = [reply.1]
  length : reply.2.1.length = entry.2.lenRslt

/-- **Requests and replies**, one by one: the requests that wait are the ones that get a reply. -/
theorem answered_each {entries : List (Thread × Asked)} {answers : List (Call H × HandlerAnswer)}
    (agreed : ∀ entry ∈ entries, Agreed registry handlers sizeT entry.2)
    (calls : answers.map Prod.fst =
      entries.flatMap fun entry => entry.2.request.expectedCalls registry)
    (given : ∀ entry ∈ answers, Given handlers entry) :
    List.Forall₂ (AnsweredBy registry) (entries.filter Waits) (answers.filterMap reply?) := by
  induction entries generalizing answers with
  | nil =>
    obtain rfl := List.map_eq_nil_iff.mp calls
    exact .nil
  | cons entry rest ih =>
    rw [List.flatMap_cons] at calls
    obtain ⟨mine, others, rfl, here, there⟩ := List.map_eq_append_iff.mp calls
    have later := ih (fun e member => agreed e (List.mem_cons_of_mem _ member)) there
      fun e member => given e (List.mem_append_right _ member)
    have agrees := agreed entry List.mem_cons_self
    rw [List.filterMap_append]
    by_cases waits : 0 < entry.2.lenRslt
    · obtain ⟨call, expected, answers⟩ := agrees.replies waits
      rw [expected] at here
      obtain ⟨answer, rfl, rfl⟩ := List.map_eq_singleton_iff.mp here
      obtain ⟨state, same⟩ := given answer (List.mem_append_left _ (List.mem_singleton_self _))
      obtain ⟨bytes, fd, responds, long⟩ := answers state
      have replied : reply? answer = some (answer.1, bytes, fd) := by
        rw [reply?, same, responds]
        rfl
      have waits : Waits entry = true := decide_eq_true waits
      rw [List.filter_cons_of_pos waits, List.filterMap_cons_some replied]
      exact .cons ⟨expected, long⟩ later
    · have silent : mine.filterMap reply? = [] := by
        apply List.filterMap_eq_nil_iff.mpr
        intro answer member
        obtain ⟨state, same⟩ := given answer (List.mem_append_left _ member)
        have expected : answer.1 ∈ entry.2.request.expectedCalls registry := by
          rw [← here]
          exact List.mem_map_of_mem member
        rw [reply?, same, agrees.silent (Nat.eq_zero_of_not_pos waits) _ expected state]
        rfl
      rw [List.filter_cons_of_neg (by simpa [Waits] using waits), silent]
      exact later

/-- The requests that were served and waited, with their replies. -/
theorem SessionInv.answered (inv : SessionInv cfg registry handlers s served past pending) :
    List.Forall₂ (AnsweredBy registry) ((s.sent.take served).filter Waits) s.replies :=
  answered_each (fun entry member => inv.agreed entry (List.mem_of_mem_take member))
    (inv.answers.trans inv.calls) inv.given

/-- They are the first ones of those that wait. -/
theorem Session.served_waiting (s : Session Thread H σ sizeT) (served : ℕ) :
    s.waiting = (s.sent.take served).filter Waits ++ (s.sent.drop served).filter Waits := by
  rw [← List.filter_append, List.take_append_drop]
  rfl

/-- **At most one reply** is under way, and it is the one that the holder of the lock waits for. -/
theorem SessionInv.under_way (inv : SessionInv cfg registry handlers s served past pending)
    {reply : Call H × List Byte × Fd} (under : reply ∈ pending.filterMap Item.replied?) :
    ∃ asked, s.active.awaited = some asked ∧ pending.filterMap Item.replied? = [reply] ∧
      reply.2.1.length = asked.lenRslt := by
  have answered := inv.answered
  rw [inv.replies] at answered
  have waiting := (s.served_waiting served).symm.trans inv.waiting
  have count := answered.length_eq
  have delivered := inv.delivered.length_eq
  have lengths := congrArg List.length waiting
  have one : 0 < (pending.filterMap Item.replied?).length := List.length_pos_of_mem under
  simp only [List.length_append, List.length_map] at lengths count
  cases awaits : s.active.awaited with
  | none =>
    rw [awaits] at lengths
    have : (s.holder.bind fun thread => Option.map (fun asked => (thread, asked)) none) =
        (none : Option (Thread × Asked)) := by cases s.holder <;> rfl
    rw [this] at lengths
    simp only [Option.toList_none, List.length_nil] at lengths
    omega
  | some asked =>
    cases holds : s.holder with
    | none =>
      rw [Session.active, holds] at awaits
      cases awaits
    | some thread =>
      rw [awaits, holds] at waiting lengths
      simp only [Option.bind_some, Option.map_some, Option.toList_some, List.length_singleton]
        at waiting lengths
      obtain ⟨only, single⟩ : ∃ only, pending.filterMap Item.replied? = [only] :=
        List.length_eq_one_iff.mp (by omega)
      have all : ((s.sent.drop served).filter Waits) = [] := List.eq_nil_of_length_eq_zero (by omega)
      rw [all, List.append_nil] at waiting
      rw [waiting, single] at answered
      rw [single] at under
      obtain rfl := List.mem_singleton.mp under
      have last := List.forall₂_drop_append _ _ _ answered
      rw [List.drop_left' (by simpa using delivered)] at last
      cases last with
      | cons answers _ => exact ⟨asked, rfl, single, answers.length⟩

end Replies

/-! ### Moving on -/

section Moving

variable [DecidableEq Thread] {cfg : ClientConfig sizeT} {registry : Registry H}
  {handlers : Handlers H σ} {s after : Session Thread H σ sizeT} {thread : Thread} {phase : Phase}

omit [DecidableEq Thread] in
theorem Session.active_holder (holder : s.holder = some thread) : s.active = s.phase thread := by
  rw [Session.active, holder]

omit [DecidableEq Thread] in
theorem Session.active_free (holder : s.holder = none) : s.active = .idle := by
  rw [Session.active, holder]

/-- One thread moves on, and the lock with it. -/
theorem inside_update {phases : Thread → Phase} {before holder : Option Thread}
    (inside : ∀ other, (phases other).inside = true ↔ before = some other)
    (mine : phase.inside = true ↔ holder = some thread)
    (others : ∀ other, other ≠ thread → (holder = some other ↔ before = some other))
    (other : Thread) :
    (Function.update phases thread phase other).inside = true ↔ holder = some other := by
  by_cases same : other = thread
  · rw [same, Function.update_self]
    exact mine
  · rw [Function.update_of_ne same]
    exact (inside other).trans (others other same).symm

/-- No thread asks for anything else. -/
theorem asks_update {phases : Thread → Phase}
    (asks : ∀ other asked, phases other = .locks asked → Agreed registry handlers sizeT asked)
    (mine : ∀ asked, phase = .locks asked → Agreed registry handlers sizeT asked)
    (other : Thread) (asked : Asked)
    (locks : Function.update phases thread phase other = .locks asked) :
    Agreed registry handlers sizeT asked := by
  by_cases same : other = thread
  · rw [same, Function.update_self] at locks
    exact mine asked locks
  · rw [Function.update_of_ne same] at locks
    exact asks other asked locks

variable {served : ℕ} {past : List (Call H × List Byte × Fd)} {pending : List (Item H sizeT)}

omit [DecidableEq Thread] in
/-- Whoever is inside holds the lock. -/
theorem SessionInv.holds (inv : SessionInv cfg registry handlers s served past pending)
    (is : s.phase thread = phase) (inside : phase.inside = true) : s.holder = some thread :=
  (inv.inside thread).mp (is ▸ inside)

/-- **A thread asks** for something. -/
theorem SessionInv.call (inv : SessionInv cfg registry handlers s served past pending) {asked : Asked}
    (idle : s.phase thread = .idle) (agreed : Agreed registry handlers sizeT asked) :
    SessionInv cfg registry handlers (s.goto thread (.locks asked)) served past pending := by
  have outside : s.holder ≠ some thread := fun holds =>
    absurd ((inv.inside thread).mpr holds) (by rw [idle]; decide)
  have active : (s.goto thread (.locks asked)).active = s.active := by
    show (match s.holder with
      | none => Phase.idle
      | some holder => Function.update s.phase thread (.locks asked) holder) = s.active
    unfold Session.active
    cases holds : s.holder with
    | none => rfl
    | some holder =>
      have other : holder ≠ thread := by
        rintro rfl
        exact outside holds
      exact Function.update_of_ne other _ _
  have inside : ∀ other, (Function.update s.phase thread (.locks asked) other).inside = true ↔
      s.holder = some other :=
    inside_update inv.inside (iff_of_false nofun outside) fun _ _ => Iff.rfl
  have mine : ∀ asked', Phase.locks asked = .locks asked' → Agreed registry handlers sizeT asked' := by
    rintro asked' same
    cases same
    exact agreed
  refine { inv with
    inside := inside
    asks := asks_update inv.asks mine
    bounded := ?_
    stream := ?_
    waiting := ?_
    toClient := ?_
    reads := ?_ }
  · rw [active]
    exact inv.bounded
  · rw [active]
    exact inv.stream
  · rw [active]
    exact inv.waiting
  · rw [active]
    exact inv.toClient
  · rw [active]
    exact inv.reads

/-- **The lock is taken** for a request. -/
theorem SessionInv.lock (inv : SessionInv cfg registry handlers s served past pending) {asked : Asked}
    (locks : s.phase thread = .locks asked) (free : s.holder = none) :
    SessionInv cfg registry handlers
      ({ s with holder := some thread, sent := s.sent ++ [(thread, asked)] }.goto thread
        (.sends asked (frame unixAttaches sizeT asked.request))) served past pending := by
  have agreed := inv.asks thread asked locks
  have idle := s.active_free free
  have active : Session.active ({ s with
      holder := some thread, sent := s.sent ++ [(thread, asked)] }.goto thread
        (.sends asked (frame unixAttaches sizeT asked.request))) =
      .sends asked (frame unixAttaches sizeT asked.request) := Function.update_self ..
  have some_cells : frame unixAttaches sizeT asked.request ≠ [] := nofun
  have stream := inv.stream
  have waiting := inv.waiting
  have toClient := inv.toClient
  rw [idle] at stream toClient
  rw [free] at waiting
  refine { inv with
    inside := ?_
    asks := ?_
    bounded := ?_
    few := ?_
    agreed := ?_
    stream := ?_
    calls := ?_
    waiting := ?_
    toClient := ?_
    reads := ?_ }
  · refine inside_update inv.inside (iff_of_true rfl rfl) fun other differs => ?_
    rw [free]
    exact ⟨fun same => absurd (Option.some.inj same).symm differs, nofun⟩
  · exact asks_update inv.asks nofun
  · rw [active]
    exact some_cells
  · exact inv.few.trans (by simp [Session.goto])
  · intro entry member
    rcases List.mem_append.mp member with old | new
    · exact inv.agreed entry old
    · rw [List.mem_singleton.mp new]
      exact agreed
  · rw [active]
    show s.server.stream ++ frame unixAttaches sizeT asked.request =
      ((s.sent ++ [(thread, asked)]).drop served).flatMap _
    rw [List.drop_append_of_le_length inv.few, List.flatMap_append, ← stream]
    exact congrArg₂ _ (List.append_nil _).symm (List.append_nil _).symm
  · show s.server.calls = ((s.sent ++ [(thread, asked)]).take served).flatMap _
    rw [List.take_append_of_le_length inv.few]
    exact inv.calls
  · rw [active]
    show (s.sent ++ [(thread, asked)]).filter Waits = s.returned.map _ ++ _
    rw [List.filter_append]
    refine congrArg₂ _ (waiting.trans (List.append_nil _)) ?_
    by_cases waits : 0 < asked.lenRslt
    · simp [Phase.awaited, Waits, waits, Session.goto]
    · simp [Phase.awaited, Waits, waits, Session.goto]
  · rw [active]
    exact toClient
  · rw [active]
    nofun

omit [DecidableEq Thread] in
theorem Asked.afterWrite_facts (cfg : ClientConfig sizeT) (asked : Asked) :
    asked.afterWrite.inside = true ∧ asked.afterWrite.Bounded cfg ∧ asked.afterWrite.left = [] ∧
      asked.afterWrite.consumed cfg = [] ∧
      asked.afterWrite.awaited = (if 0 < asked.lenRslt then some asked else none) ∧
      (∀ other, asked.afterWrite ≠ .locks other) ∧
      ∀ other fd got, asked.afterWrite ≠ .receives other fd got := by
  unfold Asked.afterWrite
  by_cases none_waits : asked.lenRslt = 0
  · rw [if_pos none_waits, if_neg (none_waits ▸ Nat.lt_irrefl 0)]
    exact ⟨rfl, trivial, rfl, rfl, rfl, nofun, nofun⟩
  · rw [if_neg none_waits]
    exact ⟨rfl, ⟨Nat.pos_of_ne_zero none_waits, cfg.layout.size_pos⟩, rfl, rfl, rfl, nofun, nofun⟩

/-- **A cell is written.** -/
theorem SessionInv.write (inv : SessionInv cfg registry handlers s served past pending) {asked : Asked}
    {cell : Cell Fd} {left : List (Cell Fd)} (sends : s.phase thread = .sends asked (cell :: left)) :
    SessionInv cfg registry handlers ((s.written cell).goto thread
      (if left = [] then asked.afterWrite else .sends asked left)) served past pending := by
  have holds := inv.holds sends rfl
  have was : s.active = .sends asked (cell :: left) := (s.active_holder holds).trans sends
  obtain ⟨phase, is⟩ : ∃ phase, phase =
    (if left = [] then asked.afterWrite else Phase.sends asked left) := ⟨_, rfl⟩
  obtain ⟨inside, bounded, rest, consumed, awaited, unlocked, unread⟩ : phase.inside = true ∧
      phase.Bounded cfg ∧ phase.left = left ∧ phase.consumed cfg = [] ∧
      phase.awaited = (if 0 < asked.lenRslt then some asked else none) ∧
      (∀ other, phase ≠ .locks other) ∧ ∀ other fd got, phase ≠ .receives other fd got := by
    rw [is]
    by_cases done : left = []
    · rw [if_pos done, done]
      exact asked.afterWrite_facts cfg
    · rw [if_neg done]
      exact ⟨rfl, done, rfl, rfl, rfl, nofun, nofun⟩
  rw [← is]
  have same_holder : ((s.written cell).goto thread phase).holder = some thread := holds
  have active : ((s.written cell).goto thread phase).active = phase :=
    (Session.active_holder same_holder).trans (Function.update_self ..)
  have stream := inv.stream
  have waiting := inv.waiting
  have toClient := inv.toClient
  rw [was] at stream waiting toClient
  refine { inv with
    inside := inside_update inv.inside (iff_of_true inside holds) fun _ _ => Iff.rfl
    asks := asks_update inv.asks fun other same => absurd same (unlocked other)
    bounded := ?_
    stream := ?_
    waiting := ?_
    toClient := ?_
    reads := ?_ }
  · rw [active]
    exact bounded
  · rw [active, rest]
    exact (List.append_assoc ..).trans stream
  · rw [active, awaited]
    exact waiting
  · rw [active, consumed]
    exact toClient
  · rw [active]
    exact fun other fd got same => absurd same (unread other fd got)

/-- **The lock is given back.** -/
theorem SessionInv.unlock (inv : SessionInv cfg registry handlers s served past pending)
    (unlocks : s.phase thread = .unlocks) :
    SessionInv cfg registry handlers ({ s with holder := none }.goto thread .idle) served past
      pending := by
  have holds := inv.holds unlocks rfl
  have was : s.active = .unlocks := (s.active_holder holds).trans unlocks
  have stream := inv.stream
  have waiting := inv.waiting
  have toClient := inv.toClient
  rw [was] at stream waiting toClient
  rw [holds] at waiting
  refine { inv with
    inside := ?_
    asks := asks_update inv.asks nofun
    bounded := trivial
    stream := stream
    waiting := waiting
    toClient := toClient
    reads := nofun }
  refine inside_update inv.inside (iff_of_false nofun nofun) fun other differs => ?_
  rw [holds]
  exact iff_of_false nofun fun same => differs (Option.some.inj same).symm

/-- **The lock is taken** to read a message of the server. -/
theorem SessionInv.poll (inv : SessionInv cfg registry handlers s served past pending)
    (free : s.holder = none) :
    SessionInv cfg registry handlers ({ s with holder := some thread }.goto thread (.polls []))
      served past pending := by
  have idle := s.active_free free
  have active : Session.active ({ s with holder := some thread }.goto thread (.polls [])) =
      .polls [] := Function.update_self ..
  have stream := inv.stream
  have waiting := inv.waiting
  have toClient := inv.toClient
  rw [idle] at stream toClient
  rw [free] at waiting
  refine { inv with
    inside := ?_
    asks := asks_update inv.asks nofun
    bounded := ?_
    stream := ?_
    waiting := ?_
    toClient := ?_
    reads := ?_ }
  · refine inside_update inv.inside (iff_of_true rfl rfl) fun other differs => ?_
    rw [free]
    exact ⟨fun same => absurd (Option.some.inj same).symm differs, nofun⟩
  · rw [active]
    exact cfg.layout.size_pos
  · rw [active]
    exact stream
  · rw [active]
    exact waiting
  · rw [active]
    exact toClient
  · rw [active]
    nofun

end Moving

/-! ### The server's steps -/

section Serving

variable {cfg : ClientConfig sizeT} {registry : Registry H} {handlers : Handlers H σ}
  {s : Session Thread H σ sizeT} {served : ℕ} {past : List (Call H × List Byte × Fd)}
  {pending : List (Item H sizeT)}

theorem plain_left {stream rest : List (Cell Fd)} (plain : Plain (stream ++ rest)) : Plain stream := by
  rintro value behind rfl
  exact plain value (behind ++ rest) rfl

/-- **The request in front** is the first one that was not served, and it is there as a whole. -/
theorem SessionInv.front (inv : SessionInv cfg registry handlers s served past pending)
    (arrived : (receiveFrame sizeT s.server.stream).isSome = true) :
    ∃ entry others rest, s.sent.drop served = entry :: others ∧
      s.server.stream = frame unixAttaches sizeT entry.2.request ++ rest ∧ Plain rest ∧
      rest ++ s.active.left = others.flatMap fun entry => frame unixAttaches sizeT entry.2.request := by
  have stream := inv.stream
  cases unserved : s.sent.drop served with
  | nil =>
    rw [unserved] at stream
    obtain ⟨empty, -⟩ := List.append_eq_nil_iff.mp stream
    rw [empty] at arrived
    cases arrived
  | cons entry others =>
    rw [unserved, List.flatMap_cons] at stream
    have agreed : Agreed registry handlers sizeT entry.2 := by
      apply inv.agreed entry
      apply List.mem_of_mem_drop (i := served)
      rw [unserved]
      exact List.mem_cons_self
    rcases List.append_eq_append_iff.mp stream with ⟨unwritten, whole, left⟩ | ⟨rest, whole, behind⟩
    · by_cases done : unwritten = []
      · rw [done, List.append_nil] at whole
        rw [done, List.nil_append] at left
        refine ⟨entry, others, [], rfl, ?_, plain_nil, left⟩
        rw [List.append_nil, whole]
      · rw [receiveFrame_part agreed.carried whole.symm done] at arrived
        cases arrived
    · have plain : Plain (rest ++ s.active.left) := by
        rw [← behind, ← List.flatMap_map (fun entry : Thread × Asked => entry.2.request)]
        exact plain_frames unixAttaches sizeT _
      exact ⟨entry, others, rest, rfl, whole, plain_left plain, behind.symm⟩

/-- The replies are the replies' items. -/
theorem items_replied (replies : List (Call H × List Byte × Fd)) :
    (replies.map (itemOf : _ → Item H sizeT)).filterMap Item.replied? = replies := by
  rw [List.filterMap_map]
  exact List.filterMap_some

theorem items_pushed (replies : List (Call H × List Byte × Fd)) :
    (replies.map (itemOf : _ → Item H sizeT)).filterMap Item.pushed? = [] := by
  rw [List.filterMap_map]
  exact List.filterMap_eq_nil_iff.mpr fun _ _ => rfl

/-- **A request is served.** -/
theorem SessionInv.serve (inv : SessionInv cfg registry handlers s served past pending)
    (arrived : (receiveFrame sizeT s.server.stream).isSome = true) :
    ∃ more, SessionInv cfg registry handlers
      { s with server := serveRequest (deskOutside cfg handlers) registry sizeT s.server }
      (served + 1) past (pending ++ more) := by
  obtain ⟨entry, others, rest, unserved, whole, plain, behind⟩ := inv.front arrived
  have grown : ∃ more, Grown cfg handlers s.server
      (serveRequest (deskOutside cfg handlers) registry sizeT s.server) more :=
    serveRequest_grown registry s.server
  obtain ⟨more, calls, answers, given, toClient⟩ := grown
  have member : entry ∈ s.sent := by
    apply List.mem_of_mem_drop (i := served)
    rw [unserved]
    exact List.mem_cons_self
  have carried := (inv.agreed entry member).carried
  have few : served < s.sent.length := by
    apply Nat.lt_of_not_le
    intro none_left
    rw [List.drop_eq_nil_of_le none_left] at unserved
    cases unserved
  have first : s.sent[served] = entry := by
    have split := (List.drop_eq_getElem_cons few).symm.trans unserved
    exact (List.cons.inj split).1
  have later : s.sent.drop (served + 1) = others := by
    have split := (List.drop_eq_getElem_cons few).symm.trans unserved
    exact (List.cons.inj split).2
  obtain ⟨stream', calls'⟩ := serveRequest_frame (deskOutside cfg handlers) registry
    whole carried.fits carried.control plain
  refine ⟨(more.filterMap reply?).map itemOf, { inv with
    few := few
    stream := ?_
    calls := ?_
    answers := ?_
    given := ?_
    replies := ?_
    toClient := ?_
    messages := ?_
    async := ?_
    reads := ?_ }⟩
  · show (serveRequest _ registry sizeT s.server).stream ++ s.active.left = _
    rw [stream', later]
    exact behind
  · show (serveRequest _ registry sizeT s.server).calls = _
    rw [calls', inv.calls, ← List.take_concat_get' _ _ few, first, List.flatMap_append]
    exact congrArg _ (List.append_nil _).symm
  · show (serveRequest _ registry sizeT s.server).world.answers.map Prod.fst =
      (serveRequest _ registry sizeT s.server).calls
    rw [answers, calls, List.map_append, inv.answers]
  · show ∀ entry ∈ (serveRequest _ registry sizeT s.server).world.answers, _
    rw [answers]
    intro entry member
    rcases List.mem_append.mp member with old | new
    · exact inv.given entry old
    · exact given entry new
  · show (serveRequest _ registry sizeT s.server).world.answers.filterMap reply? = _
    rw [answers, List.filterMap_append, List.filterMap_append, items_replied, ← List.append_assoc]
    exact congrArg (· ++ _) inv.replies
  · show s.active.consumed cfg ++ (serveRequest _ registry sizeT s.server).world.toClient = _
    rw [toClient, ← List.append_assoc, inv.toClient, List.flatMap_append, List.flatMap_map]
  · rw [List.filterMap_append, items_pushed, List.append_nil]
    exact inv.messages
  · rw [List.filterMap_append, items_pushed, List.append_nil]
    exact inv.async
  · intro asked fd got receives
    obtain ⟨call, bytes, fd', rest, front, long⟩ := inv.reads asked fd got receives
    rw [front]
    exact ⟨call, bytes, fd', _, rfl, long⟩

/-- **The server writes a message.** -/
theorem SessionInv.push (inv : SessionInv cfg registry handlers s served past pending)
    {msg : Msg sizeT} (async : msg.hwnd ≠ cfg.hwndInvalid) :
    SessionInv cfg registry handlers
      { s.incoming (s.server.world.toClient ++ cells (cfg.layout.encode msg)) with
        pushed := s.pushed ++ [msg] } served past (pending ++ [.push msg]) := by
  refine { inv with
    replies := ?_
    toClient := ?_
    messages := ?_
    async := ?_
    reads := ?_ }
  · rw [List.filterMap_append]
    exact inv.replies.trans (congrArg _ (List.append_nil _).symm)
  · show s.active.consumed cfg ++ (s.server.world.toClient ++ cells (cfg.layout.encode msg)) = _
    rw [← List.append_assoc, inv.toClient, List.flatMap_append, List.flatMap_singleton]
    exact congrArg _ (List.append_nil _).symm
  · show s.pushed ++ [msg] = s.taken ++ (pending ++ [Item.push msg]).filterMap Item.pushed?
    rw [List.filterMap_append, inv.messages, List.append_assoc]
    rfl
  · intro other member
    rw [List.filterMap_append] at member
    rcases List.mem_append.mp member with old | new
    · exact inv.async other old
    · obtain rfl := List.mem_singleton.mp new
      exact async
  · intro asked fd got receives
    obtain ⟨call, bytes, fd', rest, front, long⟩ := inv.reads asked fd got receives
    rw [front]
    exact ⟨call, bytes, fd', _, rfl, long⟩

end Serving

/-! ### Reading -/

section Reading

variable [DecidableEq Thread] {cfg : ClientConfig sizeT} {registry : Registry H}
  {handlers : Handlers H σ} {s after : Session Thread H σ sizeT} {thread : Thread} {served : ℕ}
  {past : List (Call H × List Byte × Fd)} {pending : List (Item H sizeT)} {cell : Cell Fd}
  {rest : List (Cell Fd)}

/-- The item in front, as far as its message was read. -/
theorem item_front {got : List Byte} (inside : got.length < cfg.layout.size)
    (same : cells got ++ cell :: rest = pending.flatMap (Item.cells cfg)) :
    ∃ item others value more, pending = item :: others ∧
      cfg.layout.encode (item.head cfg) = got ++ value :: more ∧ cell = .byte value ∧
      rest = cells more ++ (item.tail ++ others.flatMap (Item.cells cfg)) := by
  cases pending with
  | nil => cases got <;> cases same
  | cons item others =>
    rw [List.flatMap_cons, Item.cells, List.append_assoc] at same
    rw [← cfg.layout.length_encode (item.head cfg)] at inside
    obtain ⟨value, more, whole, is_byte, behind⟩ := next_cell inside same
    exact ⟨item, others, value, more, rfl, whole, is_byte, behind⟩

/-- A message that was read to its end. -/
theorem message_whole {item : Item H sizeT} {got : List Byte} {value : Byte} {more : List Byte}
    (whole : cfg.layout.encode (item.head cfg) = got ++ value :: more)
    (done : ¬ (got ++ [value]).length < cfg.layout.size) :
    more = [] ∧ cfg.layout.decode (got ++ [value]) = item.head cfg := by
  have lengths := cfg.layout.length_encode (item.head cfg)
  rw [whole] at lengths
  simp only [List.length_append, List.length_cons, List.length_nil] at lengths done
  obtain rfl : more = [] := List.eq_nil_of_length_eq_zero (by omega)
  rw [← whole, cfg.layout.decode_encode]
  exact ⟨rfl, rfl⟩

/-- The holder moves on in what it reads, and waits for the same reply as before. -/
theorem SessionInv.reading (inv : SessionInv cfg registry handlers s served past pending)
    (rest : List (Cell Fd)) (phase : Phase) (taken : List (Msg sizeT))
    {pending' : List (Item H sizeT)}
    (holds : s.holder = some thread) (wrote : s.active.left = []) (inside : phase.inside = true)
    (bounded : phase.Bounded cfg) (left : phase.left = []) (awaited : phase.awaited = s.active.awaited)
    (replies : pending'.filterMap Item.replied? = pending.filterMap Item.replied?)
    (toClient : phase.consumed cfg ++ rest = pending'.flatMap (Item.cells cfg))
    (messages : s.pushed = taken ++ pending'.filterMap Item.pushed?)
    (async : ∀ msg ∈ pending'.filterMap Item.pushed?, msg.hwnd ≠ cfg.hwndInvalid)
    (reads : ∀ asked fd got, phase = .receives asked fd got → ∃ call bytes fd' rest,
      pending' = .reply call bytes fd' :: rest ∧ bytes.length = asked.lenRslt) :
    SessionInv cfg registry handlers
      ({ s.incoming rest with taken := taken }.goto thread phase) served past pending' := by
  have same_holder : ({ s.incoming rest with taken := taken }.goto thread phase).holder =
    some thread := holds
  have active : ({ s.incoming rest with taken := taken }.goto thread phase).active = phase :=
    (Session.active_holder same_holder).trans (Function.update_self ..)
  have unlocked : ∀ asked, phase ≠ .locks asked := by
    rintro asked rfl
    cases inside
  refine { inv with
    inside := inside_update inv.inside (iff_of_true inside holds) fun _ _ => Iff.rfl
    asks := asks_update inv.asks fun asked same => absurd same (unlocked asked)
    bounded := ?_
    stream := ?_
    waiting := ?_
    replies := ?_
    toClient := ?_
    messages := messages
    async := async
    reads := ?_ }
  · rw [active]
    exact bounded
  · rw [active, left, ← wrote]
    exact inv.stream
  · rw [active, awaited]
    exact inv.waiting
  · rw [replies]
    exact inv.replies
  · rw [active]
    exact toClient
  · rw [active]
    exact reads

/-- **A cell of a message**, read by a thread that waits. -/
theorem SessionInv.waits (inv : SessionInv cfg registry handlers s served past pending) {asked : Asked}
    {got : List Byte} (waits : s.phase thread = .waits asked got)
    (front : s.server.world.toClient = cell :: rest)
    (reads : (s.incoming rest).readCell cfg thread cell = some after) :
    ∃ pending', SessionInv cfg registry handlers after served past pending' := by
  have holds := inv.holds waits rfl
  have was : s.active = .waits asked got := (s.active_holder holds).trans waits
  have toClient := inv.toClient
  obtain ⟨some_bytes, inside⟩ : 0 < asked.lenRslt ∧ got.length < cfg.layout.size := by
    have bounded := inv.bounded
    rwa [was] at bounded
  rw [was, front] at toClient
  obtain ⟨item, others, value, more, rfl, whole, rfl, behind⟩ := item_front inside toClient
  have wrote : s.active.left = [] := by rw [was]; rfl
  have awaited : s.active.awaited = some asked := by
    rw [was]
    exact if_pos some_bytes
  have waits' : (s.incoming rest).phase thread = .waits asked got := waits
  simp only [Session.readCell, waits'] at reads
  rw [← Option.some.inj reads]
  by_cases partly : (got ++ [value]).length < cfg.layout.size
  · rw [if_pos partly]
    refine ⟨item :: others, inv.reading rest (.waits asked (got ++ [value])) s.taken holds wrote rfl
      ⟨some_bytes, partly⟩ rfl ((if_pos some_bytes).trans awaited.symm) rfl ?_ inv.messages inv.async
      nofun⟩
    rw [← toClient]
    show cells (got ++ [value]) ++ rest = cells got ++ .byte value :: rest
    rw [cells_append, List.append_assoc]
    rfl
  · obtain ⟨rfl, decoded⟩ := message_whole whole partly
    rw [if_neg partly, decoded, Session.heard]
    cases item with
    | push msg =>
      have async : msg.hwnd ≠ cfg.hwndInvalid := inv.async msg List.mem_cons_self
      refine ⟨others, ?_⟩
      rw [Item.head, if_neg async]
      have messages : s.pushed = s.taken ++ [msg] ++ others.filterMap Item.pushed? := by
        rw [inv.messages, List.append_assoc]
        rfl
      have async_others : ∀ msg ∈ others.filterMap Item.pushed?, msg.hwnd ≠ cfg.hwndInvalid :=
        fun msg member => inv.async msg (List.mem_cons_of_mem _ member)
      by_cases wakes : msg.message = cfg.msgWakeupClient
      · rw [if_pos wakes]
        exact inv.reading rest (.stuck asked) _ holds wrote rfl trivial rfl
          ((if_pos some_bytes).trans awaited.symm) rfl behind messages async_others nofun
      · rw [if_neg wakes]
        exact inv.reading rest (.waits asked []) _ holds wrote rfl ⟨some_bytes, cfg.layout.size_pos⟩ rfl
          ((if_pos some_bytes).trans awaited.symm) rfl behind messages async_others nofun
    | reply call bytes fd =>
      refine ⟨.reply call bytes fd :: others, ?_⟩
      rw [Item.head, if_pos (show cfg.marker.hwnd = cfg.hwndInvalid from rfl)]
      obtain ⟨asked', awaits, -, long⟩ := inv.under_way
        (show (call, bytes, fd) ∈ (call, bytes, fd) :: _ from List.mem_cons_self)
      obtain rfl : asked = asked' := Option.some.inj (awaited.symm.trans awaits)
      refine inv.reading rest (.receives asked none []) s.taken holds wrote rfl some_bytes rfl
        ((if_pos some_bytes).trans awaited.symm) rfl ?_ inv.messages inv.async
        fun asked' fd' got' same => ?_
      · rw [behind, List.flatMap_cons, Item.cells, List.append_assoc]
        exact congrArg (· ++ _) (List.append_nil _)
      · cases same
        exact ⟨call, bytes, fd, others, rfl, long⟩

/-- **A cell of a message**, read by a thread that only took the lock to read it. -/
theorem SessionInv.polls (inv : SessionInv cfg registry handlers s served past pending)
    {got : List Byte} (polls : s.phase thread = .polls got)
    (front : s.server.world.toClient = cell :: rest)
    (reads : (s.incoming rest).readCell cfg thread cell = some after) :
    ∃ pending', SessionInv cfg registry handlers after served past pending' := by
  have holds := inv.holds polls rfl
  have was : s.active = .polls got := (s.active_holder holds).trans polls
  have toClient := inv.toClient
  have inside : got.length < cfg.layout.size := by
    have bounded := inv.bounded
    rwa [was] at bounded
  rw [was, front] at toClient
  obtain ⟨item, others, value, more, rfl, whole, rfl, behind⟩ := item_front inside toClient
  have wrote : s.active.left = [] := by rw [was]; rfl
  have awaited : s.active.awaited = none := by rw [was]; rfl
  have polls' : (s.incoming rest).phase thread = .polls got := polls
  simp only [Session.readCell, polls'] at reads
  rw [← Option.some.inj reads]
  by_cases partly : (got ++ [value]).length < cfg.layout.size
  · rw [if_pos partly]
    refine ⟨item :: others, inv.reading rest (.polls (got ++ [value])) s.taken holds wrote rfl partly rfl
      awaited.symm rfl ?_ inv.messages inv.async nofun⟩
    rw [← toClient]
    show cells (got ++ [value]) ++ rest = cells got ++ .byte value :: rest
    rw [cells_append, List.append_assoc]
    rfl
  · obtain ⟨rfl, decoded⟩ := message_whole whole partly
    rw [if_neg partly, decoded]
    cases item with
    | push msg =>
      refine ⟨others, inv.reading rest .unlocks _ holds wrote rfl trivial rfl awaited.symm rfl behind ?_
        (fun msg member => inv.async msg (List.mem_cons_of_mem _ member)) nofun⟩
      rw [inv.messages, Item.head, List.append_assoc]
      rfl
    | reply call bytes fd =>
      -- nobody waits, so no reply is under way
      obtain ⟨asked, awaits, -⟩ := inv.under_way
        (show (call, bytes, fd) ∈ (call, bytes, fd) :: _ from List.mem_cons_self)
      rw [awaited] at awaits
      cases awaits

/-- **The reply is handed** to the thread that waits for it. -/
theorem SessionInv.delivers {call : Call H} {bytes : List Byte} {fd : Fd} {others : List (Item H sizeT)}
    {asked : Asked} {reply : Reply}
    (inv : SessionInv cfg registry handlers s served past (.reply call bytes fd :: others))
    (holds : s.holder = some thread) (wrote : s.active.left = [])
    (awaited : s.active.awaited = some asked)
    (delivers : Delivers (thread, asked, reply) (call, bytes, fd))
    (behind : rest = others.flatMap (Item.cells cfg)) :
    SessionInv cfg registry handlers
      ({ s.incoming rest with returned := s.returned ++ [(thread, asked, reply)] }.goto thread .unlocks)
      served (past ++ [(call, bytes, fd)]) others := by
  have same_holder : ({ s.incoming rest with returned := s.returned ++ [(thread, asked, reply)] }.goto
    thread .unlocks).holder = some thread := holds
  have active : ({ s.incoming rest with returned := s.returned ++ [(thread, asked, reply)] }.goto
      thread .unlocks).active = .unlocks :=
    (Session.active_holder same_holder).trans (Function.update_self ..)
  have waiting := inv.waiting
  rw [holds, awaited] at waiting
  refine { inv with
    inside := inside_update inv.inside (iff_of_true rfl holds) fun _ _ => Iff.rfl
    asks := asks_update inv.asks nofun
    bounded := ?_
    stream := ?_
    waiting := ?_
    replies := ?_
    delivered := List.rel_append inv.delivered (.cons delivers .nil)
    toClient := ?_
    reads := ?_ }
  · rw [active]
    trivial
  · have stream := inv.stream
    rw [wrote] at stream
    rw [active]
    exact stream
  · rw [same_holder, active]
    show s.waiting = (s.returned ++ [(thread, asked, reply)]).map _ ++ []
    rw [List.append_nil, List.map_append]
    exact waiting
  · rw [List.append_assoc]
    exact inv.replies
  · rw [active]
    exact behind
  · rw [active]
    nofun

/-- **A cell of a reply.** The last one hands the reply to the thread. -/
theorem SessionInv.receives (inv : SessionInv cfg registry handlers s served past pending)
    {asked : Asked} {fd : Option Fd} {got : List Byte} (receives : s.phase thread = .receives asked fd got)
    (front : s.server.world.toClient = cell :: rest)
    (reads : (s.incoming rest).readCell cfg thread cell = some after) :
    ∃ past' pending', SessionInv cfg registry handlers after served past' pending' := by
  have holds := inv.holds receives rfl
  have was : s.active = .receives asked fd got := (s.active_holder holds).trans receives
  have toClient := inv.toClient
  have waiting := inv.waiting
  have bounded : got.length < asked.lenRslt := by
    have bounded := inv.bounded
    rwa [was] at bounded
  have some_bytes : 0 < asked.lenRslt := Nat.zero_lt_of_lt bounded
  have wrote : s.active.left = [] := by rw [was]; rfl
  have awaited : s.active.awaited = some asked := by
    rw [was]
    exact if_pos some_bytes
  obtain ⟨call, bytes, fd', others, rfl, long⟩ := inv.reads asked fd got was
  rw [was, front, List.flatMap_cons, Item.cells] at toClient
  simp only [Phase.consumed, Item.head, Item.tail, List.append_assoc] at toClient
  have same := List.append_cancel_left toClient
  have receives' : (s.incoming rest).phase thread = .receives asked fd got := receives
  have inside : got.length < bytes.length := bounded.trans_eq long.symm
  rcases next_of_message inside same with
    ⟨value, more, rfl, whole, rfl, behind⟩ | ⟨value, rfl, rfl, arrives, rfl, behind⟩
  · simp only [Session.readCell, receives'] at reads
    rw [← Option.some.inj reads]
    by_cases partly : (got ++ [value]).length < asked.lenRslt
    · rw [if_pos partly]
      refine ⟨past, .reply call bytes fd' :: others, inv.reading rest
        (.receives asked _ (got ++ [value])) s.taken holds wrote rfl partly rfl
        ((if_pos some_bytes).trans awaited.symm) rfl ?_ inv.messages inv.async
        fun asked' fd'' got' is => ?_⟩
      · rw [behind, List.flatMap_cons, Item.cells, Item.tail, whole]
        simp only [Phase.consumed, Item.head, cells_append, List.append_assoc]
        rfl
      · cases is
        exact ⟨call, bytes, fd', others, rfl, long⟩
    · have done : got ++ [value] = bytes ∧ more = [] := by
        have lengths := congrArg List.length whole
        simp only [List.length_append, List.length_cons, List.length_nil] at lengths partly
        obtain rfl : more = [] := List.eq_nil_of_length_eq_zero (by omega)
        exact ⟨whole.symm, rfl⟩
      obtain ⟨rfl, rfl⟩ := done
      rw [if_neg partly]
      exact ⟨past ++ [(call, got ++ [value], fd')], others,
        inv.delivers holds wrote awaited rfl behind⟩
  · simp only [Session.readCell, receives'] at reads
    rw [← Option.some.inj reads]
    refine ⟨past, .reply call bytes fd' :: others, inv.reading rest
      (.receives asked (some value) []) s.taken holds wrote rfl some_bytes rfl
      ((if_pos some_bytes).trans awaited.symm) rfl ?_ inv.messages inv.async
      fun asked' fd'' got' is => ?_⟩
    · rw [behind, List.flatMap_cons, Item.cells, Item.tail, arrives]
      simp only [Phase.consumed, Item.head, List.append_assoc]
      rfl
    · cases is
      exact ⟨call, bytes, fd', others, rfl, long⟩

end Reading

end Aple.ClientServer
