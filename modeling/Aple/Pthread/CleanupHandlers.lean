/-
**The clean-up handlers of a thread.**

* `CleanupState` — the buffers in memory, linked through `prev`; what the thread is in the middle of
  (`Frame`: its own code, a handler, the loop of `vxpth_pthread_exit`); the history.
* `pthreadCleanupPushInner`, `pthreadCleanupPopInner`, `exitTurn` — the functions of the source.
* `CleanupEvent`, `cleanupExec` — the next thing that the running code does. A handler does what any
  code does: it pushes and pops, it returns, or it calls `pthread_exit` again.
* `Nested` — pushes and pops are the ends of blocks.
* `CleanupStep` — what a nested event does to the chain of buffers; every invariant is read off it.
* `HandlersOk`, `PopOk`, `ExitOk` — what holds of the handlers, and what a pop and an exit do to them.
* **`cleanup_handlers_once`** — every handler that was pushed is executed once, was popped without
  being executed, or is still linked; a pop unlinks its buffer; an exit executes what it finds in the
  order of the chain.

The destructors, which run behind the loop, are left out.
-/

import Aple.Lib.Chain
import Aple.Pthread.Table

namespace Aple.Pthread

open Aple.Lib

/-! ### Data -/

/-- `struct pthread_cleanup_buffer`; the routine is the address of a function. -/
structure CleanupBuffer where
  prev : Option Addr
  routine : Addr
  arg : Addr

/-- What the thread is in the middle of: code, with the buffers of its open blocks, innermost first;
or the loop that executes the handlers. -/
inductive Frame
  | code (own : List Addr)
  | exitLoop
deriving DecidableEq

/-- The call of a handler; `serial` counts the pushes. -/
structure HandlerCall where
  serial : ℕ
  routine : Addr
  arg : Addr
deriving DecidableEq

/-- The buffers, the frames of the thread with the innermost first, and the history: the number of
the push that a buffer holds, what was pushed, the handlers that were executed, those that were
popped only. -/
structure CleanupState where
  memory : Addr → CleanupBuffer
  cancelbuffer : Option Addr
  control : List Frame
  ended : Bool
  serial : Addr → ℕ
  pushes : List (Addr × Addr)
  executed : List HandlerCall
  dropped : List ℕ

namespace CleanupState

/-- The handler of a buffer. -/
def callOf (s : CleanupState) (buffer : Addr) : HandlerCall :=
  ⟨s.serial buffer, (s.memory buffer).routine, (s.memory buffer).arg⟩

/-- `buffer->routine (buffer->arg)`: its code runs next. -/
def execute (s : CleanupState) (buffer : Addr) : CleanupState :=
  { s with
    executed := s.executed ++ [s.callOf buffer]
    control := .code [] :: s.control }

/-- `cancelbuffer = buffer->prev`. -/
def unlink (s : CleanupState) (buffer : Addr) : CleanupState :=
  { s with cancelbuffer := (s.memory buffer).prev }

end CleanupState

/-! ### The functions -/

/-- `pthread_cleanup_push_inner`. -/
def pthreadCleanupPushInner (buffer routine arg : Addr) (s : CleanupState) : CleanupState :=
  { s with
    memory := Function.update s.memory buffer ⟨s.cancelbuffer, routine, arg⟩
    cancelbuffer := some buffer
    serial := Function.update s.serial buffer s.pushes.length
    pushes := s.pushes ++ [(routine, arg)] }

/-- `pthread_cleanup_pop_inner`. -/
def pthreadCleanupPopInner (buffer : Addr) (execute : Bool) (s : CleanupState) : CleanupState :=
  if s.cancelbuffer = some buffer then
    let s := s.unlink buffer
    if execute then s.execute buffer else { s with dropped := s.dropped ++ [s.serial buffer] }
  else s

/-- One turn of the loop of `vxpth_pthread_exit`, or its end. -/
def exitTurn (s : CleanupState) : CleanupState :=
  match s.cancelbuffer with
  | none => { s with control := [], ended := true }
  | some buffer => (s.unlink buffer).execute buffer

/-! ### Events -/

/-- What the innermost frame does next. -/
inductive CleanupEvent
  | push (buffer routine arg : Addr)
  | pop (buffer : Addr) (execute : Bool)
  | exit
  | ret
  | turn
deriving DecidableEq

/-- Run one event. A start routine that returns is an `exit`. -/
def cleanupExec (s : CleanupState) (event : CleanupEvent) : Option CleanupState :=
  match event, s.control with
  | .push buffer routine arg, .code own :: rest =>
    some (pthreadCleanupPushInner buffer routine arg { s with control := .code (buffer :: own) :: rest })
  | .pop buffer execute, .code own :: rest =>
    some (pthreadCleanupPopInner buffer execute { s with control := .code (own.erase buffer) :: rest })
  | .exit, .code own :: rest => some { s with control := .exitLoop :: .code own :: rest }
  | .ret, .code _ :: frame :: rest => some { s with control := frame :: rest }
  | .turn, .exitLoop :: _ => some (exitTurn s)
  | _, _ => none

/-- A thread before its start routine; its memory holds anything. -/
def CleanupState.initial (memory : Addr → CleanupBuffer) : CleanupState where
  memory := memory
  cancelbuffer := none
  control := [.code []]
  ended := false
  serial _ := 0
  pushes := []
  executed := []
  dropped := []

/-- Everything that a thread does. -/
def cleanupSystem : System CleanupState CleanupEvent where
  init s := ∃ memory, s = .initial memory
  step s event after := cleanupExec s event = some after

/-- The buffers that are linked, from the top of the stack. -/
def Pending (s : CleanupState) (chain : List Addr) : Prop :=
  IsList (fun buffer => (s.memory buffer).prev) s.cancelbuffer chain

/-- Pushes and pops are the ends of blocks. A buffer is a local variable of its block, so it is not
that of an open one; a pop ends the innermost block; a handler returns behind its last block. -/
def Nested (s : CleanupState) : CleanupEvent → Prop
  | .push buffer _ _ => ∀ chain, Pending s chain → buffer ∉ chain
  | .pop buffer _ => ∃ own rest, s.control = .code (buffer :: own) :: rest
  | .ret => ∃ rest, s.control = .code [] :: rest
  | .exit => True
  | .turn => True

/-- The blocks that may still be left: those of the frames above the innermost exit. -/
def openBlocks : List Frame → List Addr
  | .code own :: rest => own ++ openBlocks rest
  | _ => []

/-! ### One event -/

/-- The chain of a state. Every push is accounted for. -/
structure CleanupInv (s : CleanupState) (chain : List Addr) : Prop where
  pending : Pending s chain
  /-- The open blocks are the top of the chain. -/
  blocks : ∃ others, chain = openBlocks s.control ++ others
  /-- A push was executed, or popped only, or is linked, and only one of these. -/
  account : (s.executed.map HandlerCall.serial ++ s.dropped ++ chain.map s.serial).Perm
    (List.range s.pushes.length)
  order : (chain.map s.serial).Pairwise (· > ·)
  linked : ∀ buffer ∈ chain,
    s.pushes[s.serial buffer]? = some ((s.memory buffer).routine, (s.memory buffer).arg)
  calls : ∀ call ∈ s.executed, s.pushes[call.serial]? = some (call.routine, call.arg)
  ended : s.ended = true → chain = [] ∧ s.control = []

/-- **What a nested event does.** -/
inductive CleanupStep (s : CleanupState) (chain : List Addr) :
    CleanupEvent → CleanupState → List Addr → Prop
  | pushed (buffer routine arg : Addr) (own : List Addr) (rest : List Frame) :
      s.control = .code own :: rest → buffer ∉ chain →
      CleanupStep s chain (.push buffer routine arg)
        (pthreadCleanupPushInner buffer routine arg
          { s with control := .code (buffer :: own) :: rest }) (buffer :: chain)
  | popped (buffer : Addr) (own : List Addr) (rest : List Frame) (tail : List Addr) :
      s.control = .code (buffer :: own) :: rest → chain = buffer :: tail →
      CleanupStep s chain (.pop buffer false)
        { s.unlink buffer with
          control := .code own :: rest, dropped := s.dropped ++ [s.serial buffer] } tail
  | executed (buffer : Addr) (own : List Addr) (rest : List Frame) (tail : List Addr) :
      s.control = .code (buffer :: own) :: rest → chain = buffer :: tail →
      CleanupStep s chain (.pop buffer true)
        { s.unlink buffer with
          control := .code [] :: .code own :: rest, executed := s.executed ++ [s.callOf buffer] } tail
  | exited (own : List Addr) (rest : List Frame) : s.control = .code own :: rest →
      CleanupStep s chain .exit { s with control := .exitLoop :: .code own :: rest } chain
  | returned (frame : Frame) (rest : List Frame) : s.control = .code [] :: frame :: rest →
      CleanupStep s chain .ret { s with control := frame :: rest } chain
  | taken (buffer : Addr) (rest : List Frame) (tail : List Addr) :
      s.control = .exitLoop :: rest → chain = buffer :: tail →
      CleanupStep s chain .turn
        { s.unlink buffer with
          control := .code [] :: .exitLoop :: rest
          executed := s.executed ++ [s.callOf buffer] } tail
  | finished (rest : List Frame) : s.control = .exitLoop :: rest → chain = [] →
      CleanupStep s chain .turn { s with control := [], ended := true } []

section Steps

variable {s after : CleanupState} {chain : List Addr} {event : CleanupEvent}

/-- The chain under its first buffer. -/
theorem Pending.tail {buffer : Addr} {tail : List Addr} (pending : Pending s (buffer :: tail)) :
    s.cancelbuffer = some buffer ∧ Pending (s.unlink buffer) tail := pending

theorem exitTurn_bottom (bottom : s.cancelbuffer = none) :
    exitTurn s = { s with control := [], ended := true } := by
  unfold exitTurn
  split
  · rfl
  · rename_i top
    rw [bottom] at top
    cases top

theorem exitTurn_top {buffer : Addr} (top : s.cancelbuffer = some buffer) :
    exitTurn s = { s.unlink buffer with
      control := .code [] :: s.control, executed := s.executed ++ [s.callOf buffer] } := by
  unfold exitTurn
  split
  · rename_i bottom
    rw [bottom] at top
    cases top
  · rename_i first
    obtain rfl : _ = buffer := Option.some.inj (first.symm.trans top)
    rfl

/-- The block that a nested pop ends is the top of the chain. -/
theorem CleanupInv.top (inv : CleanupInv s chain) {buffer : Addr} {execute : Bool}
    (nested : Nested s (.pop buffer execute)) : ∃ tail, chain = buffer :: tail := by
  obtain ⟨own, rest, control⟩ := nested
  obtain ⟨others, split⟩ := inv.blocks
  rw [control] at split
  exact ⟨_, split⟩

theorem cleanup_cases (inv : CleanupInv s chain) (nested : Nested s event)
    (runs : cleanupExec s event = some after) : ∃ chain', CleanupStep s chain event after chain' := by
  cases event with
  | push buffer routine arg =>
    cases control : s.control with
    | nil => simp [cleanupExec, control] at runs
    | cons frame rest =>
      cases frame with
      | exitLoop => simp [cleanupExec, control] at runs
      | code own =>
        simp only [cleanupExec, control, Option.some.injEq] at runs
        subst runs
        exact ⟨_, CleanupStep.pushed buffer routine arg own rest control (nested chain inv.pending)⟩
  | pop buffer execute =>
    obtain ⟨tail, split⟩ := inv.top nested
    obtain ⟨own, rest, control⟩ := nested
    have top : s.cancelbuffer = some buffer := (split ▸ inv.pending).tail.1
    simp only [cleanupExec, control, pthreadCleanupPopInner, if_pos top, List.erase_cons_head,
      Option.some.injEq] at runs
    subst runs
    cases execute with
    | false => exact ⟨_, CleanupStep.popped buffer own rest _ control split⟩
    | true => exact ⟨_, CleanupStep.executed buffer own rest _ control split⟩
  | exit =>
    cases control : s.control with
    | nil => simp [cleanupExec, control] at runs
    | cons frame rest =>
      cases frame with
      | exitLoop => simp [cleanupExec, control] at runs
      | code own =>
        simp only [cleanupExec, control, Option.some.injEq] at runs
        subst runs
        exact ⟨_, CleanupStep.exited own rest control⟩
  | ret =>
    obtain ⟨rest, control⟩ := nested
    cases rest with
    | nil => simp [cleanupExec, control] at runs
    | cons frame rest =>
      simp only [cleanupExec, control, Option.some.injEq] at runs
      subst runs
      exact ⟨_, CleanupStep.returned frame rest control⟩
  | turn =>
    cases control : s.control with
    | nil => simp [cleanupExec, control] at runs
    | cons frame rest =>
      cases frame with
      | code own => simp [cleanupExec, control] at runs
      | exitLoop =>
        simp only [cleanupExec, control, Option.some.injEq] at runs
        subst runs
        cases chain with
        | nil =>
          rw [exitTurn_bottom inv.pending]
          exact ⟨_, CleanupStep.finished rest control rfl⟩
        | cons buffer tail =>
          rw [exitTurn_top inv.pending.tail.1, control]
          exact ⟨_, CleanupStep.taken buffer rest tail control rfl⟩

/-- A push is accounted for by the new top of the chain. -/
theorem CleanupInv.push (inv : CleanupInv s chain) {buffer : Addr} (routine arg : Addr)
    {own : List Addr} {rest : List Frame} (control : s.control = .code own :: rest)
    (fresh : buffer ∉ chain) :
    CleanupInv (pthreadCleanupPushInner buffer routine arg
      { s with control := .code (buffer :: own) :: rest }) (buffer :: chain) := by
  have differs : ∀ other ∈ chain, other ≠ buffer := fun other member same => fresh (same ▸ member)
  have serials : chain.map (Function.update s.serial buffer s.pushes.length) =
      chain.map s.serial :=
    List.map_congr_left fun other member => Function.update_of_ne (differs other member) _ _
  have member_lt : ∀ number ∈ chain.map s.serial, number < s.pushes.length := fun number member =>
    List.mem_range.mp (inv.account.subset (List.mem_append_right _ member))
  have bigger : ∀ {number : ℕ} {pushed : Addr × Addr}, s.pushes[number]? = some pushed →
      (s.pushes ++ [(routine, arg)])[number]? = some pushed := by
    intro number pushed old
    exact (List.getElem?_append_left (List.getElem?_eq_some_iff.mp old).1).trans old
  constructor
  case pending =>
    refine ⟨rfl, ?_⟩
    show IsList _ ((Function.update s.memory buffer _ buffer).prev) chain
    rw [Function.update_self]
    refine seg_congr (fun other member => ?_) inv.pending
    show (Function.update s.memory buffer _ other).prev = (s.memory other).prev
    rw [Function.update_of_ne (differs other member)]
  case blocks =>
    obtain ⟨others, split⟩ := inv.blocks
    rw [control] at split
    exact ⟨others, congrArg (buffer :: ·) split⟩
  case account =>
    show (s.executed.map HandlerCall.serial ++ s.dropped ++
      (Function.update s.serial buffer s.pushes.length buffer ::
        chain.map (Function.update s.serial buffer s.pushes.length))).Perm
      (List.range (s.pushes ++ [(routine, arg)]).length)
    rw [Function.update_self, serials, List.length_append, List.length_singleton,
      List.range_succ]
    exact List.perm_middle.trans
      ((inv.account.cons s.pushes.length).trans (List.perm_append_singleton _ _).symm)
  case order =>
    show (Function.update s.serial buffer s.pushes.length buffer ::
      chain.map (Function.update s.serial buffer s.pushes.length)).Pairwise (· > ·)
    rw [Function.update_self, serials]
    exact List.pairwise_cons.mpr ⟨member_lt, inv.order⟩
  case linked =>
    intro other member
    show (s.pushes ++ [(routine, arg)])[Function.update s.serial buffer s.pushes.length other]? =
      some ((Function.update s.memory buffer _ other).routine,
        (Function.update s.memory buffer _ other).arg)
    rcases List.mem_cons.mp member with rfl | member
    · rw [Function.update_self, Function.update_self]
      exact List.getElem?_concat_length
    · rw [Function.update_of_ne (differs other member), Function.update_of_ne (differs other member)]
      exact bigger (inv.linked other member)
  case calls => exact fun call member => bigger (inv.calls call member)
  case ended =>
    intro ended
    have gone := (inv.ended ended).2
    rw [control] at gone
    cases gone

/-- The top of the chain is unlinked, and executed or only dropped. -/
theorem CleanupInv.take {buffer : Addr} {tail : List Addr} (inv : CleanupInv s (buffer :: tail))
    {control : List Frame} {executed : List HandlerCall} {dropped : List ℕ}
    (blocks : ∃ others, tail = openBlocks control ++ others)
    (account : (executed.map HandlerCall.serial ++ dropped).Perm
      (s.serial buffer :: (s.executed.map HandlerCall.serial ++ s.dropped)))
    (calls : ∀ call ∈ executed, s.pushes[call.serial]? = some (call.routine, call.arg)) :
    CleanupInv { s.unlink buffer with
      control := control, executed := executed, dropped := dropped } tail where
  pending := inv.pending.tail.2
  blocks := blocks
  account := (account.append_right _).trans (List.perm_middle.symm.trans inv.account)
  order := (List.pairwise_cons.mp inv.order).2
  linked other member := inv.linked other (List.mem_cons_of_mem _ member)
  calls := calls
  ended gone := by cases (inv.ended gone).1

/-- The handler of the top of the chain is called with what was pushed. -/
theorem CleanupInv.call {buffer : Addr} {tail : List Addr} (inv : CleanupInv s (buffer :: tail)) :
    ∀ call ∈ s.executed ++ [s.callOf buffer],
      s.pushes[call.serial]? = some (call.routine, call.arg) := by
  intro call member
  rcases List.mem_append.mp member with earlier | now
  · exact inv.calls call earlier
  · rw [List.mem_singleton.mp now]
    exact inv.linked buffer List.mem_cons_self

/-- **A nested event** keeps the invariant. -/
theorem cleanup_step {chain' : List Addr} (inv : CleanupInv s chain)
    (step : CleanupStep s chain event after chain') : CleanupInv after chain' := by
  have executes : ∀ buffer, ((s.executed ++ [s.callOf buffer]).map HandlerCall.serial ++
      s.dropped).Perm (s.serial buffer :: (s.executed.map HandlerCall.serial ++ s.dropped)) := by
    intro buffer
    rw [List.map_append, List.append_assoc]
    exact List.perm_middle
  -- the block that a pop ends is the top of the chain
  have ends : ∀ {buffer own rest tail}, s.control = .code (buffer :: own) :: rest →
      chain = buffer :: tail → ∃ others, tail = own ++ openBlocks rest ++ others := by
    intro buffer own rest tail control split
    obtain ⟨others, whole⟩ := inv.blocks
    rw [control, split] at whole
    exact ⟨others, List.cons_injective whole⟩
  cases step with
  | pushed buffer routine arg own rest control fresh => exact inv.push routine arg control fresh
  | popped buffer own rest tail control split =>
    have blocks := ends control split
    subst split
    refine inv.take blocks ?_ inv.calls
    rw [← List.append_assoc]
    exact List.perm_append_singleton _ _
  | executed buffer own rest tail control split =>
    have blocks := ends control split
    subst split
    exact inv.take blocks (executes buffer) inv.call
  | exited own rest control => exact { inv with
      blocks := ⟨chain, rfl⟩
      ended := fun gone => by
        have stopped := (inv.ended gone).2
        rw [control] at stopped
        cases stopped }
  | returned frame rest control =>
    obtain ⟨others, split⟩ := inv.blocks
    rw [control] at split
    exact { inv with
      blocks := ⟨others, split⟩
      ended := fun gone => by
        have stopped := (inv.ended gone).2
        rw [control] at stopped
        cases stopped }
  | taken buffer rest tail control split =>
    subst split
    exact inv.take ⟨_, rfl⟩ (executes buffer) inv.call
  | finished rest control split =>
    subst split
    exact { inv with blocks := ⟨[], rfl⟩, ended := fun _ => ⟨rfl, rfl⟩ }

theorem cleanup_run (reached : cleanupSystem.ReachableBy Nested s) :
    ∃ chain, CleanupInv s chain := by
  refine reached.invariant (fun s => ∃ chain, CleanupInv s chain) ?_ ?_
  · rintro _ ⟨memory, rfl⟩
    refine ⟨[], rfl, ⟨[], rfl⟩, List.Perm.refl _, List.Pairwise.nil, ?_, ?_, fun gone => ?_⟩
    · exact fun buffer member => absurd member List.not_mem_nil
    · exact fun call member => absurd member List.not_mem_nil
    · cases gone
  · rintro s event after - ⟨chain, inv⟩ nested runs
    obtain ⟨chain', step⟩ := cleanup_cases inv nested runs
    exact ⟨chain', cleanup_step inv step⟩

end Steps

/-! ### The end of an exit -/

/-- The frames of code above the innermost exit. -/
def codeDepth : List Frame → ℕ
  | .code _ :: rest => codeDepth rest + 1
  | _ => 0

/-- How many events there are at most, when nothing is pushed. -/
def eventsLeft (s : CleanupState) (chain : List Addr) : ℕ :=
  3 * chain.length + 2 * codeDepth s.control + (!s.ended).toNat

def CleanupEvent.isPush : CleanupEvent → Bool
  | .push .. => true
  | _ => false

/-- A handler that was pushed before the state was reached. -/
def CleanupState.knows (s : CleanupState) (call : HandlerCall) : Bool :=
  decide (call.serial < s.pushes.length)

/-- An exit from `s`, where `chain` was linked, has come to `after`, where `left` is linked. -/
structure Exiting (s : CleanupState) (chain : List Addr) (after : CleanupState)
    (left : List Addr) : Prop where
  calls : ∃ calls, after.executed = s.executed ++ calls ∧
    (calls ++ left.map after.callOf).filter s.knows = chain.map s.callOf
  /-- Only blocks that were opened behind the exit are still left by their ends. -/
  later : ∀ buffer ∈ openBlocks after.control, s.pushes.length ≤ after.serial buffer
  pushes : s.pushes.length ≤ after.pushes.length
  loops : .exitLoop ∈ after.control ∨ after.ended = true

section Exit

variable {s middle after : CleanupState} {chain left left' : List Addr} {event : CleanupEvent}

/-- **Every event but a push** brings the end nearer. -/
theorem eventsLeft_step (inv : CleanupInv s chain) (step : CleanupStep s chain event after left) :
    eventsLeft after left + 1 ≤ eventsLeft s chain + 4 * event.isPush.toNat := by
  unfold eventsLeft
  cases step with
  | pushed buffer routine arg own rest control fresh =>
    rw [control]
    simp only [pthreadCleanupPushInner, codeDepth, List.length_cons, CleanupEvent.isPush,
      Bool.toNat_true]
    omega
  | popped buffer own rest tail control split =>
    rw [control, split]
    simp only [CleanupState.unlink, codeDepth, List.length_cons]
    omega
  | executed buffer own rest tail control split =>
    rw [control, split]
    simp only [CleanupState.unlink, codeDepth, List.length_cons]
    omega
  | exited own rest control =>
    rw [control]
    simp only [codeDepth]
    omega
  | returned frame rest control =>
    rw [control]
    simp only [codeDepth]
    omega
  | taken buffer rest tail control split =>
    rw [control, split]
    simp only [CleanupState.unlink, codeDepth, List.length_cons]
    omega
  | finished rest control split =>
    have running : s.ended = false := by
      by_contra gone
      rw [(inv.ended (Bool.not_eq_false _ ▸ gone)).2] at control
      cases control
    rw [running, control, split]
    exact Nat.le_add_right _ _

/-- **One event behind an exit.** -/
theorem exiting_step (inv : CleanupInv middle left) (exiting : Exiting s chain middle left)
    (step : CleanupStep middle left event after left') : Exiting s chain after left' := by
  obtain ⟨⟨calls, executed, order⟩, later, pushes, loops⟩ := exiting
  -- the loop of the exit is below whatever is running
  have below : ∀ {own rest}, middle.control = .code own :: rest → .exitLoop ∈ rest := by
    intro own rest control
    rcases loops with below | gone
    · rw [control] at below
      exact (List.mem_cons.mp below).resolve_left (by simp)
    · rw [(inv.ended gone).2] at control
      cases control
  cases step with
  | pushed buffer routine arg own rest control fresh =>
    have differs : ∀ other ∈ left, other ≠ buffer := fun other member same => fresh (same ▸ member)
    refine ⟨⟨calls, executed, ?_⟩, fun other member => ?_, ?_,
      .inl (List.mem_cons_of_mem _ (below control))⟩
    · have same : left.map (pthreadCleanupPushInner buffer routine arg
          { middle with control := .code (buffer :: own) :: rest }).callOf =
          left.map middle.callOf := by
        refine List.map_congr_left fun other member => ?_
        simp only [CleanupState.callOf, pthreadCleanupPushInner,
          Function.update_of_ne (differs other member)]
      rw [List.map_cons, same, List.filter_append, List.filter_cons_of_neg, ← List.filter_append]
      · exact order
      · simpa [CleanupState.knows, CleanupState.callOf, pthreadCleanupPushInner] using pushes
    · show s.pushes.length ≤ Function.update middle.serial buffer middle.pushes.length other
      rcases List.mem_cons.mp member with rfl | member
      · rw [Function.update_self]
        exact pushes
      · have opened : other ∈ openBlocks middle.control := by
          rw [control]
          exact member
        obtain ⟨others, split⟩ := inv.blocks
        rw [Function.update_of_ne (differs other (split ▸ List.mem_append_left _ opened))]
        exact later other opened
    · show s.pushes.length ≤ (middle.pushes ++ [_]).length
      rw [List.length_append]
      omega
  | popped buffer own rest tail control split =>
    have late : s.pushes.length ≤ middle.serial buffer :=
      later buffer (by rw [control]; exact List.mem_cons_self)
    have unknown : ¬ s.knows (middle.callOf buffer) = true := fun known =>
      absurd (of_decide_eq_true known) (Nat.not_lt.mpr late)
    refine ⟨⟨calls, executed, ?_⟩, fun other member => later other ?_, pushes,
      .inl (List.mem_cons_of_mem _ (below control))⟩
    · rw [split, List.map_cons, List.filter_append, List.filter_cons_of_neg unknown,
        ← List.filter_append] at order
      exact order
    · rw [control]
      exact List.mem_cons_of_mem _ member
  | executed buffer own rest tail control split =>
    refine ⟨⟨calls ++ [middle.callOf buffer], ?_, ?_⟩, fun other member => later other ?_, pushes,
      .inl (List.mem_cons_of_mem _ (List.mem_cons_of_mem _ (below control)))⟩
    · rw [executed, List.append_assoc]
    · rw [split, List.map_cons] at order
      rw [List.append_assoc]
      exact order
    · rw [control]
      exact List.mem_cons_of_mem _ member
  | exited own rest control =>
    exact ⟨⟨calls, executed, order⟩, fun other member => absurd member List.not_mem_nil, pushes,
      .inl List.mem_cons_self⟩
  | returned frame rest control =>
    refine ⟨⟨calls, executed, order⟩, fun other member => later other ?_, pushes,
      .inl (below control)⟩
    rw [control]
    exact member
  | taken buffer rest tail control split =>
    refine ⟨⟨calls ++ [middle.callOf buffer], ?_, ?_⟩,
      fun other member => absurd member List.not_mem_nil, pushes,
      .inl (List.mem_cons_of_mem _ List.mem_cons_self)⟩
    · rw [executed, List.append_assoc]
    · rw [split, List.map_cons] at order
      rw [List.append_assoc]
      exact order
  | finished rest control split =>
    rw [split] at order
    exact ⟨⟨calls, executed, order⟩, fun other member => absurd member List.not_mem_nil, pushes,
      .inr rfl⟩

end Exit

/-! ### The result -/

/-- Every handler that was pushed was executed, was popped only, or is linked, and only one of these; no
handler is executed twice, and none that was popped only; a handler is called with the argument that
was pushed. -/
structure HandlersOk (s : CleanupState) (chain : List Addr) : Prop where
  account : (s.executed.map HandlerCall.serial ++ s.dropped ++ chain.map s.serial).Perm
    (List.range s.pushes.length)
  once : (s.executed.map HandlerCall.serial).Nodup
  dropped : ∀ number ∈ s.dropped, number ∉ s.executed.map HandlerCall.serial
  calls : ∀ call ∈ s.executed, s.pushes[call.serial]? = some (call.routine, call.arg)

/-- What an exit from `s` does, where `chain` was linked: it goes on until it ends, it ends unless the
handlers push without end, and it executes the handlers of the chain, each once and from the top. -/
structure ExitOk (s : CleanupState) (chain : List Addr) (events : List CleanupEvent)
    (after : CleanupState) : Prop where
  goesOn : after.ended = false → ∃ event next, Nested after event ∧ cleanupExec after event = some next
  ends : events.length ≤ 3 * chain.length + 1 + 4 * events.countP CleanupEvent.isPush
  executes : after.ended = true → ∃ calls, after.executed = s.executed ++ calls ∧
    calls.filter s.knows = chain.map s.callOf

/-- What a pop of the innermost open block does: it finds its buffer on top of the chain and unlinks it,
it executes the handler or nothing, and a handler that it does not execute is executed nowhere behind
it. -/
structure PopOk (s : CleanupState) (chain : List Addr) (buffer : Addr) : Prop where
  top : ∃ tail, chain = buffer :: tail
  does : ∀ execute, ∃ after, cleanupExec s (.pop buffer execute) = some after ∧
    Pending after chain.tail ∧ after.serial = s.serial ∧
    after.executed = s.executed ++ if execute then [s.callOf buffer] else []
  never : ∀ events after, cleanupSystem.RunBy Nested s (.pop buffer false :: events) after →
    s.serial buffer ∉ after.executed.map HandlerCall.serial

theorem CleanupInv.handlersOk {s : CleanupState} {chain : List Addr} (inv : CleanupInv s chain) :
    HandlersOk s chain := by
  have apart := inv.account.nodup_iff.mpr List.nodup_range
  obtain ⟨first, -, -⟩ := List.nodup_append.mp apart
  obtain ⟨once, -, differ⟩ := List.nodup_append.mp first
  exact ⟨inv.account, once, fun number dropped executed => differ number executed number dropped rfl,
    inv.calls⟩

/-- What was popped only stays so. -/
theorem CleanupStep.dropped_mono {s after : CleanupState} {chain chain' : List Addr}
    {event : CleanupEvent} (step : CleanupStep s chain event after chain') {number : ℕ}
    (dropped : number ∈ s.dropped) : number ∈ after.dropped := by
  cases step with
  | popped => exact List.mem_append_left _ dropped
  | _ => exact dropped

/-- **A run** keeps the invariant, and what was popped only. -/
theorem CleanupInv.run {s after : CleanupState} {chain : List Addr} {events : List CleanupEvent}
    (inv : CleanupInv s chain) (run : cleanupSystem.RunBy Nested s events after) :
    (∃ left, CleanupInv after left) ∧ ∀ number ∈ s.dropped, number ∈ after.dropped := by
  refine run.invariant
    (fun _ middle => (∃ left, CleanupInv middle left) ∧ ∀ number ∈ s.dropped, number ∈ middle.dropped)
    ⟨⟨chain, inv⟩, fun number dropped => dropped⟩ ?_
  rintro done event middle next ⟨⟨left, inv⟩, kept⟩ nested runs
  obtain ⟨left', step⟩ := cleanup_cases inv nested runs
  exact ⟨⟨left', cleanup_step inv step⟩, fun number dropped => step.dropped_mono (kept number dropped)⟩

/-- A pop of the top of the chain, in a block of the running code. -/
theorem exec_pop {s : CleanupState} {buffer : Addr} {own : List Addr} {rest : List Frame}
    (control : s.control = .code (buffer :: own) :: rest) (top : s.cancelbuffer = some buffer)
    (execute : Bool) : ∃ after, cleanupExec s (.pop buffer execute) = some after ∧
      after.cancelbuffer = (s.memory buffer).prev ∧ after.memory = s.memory ∧ after.serial = s.serial ∧
      after.executed = s.executed ++ if execute then [s.callOf buffer] else [] := by
  simp only [cleanupExec, control, pthreadCleanupPopInner, if_pos top, List.erase_cons_head]
  cases execute with
  | false => exact ⟨_, rfl, rfl, rfl, rfl, (List.append_nil _).symm⟩
  | true => exact ⟨_, rfl, rfl, rfl, rfl, rfl⟩

/-- **A nested pop.** -/
theorem CleanupInv.popOk {s : CleanupState} {chain : List Addr} (inv : CleanupInv s chain)
    {buffer : Addr} {execute : Bool} (nested : Nested s (.pop buffer execute)) : PopOk s chain buffer := by
  obtain ⟨tail, is⟩ := inv.top nested
  obtain ⟨own, rest, control⟩ := nested
  subst is
  obtain ⟨top, under⟩ := inv.pending.tail
  refine ⟨⟨tail, rfl⟩, fun execute => ?_, fun events after run => ?_⟩
  · obtain ⟨after, runs, first, memory, serial, executed⟩ := exec_pop control top execute
    refine ⟨after, runs, ?_, serial, executed⟩
    unfold Pending
    rw [first, memory]
    exact under
  · cases run with
    | go _ pops others =>
    have nested : Nested s (.pop buffer false) := ⟨own, rest, control⟩
    obtain ⟨left, step⟩ := cleanup_cases inv nested pops
    obtain ⟨⟨_, last⟩, kept⟩ := (cleanup_step inv step).run others
    apply last.handlersOk.dropped
    apply kept
    cases step with
    | popped => exact List.mem_append_right _ (List.mem_singleton.mpr rfl)

/-- Behind an exit, and how many events that took. -/
def ExitBound (s : CleanupState) (chain : List Addr) (done : List CleanupEvent)
    (middle : CleanupState) : Prop :=
  ∃ left, CleanupInv middle left ∧ Exiting s chain middle left ∧
    done.length + eventsLeft middle left ≤
      3 * chain.length + 1 + 4 * done.countP CleanupEvent.isPush

theorem exitBound_step {s middle next : CleanupState} {chain : List Addr}
    {done : List CleanupEvent} {event : CleanupEvent} (before : ExitBound s chain done middle)
    (nested : Nested middle event) (runs : cleanupExec middle event = some next) :
    ExitBound s chain (done ++ [event]) next := by
  obtain ⟨left, inv, exiting, bound⟩ := before
  obtain ⟨left', step⟩ := cleanup_cases inv nested runs
  have fewer := eventsLeft_step inv step
  have one : [event].countP CleanupEvent.isPush = event.isPush.toNat := by cases event <;> rfl
  refine ⟨left', cleanup_step inv step, exiting_step inv exiting step, ?_⟩
  rw [List.length_append, List.length_singleton, List.countP_append, one]
  omega

theorem exec_exit {s : CleanupState} {own : List Addr} {rest : List Frame}
    (control : s.control = .code own :: rest) :
    cleanupExec s .exit = some { s with control := .exitLoop :: .code own :: rest } := by
  simp only [cleanupExec, control]

theorem exec_turn {s : CleanupState} {rest : List Frame} (control : s.control = .exitLoop :: rest) :
    cleanupExec s .turn = some (exitTurn s) := by
  simp only [cleanupExec, control]

/-- **Behind an exit**, up to any of its states. -/
theorem exit_ok {s after : CleanupState} {chain : List Addr} {events : List CleanupEvent}
    (inv : CleanupInv s chain) (run : cleanupSystem.RunBy Nested s (.exit :: events) after) :
    ExitOk s chain events after := by
  cases run with
  | go _ exits rest =>
  have free : Nested s .exit := trivial
  obtain ⟨chain', step⟩ := cleanup_cases inv free exits
  have inv' := cleanup_step inv step
  cases step with
  | exited own frames control =>
  have known : ∀ call ∈ chain.map s.callOf, s.knows call = true := by
    intro call member
    obtain ⟨buffer, linked, rfl⟩ := List.mem_map.mp member
    exact decide_eq_true (List.getElem?_eq_some_iff.mp (inv.linked buffer linked)).1
  have exiting : Exiting s chain { s with control := .exitLoop :: .code own :: frames } chain :=
    ⟨⟨[], (List.append_nil _).symm, List.filter_eq_self.mpr known⟩,
      fun other member => absurd member List.not_mem_nil, le_refl _, .inl List.mem_cons_self⟩
  have start : 0 + eventsLeft { s with control := .exitLoop :: .code own :: frames } chain ≤
      3 * chain.length + 1 + 4 * 0 := by
    have last : (!s.ended).toNat ≤ 1 := Bool.toNat_le _
    simp only [eventsLeft, codeDepth]
    omega
  obtain ⟨left, inv', exiting, bound⟩ := rest.invariant (ExitBound s chain)
    ⟨chain, inv', exiting, start⟩ fun done event middle next => exitBound_step
  refine ⟨fun running => ?_, by omega, fun gone => ?_⟩
  · rcases exiting.loops with below | gone
    · cases control : after.control with
      | nil =>
        rw [control] at below
        cases below
      | cons frame others =>
        cases frame with
        | code own => exact ⟨.exit, _, trivial, exec_exit control⟩
        | exitLoop => exact ⟨.turn, _, trivial, exec_turn control⟩
    · rw [gone] at running
      cases running
  · obtain ⟨calls, executed, order⟩ := exiting.calls
    rw [(inv'.ended gone).1, List.map_nil, List.append_nil] at order
    exact ⟨calls, executed, order⟩

/-- **Clean-up handlers.** In every state of a run whose pushes and pops are nested, every handler that
was pushed was executed once, was popped without execution, or is linked. A pop of the innermost block
unlinks its buffer and executes the handler or drops it for good; a pop that does not name the top of
the stack does nothing. An exit executes what is linked, each handler once, the last one that was
pushed first, whatever exits its handlers make in turn. -/
theorem cleanup_handlers_once {s : CleanupState} (reached : cleanupSystem.ReachableBy Nested s) :
    (∀ buffer execute, s.cancelbuffer ≠ some buffer → pthreadCleanupPopInner buffer execute s = s) ∧
      ∃ chain, Pending s chain ∧ (chain.map s.serial).Pairwise (· > ·) ∧ HandlersOk s chain ∧
        (∀ buffer execute, Nested s (.pop buffer execute) → PopOk s chain buffer) ∧
        ∀ events after, cleanupSystem.RunBy Nested s (.exit :: events) after →
          ExitOk s chain events after := by
  obtain ⟨chain, inv⟩ := cleanup_run reached
  exact ⟨fun buffer execute other => if_neg other, chain, inv.pending, inv.order, inv.handlersOk,
    fun buffer execute nested => inv.popOk nested, fun events after run => exit_ok inv run⟩

theorem nested_push {s : CleanupState} {chain : List Addr} {buffer routine arg : Addr}
    (pending : Pending s chain) (fresh : buffer ∉ chain) : Nested s (.push buffer routine arg) :=
  fun _ other => isList_unique other pending ▸ fresh

/-- Three handlers are pushed. -/
def threePushes : List CleanupEvent := [.push 10 1 2, .push 20 3 4, .push 30 5 6]

/-- The loop executes a handler, which exits in turn; the second loop executes the other one. -/
def exitInHandler : List CleanupEvent := [.turn, .exit, .turn, .ret, .turn]

theorem cleanup_handlers_once_exits : ∃ s popped after chain left,
    runEvents cleanupExec (.initial fun _ => ⟨none, 0, 0⟩) threePushes = some s ∧
      cleanupExec s (.pop 30 false) = some popped ∧ PopOk s chain 30 ∧
      runEvents cleanupExec popped (.exit :: exitInHandler) = some after ∧ after.ended = true ∧
      after.executed = [⟨1, 3, 4⟩, ⟨0, 1, 2⟩] ∧ ExitOk popped left exitInHandler after ∧
      s.serial 30 ∉ after.executed.map HandlerCall.serial := by
  have start : cleanupSystem.ReachableBy Nested (.initial fun _ => ⟨none, 0, 0⟩) := .start ⟨_, rfl⟩
  have bottom : Pending (.initial fun _ => ⟨none, 0, 0⟩) [] := rfl
  have first := start.by_event (CleanupEvent.push 10 1 2) (nested_push bottom (by decide)) rfl
  have one : Pending (pthreadCleanupPushInner 10 1 2
      { CleanupState.initial fun _ => ⟨none, 0, 0⟩ with control := [.code [10]] }) [10] := ⟨rfl, rfl⟩
  have second := first.by_event (CleanupEvent.push 20 3 4) (nested_push one (by decide)) rfl
  obtain ⟨-, two, pending, -⟩ := cleanup_handlers_once second
  have same : two = [20, 10] := isList_unique pending ⟨rfl, rfl, rfl⟩
  have third := second.by_event (CleanupEvent.push 30 5 6) (nested_push pending (by rw [same]; decide)) rfl
  have popped := third.by_event (CleanupEvent.pop 30 false) ⟨[20, 10], [], rfl⟩ rfl
  obtain ⟨-, chain, -, -, -, pops, -⟩ := cleanup_handlers_once third
  obtain ⟨-, left, -, -, -, -, exits⟩ := cleanup_handlers_once popped
  have pop := pops 30 false ⟨[20, 10], [], rfl⟩
  have both := fun after run => And.intro (exits exitInHandler after run)
    (pop.never (.exit :: exitInHandler) after (.go ⟨[20, 10], [], rfl⟩ rfl run))
  refine ⟨_, _, _, chain, left, rfl, rfl, pop, rfl, rfl, rfl, both _ ?_⟩
  exact .go trivial rfl <| .go trivial rfl <| .go trivial rfl <| .go trivial rfl <|
    .go ⟨_, rfl⟩ rfl <| .go trivial rfl <| .stop _

end Aple.Pthread
