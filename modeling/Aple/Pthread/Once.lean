/-
**pthread_once.**

* `onceSystem` — any number of threads run `pthread_once` on one control variable, in any
  interleaving; the `init_routine` takes any number of steps.
* `OncePoint` — where a thread is in the program; `OnceStage` — how far the initialisation is.
* `init_started_once` — the routine is started at most once, in any run.
* **`once_ok_when_patient`** — if a call comes to its test-and-set only before the variable is set
  or after the routine has completed, no call returns before that.
* `returns_before_init` — a second caller returns while the first is inside the routine.
-/

import Aple.Lib.Threads
import Aple.Pthread.LockDiscipline

namespace Aple.Pthread

open Aple.Lib

variable {cfg : TsdConfig} {Thread : Type} [DecidableEq Thread]

/-! ### The threads -/

/-- Threads of the layer. -/
abbrev LayerThreads (cfg : TsdConfig) (Thread : Type) := Threads Thread (LayerState cfg) Routine Errno

/-- Every call is one of `pthread_once` with the same arguments. -/
def onceBody (cfg : TsdConfig) (control : ℕ) (routine : Routine) (_ : Unit) : LayerProg cfg Errno :=
  pthreadOnce (some control) (some routine)

/-- Every interleaving, from `PTHREAD_ONCE_INIT`. -/
def onceSystem (cfg : TsdConfig) (Thread : Type) [DecidableEq Thread] (control : ℕ) (routine : Routine) :
    System (LayerThreads cfg Thread) (ThreadEvent Thread Unit) :=
  threadSystem Thread (onceBody cfg control routine) fun shared => shared.once control = 0

/-- What happened, without the threads. -/
def seen (s : LayerThreads cfg Thread) : List (Happening Routine Errno) := s.history.map Prod.snd

/-- What `pthread_once` is for: one start, and no return without a completed initialisation. -/
structure OnceOk (routine : Routine) (s : LayerThreads cfg Thread) : Prop where
  once : (seen s).count (.started routine) ≤ 1
  complete : ∀ err, .returned err ∈ seen s →
    (seen s).count (.started routine) = 1 ∧ .completed routine ∈ seen s

/-- The condition: a thread that reads the control variable finds it clear, or the routine has
completed. -/
def Patient (control : ℕ) (routine : Routine) (s : LayerThreads cfg Thread) :
    ThreadEvent Thread Unit → Prop
  | .step thread => ∀ next, s.doing thread = .runs (.get next) →
      s.shared.once control = 0 ∨ .completed routine ∈ seen s
  | _ => True

/-! ### Where a thread is -/

/-- The points of `pthread_once`; `old` is the state that the thread read. -/
inductive OncePoint (cfg : TsdConfig)
  | outside | opening | reading
  | writing (old : LayerState cfg)
  | leaving (old : LayerState cfg)
  | starting | inside | finishing

section Points

variable (control : ℕ) (routine : Routine)

/-- `if (!old) init_routine ();` and the return. -/
def onceAfter (old : LayerState cfg) : LayerProg cfg Errno :=
  if old.once control = 0 then .callback routine <| .ret .ok else .ret .ok

/-- `*once_control = 1;` and what follows. -/
def onceSet (old : LayerState cfg) : LayerProg cfg Errno :=
  .set { old with once := Function.update old.once control 1 } <| .give <| onceAfter control routine old

/-- What a thread at a point has yet to do. -/
def OncePoint.doing : OncePoint cfg → Doing (LayerState cfg) Routine Errno
  | outside => .idle
  | opening => .runs (pthreadOnce (some control) (some routine))
  | reading => .runs (.get (onceSet control routine))
  | writing old => .runs (onceSet control routine old)
  | leaving old => .runs (.give (onceAfter control routine old))
  | starting => .runs (.callback routine (.ret .ok))
  | inside => .inside routine (.ret .ok)
  | finishing => .runs (.ret .ok)

/-- The thread may still be the one that finds the variable clear. -/
def OncePoint.Unclaimed : OncePoint cfg → Prop
  | outside | opening | reading => True
  | writing old => old.once control = 0
  | leaving _ | starting | inside | finishing => False

/-- The thread found the variable clear and has set it. -/
def OncePoint.Claims : OncePoint cfg → Prop
  | leaving old => old.once control = 0
  | starting => True
  | outside | opening | reading | writing _ | inside | finishing => False

/-- The thread does not run the routine, and will not in this call if it has read the variable. -/
def OncePoint.Lost : OncePoint cfg → Prop
  | writing old | leaving old => old.once control ≠ 0
  | starting | inside => False
  | outside | opening | reading | finishing => True

/-- The thread is going to return. -/
def OncePoint.Late : OncePoint cfg → Prop
  | writing old | leaving old => old.once control ≠ 0
  | finishing => True
  | outside | opening | reading | starting | inside => False

/-- How far the initialisation is: nobody has set the variable, a thread has, it is inside the
routine, it has left it. -/
inductive OnceStage (value : BitVec 32) (seen : List (Happening Routine Errno))
    (point : Thread → OncePoint cfg) : Prop
  | fresh (clear : value = 0) (all : ∀ thread, (point thread).Unclaimed control)
      (starts : seen.count (.started routine) = 0) (ends : .completed routine ∉ seen)
  | claimed (winner : Thread) (set : value ≠ 0) (wins : (point winner).Claims control)
      (others : ∀ thread, thread ≠ winner → (point thread).Lost control)
      (starts : seen.count (.started routine) = 0) (ends : .completed routine ∉ seen)
  | running (winner : Thread) (set : value ≠ 0) (wins : point winner = .inside)
      (others : ∀ thread, thread ≠ winner → (point thread).Lost control)
      (starts : seen.count (.started routine) = 1) (ends : .completed routine ∉ seen)
  | done (set : value ≠ 0) (others : ∀ thread, (point thread).Lost control)
      (starts : seen.count (.started routine) = 1) (ends : .completed routine ∈ seen)

/-- The invariant; with `patient`, who is going to return knows the routine completed. -/
structure OnceInv (patient : Prop) (s : LayerThreads cfg Thread) (point : Thread → OncePoint cfg) :
    Prop where
  places : ∀ thread, s.doing thread = (point thread).doing control routine
  stage : OnceStage control routine (s.shared.once control) (seen s) point
  late : patient → ∀ thread, (point thread).Late control → .completed routine ∈ seen s
  returned : patient → ∀ err, .returned err ∈ seen s → .completed routine ∈ seen s

end Points

/-! ### Steps of the invariant -/

section Steps

variable {control : ℕ} {routine : Routine} {value value' : BitVec 32}
  {happened happened' : List (Happening Routine Errno)} {point : Thread → OncePoint cfg}
  {s after : LayerThreads cfg Thread} {thread : Thread} {patient : Prop}

/-- A property of every point, after one thread moved. -/
theorem forall_update {holds : OncePoint cfg → Prop} {place : OncePoint cfg}
    (before : ∀ other, other ≠ thread → holds (point other)) (now : holds place) (other : Thread) :
    holds (Function.update point thread place other) := by
  by_cases same : other = thread
  · rw [same, Function.update_self]
    exact now
  · rw [Function.update_of_ne same]
    exact before other same

/-- The same of all points but one. -/
theorem others_update {holds : OncePoint cfg → Prop} {place : OncePoint cfg} {winner : Thread}
    (before : ∀ other, other ≠ winner → holds (point other)) (now : holds place) (other : Thread)
    (differs : other ≠ winner) : holds (Function.update point thread place other) := by
  by_cases same : other = thread
  · rw [same, Function.update_self]
    exact now
  · rw [Function.update_of_ne same]
    exact before other differs

/-- A thread that does not run the routine, and is not about to, moves on. -/
theorem OnceStage.quiet (stage : OnceStage control routine value happened point) (thread : Thread)
    (place : OncePoint cfg) (same : value' = 0 ↔ value = 0)
    (starts : happened'.count (.started routine) = happened.count (.started routine))
    (ends : .completed routine ∈ happened' ↔ .completed routine ∈ happened) {before : OncePoint cfg}
    (here : point thread = before) (unclaiming : ¬ before.Claims control)
    (notInside : before ≠ .inside)
    (clear : value = 0 → place.Unclaimed control) (set : value ≠ 0 → place.Lost control) :
    OnceStage control routine value' happened' (Function.update point thread place) := by
  cases stage with
  | fresh isClear all none notYet =>
    refine .fresh (same.mpr isClear) ?_ (starts.trans none) (notYet ∘ ends.mp)
    exact forall_update (fun other _ => all other) (clear isClear)
  | claimed winner isSet wins others none notYet =>
    have differs : winner ≠ thread := by
      rintro rfl
      exact unclaiming (here ▸ wins)
    refine .claimed winner (isSet ∘ same.mp) ?_ ?_ (starts.trans none) (notYet ∘ ends.mp)
    · rw [Function.update_of_ne differs]
      exact wins
    · exact others_update others (set isSet)
  | running winner isSet wins others one notYet =>
    have differs : winner ≠ thread := by
      rintro rfl
      exact notInside (here.symm.trans wins)
    refine .running winner (isSet ∘ same.mp) ?_ ?_ (starts.trans one) (notYet ∘ ends.mp)
    · rw [Function.update_of_ne differs]
      exact wins
    · exact others_update others (set isSet)
  | done isSet others one ended =>
    refine .done (isSet ∘ same.mp) ?_ (starts.trans one) (ends.mpr ended)
    exact forall_update (fun other _ => others other) (set isSet)

omit [DecidableEq Thread] in
/-- Only one thread finds the variable clear. -/
theorem OnceStage.claimed_by (stage : OnceStage control routine value happened point)
    {before : OncePoint cfg} (here : point thread = before) (claims : before.Claims control) :
    value ≠ 0 ∧ (∀ other, other ≠ thread → (point other).Lost control) ∧
      happened.count (.started routine) = 0 ∧ .completed routine ∉ happened := by
  have notLost : ¬ (point thread).Lost control := by
    rw [here]
    cases before with
    | leaving old => exact fun lost => lost claims
    | starting => exact id
    | outside | opening | reading | writing _ | inside | finishing => exact claims.elim
  cases stage with
  | fresh _ all =>
    have unclaimed := all thread
    rw [here] at unclaimed
    cases before with
    | leaving _ | starting => exact unclaimed.elim
    | outside | opening | reading | writing _ | inside | finishing => exact claims.elim
  | claimed winner set _ others none notYet =>
    obtain rfl : thread = winner := by
      by_contra differs
      exact notLost (others thread differs)
    exact ⟨set, others, none, notYet⟩
  | running winner _ wins others =>
    have differs : thread ≠ winner := by
      rintro rfl
      rw [← here, wins] at claims
      exact claims
    exact absurd (others thread differs) notLost
  | done _ others => exact absurd (others thread) notLost

omit [DecidableEq Thread] in
/-- Only that thread runs the routine. -/
theorem OnceStage.running_by (stage : OnceStage control routine value happened point)
    (here : point thread = .inside) :
    value ≠ 0 ∧ (∀ other, other ≠ thread → (point other).Lost control) ∧
      happened.count (.started routine) = 1 ∧ .completed routine ∉ happened := by
  have notLost : ¬ (point thread).Lost control := by
    rw [here]
    exact id
  cases stage with
  | fresh _ all =>
    have unclaimed := all thread
    rw [here] at unclaimed
    exact unclaimed.elim
  | claimed winner _ wins others =>
    have differs : thread ≠ winner := by
      rintro rfl
      rw [here] at wins
      exact wins
    exact absurd (others thread differs) notLost
  | running winner set _ others one notYet =>
    obtain rfl : thread = winner := by
      by_contra differs
      exact notLost (others thread differs)
    exact ⟨set, others, one, notYet⟩
  | done _ others => exact absurd (others thread) notLost

omit [DecidableEq Thread] in
/-- A thread that is past a clear variable knows that it is set. -/
theorem OnceStage.set_by (stage : OnceStage control routine value happened point)
    {before : OncePoint cfg} (here : point thread = before) (passed : ¬ before.Unclaimed control) :
    value ≠ 0 := by
  cases stage with
  | fresh _ all => exact absurd (here ▸ all thread) passed
  | claimed _ set | running _ set | done set => exact set

/-- The thread that read the variable clear sets it; nobody else is between the read and the
write. -/
theorem OnceStage.claim (stage : OnceStage control routine value happened point)
    {old : LayerState cfg} (here : point thread = .writing old) (clear : old.once control = 0)
    (alone : ∀ other old', other ≠ thread → point other ≠ .writing old') (isSet : value' ≠ 0) :
    OnceStage control routine value' happened (Function.update point thread (.leaving old)) := by
  have notLost : ¬ (point thread).Lost control := by
    rw [here]
    exact fun lost => lost clear
  cases stage with
  | fresh _ all none notYet =>
    refine .claimed thread isSet ?_ (fun other differs => ?_) none notYet
    · rw [Function.update_self]
      exact clear
    · rw [Function.update_of_ne differs]
      have unclaimed := all other
      cases there : point other with
      | writing old' => exact absurd there (alone other old' differs)
      | outside | opening | reading => trivial
      | leaving _ | starting | inside | finishing =>
        rw [there] at unclaimed
        exact unclaimed.elim
  | claimed winner _ wins others =>
    have differs : thread ≠ winner := by
      rintro rfl
      rw [here] at wins
      exact wins
    exact absurd (others thread differs) notLost
  | running winner _ wins others =>
    have differs : thread ≠ winner := by
      rintro rfl
      rw [here] at wins
      cases wins
    exact absurd (others thread differs) notLost
  | done _ others => exact absurd (others thread) notLost

/-- A thread moves on, and the rest of the invariant is looked at. -/
theorem OnceInv.moved (inv : OnceInv control routine patient s point) (thread : Thread)
    (place : OncePoint cfg)
    (doing : after.doing = Function.update s.doing thread (place.doing control routine))
    (stage : OnceStage control routine (after.shared.once control) (seen after)
      (Function.update point thread place))
    (ends : .completed routine ∈ seen s → .completed routine ∈ seen after)
    (late : patient → place.Late control → .completed routine ∈ seen after)
    (returned : patient → ∀ err, .returned err ∈ seen after → .completed routine ∈ seen after) :
    OnceInv control routine patient after (Function.update point thread place) where
  places other := by
    rw [doing]
    by_cases same : other = thread
    · rw [same, Function.update_self, Function.update_self]
    · rw [Function.update_of_ne same, Function.update_of_ne same]
      exact inv.places other
  stage := stage
  late careful other isLate := by
    by_cases same : other = thread
    · rw [same, Function.update_self] at isLate
      exact late careful isLate
    · rw [Function.update_of_ne same] at isLate
      exact ends (inv.late careful other isLate)
  returned := returned

omit [DecidableEq Thread] in
/-- Between its read and its write a thread holds the mutex. -/
theorem holder_of_writing {old : LayerState cfg} {holder : Option Thread}
    (place : s.doing thread = (OncePoint.writing old).doing control routine)
    (locked : (s.doing thread).Locked thread holder) : holder = some thread := by
  rw [place] at locked
  obtain ⟨held, ok, holds⟩ := locked
  exact holds.mp ok.1

/-! ### Instruction by instruction -/

/-- The mutex is taken. -/
theorem OnceInv.opens (inv : OnceInv control routine patient s point) (here : point thread = .opening) :
    OnceInv control routine patient
      ({ s with holder := some thread }.goto thread (.runs (.get (onceSet control routine))))
      (Function.update point thread .reading) := by
  refine inv.moved thread .reading rfl ?_ id (fun _ late => late.elim) inv.returned
  exact inv.stage.quiet thread .reading Iff.rfl rfl Iff.rfl here id (by simp) (fun _ => trivial)
    fun _ => trivial

/-- The variable is read; who finds it set may have to know that the routine completed. -/
theorem OnceInv.reads (inv : OnceInv control routine patient s point) (here : point thread = .reading)
    (careful : patient → s.shared.once control = 0 ∨ .completed routine ∈ seen s) :
    OnceInv control routine patient (s.goto thread (.runs (onceSet control routine s.shared)))
      (Function.update point thread (.writing s.shared)) := by
  refine inv.moved thread (.writing s.shared) rfl ?_ id (fun patience late => ?_) inv.returned
  · exact inv.stage.quiet thread (.writing s.shared) Iff.rfl rfl Iff.rfl here id (by simp) id id
  · rcases careful patience with clear | completed
    · exact absurd clear late
    · exact completed

/-- The variable is set, by the thread that holds the mutex. -/
theorem OnceInv.writes (inv : OnceInv control routine patient s point)
    (locked : ∀ thread, (s.doing thread).Locked thread s.holder) {old : LayerState cfg}
    (here : point thread = .writing old) :
    OnceInv control routine patient
      ({ s with shared := { old with once := Function.update old.once control 1 } }.goto thread
        (.runs (.give (onceAfter control routine old))))
      (Function.update point thread (.leaving old)) := by
  have mine := holder_of_writing (here ▸ inv.places thread) (locked thread)
  have isSet : Function.update old.once control (1 : BitVec 32) control ≠ 0 := by
    rw [Function.update_self]
    decide
  by_cases clear : old.once control = 0
  · refine inv.moved thread (.leaving old) rfl ?_ id (fun _ late => absurd clear late) inv.returned
    refine inv.stage.claim here clear (fun other old' differs there => differs ?_) isSet
    have theirs := holder_of_writing (there ▸ inv.places other) (locked other)
    exact Option.some.inj (theirs.symm.trans mine)
  · refine inv.moved thread (.leaving old) rfl ?_ id (fun patience _ => ?_) inv.returned
    · have before : s.shared.once control ≠ 0 := inv.stage.set_by here clear
      exact inv.stage.quiet thread (.leaving old) (iff_of_false isSet before) rfl Iff.rfl here id
        (by simp) (fun isClear => absurd isClear before) fun _ => clear
    · refine inv.late patience thread ?_
      rw [here]
      exact clear

/-- The mutex is given back; the thread that found the variable clear is about to start the
routine. -/
theorem OnceInv.gives (inv : OnceInv control routine patient s point) {old : LayerState cfg}
    (here : point thread = .leaving old) :
    ∃ place, OnceInv control routine patient
      ({ s with holder := none }.goto thread (.runs (onceAfter control routine old)))
      (Function.update point thread place) := by
  by_cases clear : old.once control = 0
  · refine ⟨.starting, inv.moved thread .starting ?_ ?_ id (fun _ late => late.elim) inv.returned⟩
    · show Function.update s.doing thread (.runs (onceAfter control routine old)) = _
      rw [onceAfter, if_pos clear]
      rfl
    · obtain ⟨set, others, none, notYet⟩ := inv.stage.claimed_by here clear
      refine .claimed thread set ?_ (fun other differs => ?_) none notYet
      · rw [Function.update_self]
        trivial
      · rw [Function.update_of_ne differs]
        exact others other differs
  · refine ⟨.finishing, inv.moved thread .finishing ?_ ?_ id (fun patience _ => ?_) inv.returned⟩
    · show Function.update s.doing thread (.runs (onceAfter control routine old)) = _
      rw [onceAfter, if_neg clear]
      rfl
    · have set : s.shared.once control ≠ 0 := inv.stage.set_by here id
      exact inv.stage.quiet thread .finishing Iff.rfl rfl Iff.rfl here clear (by simp)
        (fun isClear => absurd isClear set) fun _ => trivial
    · refine inv.late patience thread ?_
      rw [here]
      exact clear

/-- The routine starts. -/
theorem OnceInv.starts (inv : OnceInv control routine patient s point) (here : point thread = .starting) :
    OnceInv control routine patient
      ((s.goto thread (.inside routine (.ret .ok))).note thread (.started routine))
      (Function.update point thread .inside) := by
  obtain ⟨set, others, none, notYet⟩ := inv.stage.claimed_by here trivial
  refine inv.moved thread .inside rfl ?_ (List.mem_cons_of_mem _) (fun _ late => late.elim) ?_
  · refine .running thread set (Function.update_self ..) (fun other differs => ?_) ?_ ?_
    · rw [Function.update_of_ne differs]
      exact others other differs
    · show (Happening.started routine :: seen s).count (.started routine) = 1
      rw [List.count_cons_self, none]
    · intro ended
      rcases List.mem_cons.mp ended with new | old
      · cases new
      · exact notYet old
  · intro patience err member
    rcases List.mem_cons.mp member with new | old
    · cases new
    · exact List.mem_cons_of_mem _ (inv.returned patience err old)

/-- The routine completes. -/
theorem OnceInv.completes (inv : OnceInv control routine patient s point) (here : point thread = .inside) :
    OnceInv control routine patient
      ((s.goto thread (.runs (.ret .ok))).note thread (.completed routine))
      (Function.update point thread .finishing) := by
  obtain ⟨set, others, one, notYet⟩ := inv.stage.running_by here
  have ended : Happening.completed routine ∈
      seen ((s.goto thread (.runs (.ret .ok))).note thread (.completed routine)) :=
    List.mem_cons_self
  refine inv.moved thread .finishing rfl ?_ (fun _ => ended) (fun _ _ => ended) fun _ _ _ => ended
  refine .done set (forall_update others trivial) ?_ ended
  show (Happening.completed routine :: seen s).count (.started routine) = 1
  rw [List.count_cons_of_ne (by simp), one]

/-- The call returns. -/
theorem OnceInv.returns (inv : OnceInv control routine patient s point)
    (here : point thread = .finishing) :
    OnceInv control routine patient ((s.goto thread .idle).note thread (.returned .ok))
      (Function.update point thread .outside) := by
  have late : (point thread).Late control := by
    rw [here]
    trivial
  have ended : ∀ patience : patient, Happening.completed routine ∈
      Happening.returned Errno.ok :: seen s := fun patience =>
    List.mem_cons_of_mem _ (inv.late patience thread late)
  refine inv.moved thread .outside rfl ?_ (List.mem_cons_of_mem _) (fun _ late => late.elim)
    fun patience _ _ => ended patience
  refine inv.stage.quiet thread .outside Iff.rfl ?_ ?_ here id (by simp)
    (fun _ => trivial) fun _ => trivial
  · show (Happening.returned Errno.ok :: seen s).count (.started routine) = _
    rw [List.count_cons_of_ne (by simp)]
  · refine ⟨fun member => ?_, List.mem_cons_of_mem _⟩
    rcases List.mem_cons.mp member with new | old
    · cases new
    · exact old

/-- **The instructions of pthread_once.** -/
theorem once_instruction (inv : OnceInv control routine patient s point)
    (locked : ∀ thread, (s.doing thread).Locked thread s.holder)
    (careful : patient → Patient control routine s (.step thread))
    (runs : threadsExec (onceBody cfg control routine) s (.step thread) = some after) :
    ∃ point, OnceInv control routine patient after point := by
  have place := inv.places thread
  simp only [threadsExec] at runs
  rw [place] at runs
  cases here : point thread with
  | outside =>
    rw [here] at runs
    cases runs
  | opening =>
    rw [here] at runs
    simp only [OncePoint.doing, pthreadOnce, Threads.instruction] at runs
    split at runs
    · rw [← Option.some.inj runs]
      exact ⟨_, inv.opens here⟩
    · cases runs
  | reading =>
    rw [here] at place runs
    rw [← Option.some.inj runs]
    exact ⟨_, inv.reads here fun patience => careful patience _ place⟩
  | writing old =>
    rw [here] at runs
    rw [← Option.some.inj runs]
    exact ⟨_, inv.writes locked here⟩
  | leaving old =>
    rw [here] at runs
    rw [← Option.some.inj runs]
    obtain ⟨place, left⟩ := inv.gives here
    exact ⟨_, left⟩
  | starting =>
    rw [here] at runs
    rw [← Option.some.inj runs]
    exact ⟨_, inv.starts here⟩
  | inside =>
    rw [here] at runs
    rw [← Option.some.inj runs]
    exact ⟨_, inv.completes here⟩
  | finishing =>
    rw [here] at runs
    rw [← Option.some.inj runs]
    exact ⟨_, inv.returns here⟩

/-- **Each step** keeps the invariant, for some points of the threads. -/
theorem once_step {event : ThreadEvent Thread Unit} (inv : OnceInv control routine patient s point)
    (locked : ∀ thread, (s.doing thread).Locked thread s.holder)
    (careful : patient → Patient control routine s event)
    (runs : threadsExec (onceBody cfg control routine) s event = some after) :
    ∃ point, OnceInv control routine patient after point := by
  cases event with
  | call thread call =>
    have place := inv.places thread
    simp only [threadsExec] at runs
    split at runs
    · rename_i idle
      rw [← Option.some.inj runs]
      have here : point thread = .outside := by
        rw [idle] at place
        cases there : point thread <;> rw [there] at place <;> first | rfl | cases place
      refine ⟨_, inv.moved thread .opening rfl ?_ id (fun _ late => late.elim) inv.returned⟩
      exact inv.stage.quiet thread .opening Iff.rfl rfl Iff.rfl here id (by simp) (fun _ => trivial)
        fun _ => trivial
    · cases runs
  | step thread => exact once_instruction inv locked careful runs
  | work thread =>
    simp only [threadsExec] at runs
    split at runs
    · rw [← Option.some.inj runs]
      exact ⟨point, inv⟩
    · cases runs

end Steps

/-! ### Runs -/

section Runs

variable {control : ℕ} {routine : Routine} {s : LayerThreads cfg Thread}
  {allowed : LayerThreads cfg Thread → ThreadEvent Thread Unit → Prop}

/-- **The invariant of every run**, with its last part where the condition was met. -/
theorem onceInv_of_reachable (patient : Prop)
    (careful : patient → ∀ s event, allowed s event → Patient control routine s event)
    (reached : (onceSystem cfg Thread control routine).ReachableBy allowed s) :
    ∃ point, OnceInv control routine patient s point := by
  refine reached.invariant (fun s => ∃ point, OnceInv control routine patient s point) ?_ ?_
  · rintro _ ⟨shared, clear, rfl⟩
    refine ⟨fun _ => .outside, fun _ => rfl, .fresh clear (fun _ => trivial) rfl nofun, ?_, ?_⟩
    · exact fun _ _ late => late.elim
    · exact fun _ _ member => nomatch member
  · rintro s event after before ⟨point, inv⟩ meets runs
    have locked := locked_of_reachable (fun _ => wp_once (some control) (some routine)) before
    exact once_step inv locked (fun patience => careful patience s event meets) runs

/-- **The routine is started at most once**, in any run. -/
theorem init_started_once (reached : (onceSystem cfg Thread control routine).Reachable s) :
    (seen s).count (.started routine) ≤ 1 := by
  obtain ⟨point, inv⟩ := onceInv_of_reachable False False.elim reached
  cases inv.stage with
  | fresh _ _ starts | claimed _ _ _ _ starts => exact starts.le.trans (Nat.zero_le 1)
  | running _ _ _ _ starts | done _ _ starts => exact starts.le

/-- **pthread_once** is right in every run where no call comes to its test-and-set while the
initialisation is under way. -/
theorem once_ok_when_patient
    (reached : (onceSystem cfg Thread control routine).ReachableBy (Patient control routine) s) :
    OnceOk routine s := by
  refine ⟨init_started_once (reached.mono fun _ _ _ => trivial), fun err member => ?_⟩
  obtain ⟨point, inv⟩ := onceInv_of_reachable True (fun _ _ _ meets => meets) reached
  have completed := inv.returned trivial err member
  refine ⟨?_, completed⟩
  cases inv.stage with
  | fresh _ _ _ notYet | claimed _ _ _ _ _ notYet | running _ _ _ _ _ notYet =>
    exact absurd completed notYet
  | done _ _ starts => exact starts

end Runs

/-- Two threads of a layer in which nothing has happened. -/
def twoThreads : LayerThreads smallConfig Bool := Threads.start LayerState.blank

theorem twoThreads_init : (onceSystem smallConfig Bool 0 5).init twoThreads :=
  ⟨LayerState.blank, rfl, rfl⟩

/-- One thread calls and returns. -/
theorem once_ok_when_patient_alone : ∃ s : LayerThreads smallConfig Bool,
    runEvents (threadsExec (onceBody smallConfig 0 5)) twoThreads
      [.call true (), .step true, .step true, .step true, .step true, .step true, .work true,
        .step true, .step true] = some s ∧
      .returned .ok ∈ seen s ∧ OnceOk 5 s := by
  have start : (onceSystem smallConfig Bool 0 5).ReachableBy (Patient 0 5) twoThreads :=
    .start twoThreads_init
  have called := start.by_event (ThreadEvent.call true ()) trivial rfl
  have taken := called.by_event (ThreadEvent.step true) (fun _ _ => .inl rfl) rfl
  have read := taken.by_event (ThreadEvent.step true) (fun _ _ => .inl rfl) rfl
  have written := read.by_event (ThreadEvent.step true) (fun _ _ => .inl rfl) rfl
  have given := written.by_event (ThreadEvent.step true) (fun _ reads => nomatch reads) rfl
  have started := given.by_event (ThreadEvent.step true) (fun _ reads => nomatch reads) rfl
  have worked := started.by_event (ThreadEvent.work true) trivial rfl
  have ended := worked.by_event (ThreadEvent.step true) (fun _ reads => nomatch reads) rfl
  have returned := ended.by_event (ThreadEvent.step true) (fun _ _ => .inr (.head _)) rfl
  exact ⟨_, rfl, .head _, once_ok_when_patient returned⟩

/-- **The second caller** finds the variable set and returns, while the first has not got further
than the start of the routine. -/
theorem returns_before_init : ∃ s : LayerThreads smallConfig Bool,
    (onceSystem smallConfig Bool 0 5).Reachable s ∧
      s.history = [(false, .returned .ok), (true, .started 5)] ∧ ¬ OnceOk 5 s := by
  have start : (onceSystem smallConfig Bool 0 5).Reachable twoThreads := .start twoThreads_init
  have runs : runEvents (threadsExec (onceBody smallConfig 0 5)) twoThreads
      [.call true (), .step true, .step true, .step true, .step true, .step true, .work true,
        .call false (), .step false, .step false, .step false, .step false, .step false] = some _ := rfl
  refine ⟨_, start.run (fun _ _ _ ran => ⟨trivial, ran⟩) runs, rfl, fun ok => ?_⟩
  have completed := (ok.complete .ok (.head _)).2
  revert completed
  decide

end Aple.Pthread
