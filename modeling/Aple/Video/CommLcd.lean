/-
**The dirty area of the CommonLCD driver.**

* `updateRects`, `syncUpdateSync`, `syncUpdateAsync`, `taskFlush` — the functions of the driver on
  the dirty rectangle, the flag and the semaphore, with what they pass to `update`.
* `lcdSystem` — every order of the sections under `update_lock` and of the steps of
  `task_do_update`.
* `LcdInv` — what holds of the dirty area and of the flushes.
* **`no_dirty_area_lost`** — it holds in every run: the dirty area and each flush cover the
  rectangles passed, and an update that was promised is made or under way.

The operations on rectangles are parameters. The asynchronous functions hold the lock from the first
line to the last, so each of them is one step.
-/

import Aple.Lib.Reach
import Aple.Lib.Rect

namespace Aple.Video

open Aple.Lib

/-! ### The driver -/

/-- `GAL_Rect`. -/
structure GalRect where
  x : ℤ
  y : ℤ
  w : ℕ
  h : ℕ
deriving DecidableEq, Repr

/-- `SetRect` as it is called for a rectangle of the list. -/
def GalRect.rect (r : GalRect) : Rect := ⟨r.x, r.y, r.x + r.w, r.y + r.h⟩

/-- What the functions use of `GAL_PrivateVideoData`; `semUpdate` counts the tokens. -/
structure Hidden where
  rcDirty : Rect
  dirty : Bool
  semUpdate : ℕ
deriving DecidableEq, Repr

section Driver

variable (ops : RectOps) (screen : Rect)

/-- The loop over the rectangles. -/
def boundOf (bound : Rect) : List GalRect → Rect
  | [] => bound
  | r :: rest => boundOf (if ops.isRectEmpty bound then r.rect else ops.getBoundRect bound r.rect) rest

/-- The common text of `COMMLCD_UpdateRects_Sync` and `COMMLCD_UpdateRects_Async`; `screen` is
`GetScreenRect ()`. -/
def updateRects (rects : List GalRect) (hidden : Hidden) : Hidden :=
  let bound := boundOf ops hidden.rcDirty rects
  if ops.isRectEmpty bound then hidden
  else
    let (hits, bound) := ops.intersectRect bound screen
    if hits then { hidden with rcDirty := bound, dirty := true } else hidden

/-- `COMMLCD_UpdateRects_Sync`. -/
def updateRectsSync : List GalRect → Hidden → Hidden := updateRects ops screen

/-- `COMMLCD_UpdateRects_Async`, under the lock. -/
def updateRectsAsync : List GalRect → Hidden → Hidden := updateRects ops screen

/-- `SetRect (&rc_dirty, 0, 0, 0, 0); dirty = FALSE;` -/
def Hidden.clear (hidden : Hidden) : Hidden := { hidden with rcDirty := ⟨0, 0, 0, 0⟩, dirty := false }

/-- `COMMLCD_SyncUpdate_Sync`: the result, and the rectangle passed to `update`. -/
def syncUpdateSync (hidden : Hidden) : Bool × Option Rect × Hidden :=
  if ops.isRectEmpty hidden.rcDirty then (false, none, hidden)
  else (true, some hidden.rcDirty, hidden.clear)

end Driver

/-- `COMMLCD_SyncUpdate_Async`. -/
def syncUpdateAsync (hidden : Hidden) : Bool × Hidden :=
  if hidden.dirty then (true, { hidden with semUpdate := hidden.semUpdate + 1 }) else (false, hidden)

/-- The section of `task_do_update` under the lock: the rectangle passed to `update`. -/
def taskFlush (hidden : Hidden) : Option Rect × Hidden :=
  if hidden.dirty then (some hidden.rcDirty, hidden.clear) else (none, hidden)

/-! ### Runs -/

/-- The driver, whether the task is between its `sem_wait` and the end of its section, the
rectangles passed since the last flush, each flush with the rectangles passed before it, and the
area that was dirty at each `TRUE` of `COMMLCD_SyncUpdate_Async`, with the number of flushes so
far. -/
structure LcdState where
  hidden : Hidden
  woken : Bool
  passed : List GalRect
  flushes : List (Rect × List GalRect)
  promises : List (Rect × ℕ)
deriving DecidableEq, Repr

/-- Write down a flush. -/
def LcdState.flush (s : LcdState) (update : Option Rect) (hidden : Hidden) : LcdState :=
  match update with
  | none => { s with hidden := hidden }
  | some r => { s with hidden := hidden, passed := [], flushes := s.flushes ++ [(r, s.passed)] }

/-- A call of a function, or a step of the task. -/
inductive LcdEvent
  | updateRectsAsync (rects : List GalRect)
  | syncUpdateAsync
  | semWait
  | taskFlush
  | updateRectsSync (rects : List GalRect)
  | syncUpdateSync

variable {ops : RectOps} {screen : Rect}

/-- Run one event. -/
def lcdExec (ops : RectOps) (screen : Rect) (s : LcdState) : LcdEvent → Option LcdState
  | .updateRectsAsync rects =>
    some { s with hidden := updateRectsAsync ops screen rects s.hidden, passed := s.passed ++ rects }
  | .syncUpdateAsync =>
    let (result, hidden) := syncUpdateAsync s.hidden
    some { s with
      hidden := hidden
      promises := if result then s.promises ++ [(s.hidden.rcDirty, s.flushes.length)] else s.promises }
  | .semWait =>
    if s.woken = false ∧ 0 < s.hidden.semUpdate then
      some { s with hidden := { s.hidden with semUpdate := s.hidden.semUpdate - 1 }, woken := true }
    else none
  | .taskFlush =>
    if s.woken then
      let (update, hidden) := taskFlush s.hidden
      some { s.flush update hidden with woken := false }
    else none
  | .updateRectsSync rects =>
    some { s with hidden := updateRectsSync ops screen rects s.hidden, passed := s.passed ++ rects }
  | .syncUpdateSync =>
    let (_, update, hidden) := syncUpdateSync ops s.hidden
    some (s.flush update hidden)

/-- The private data is cleared when the device is made. -/
def LcdState.initial : LcdState := ⟨⟨⟨0, 0, 0, 0⟩, false, 0⟩, false, [], [], []⟩

/-- Every order of events. -/
def lcdSystem (ops : RectOps) (screen : Rect) : System LcdState LcdEvent where
  init s := s = LcdState.initial
  step s event after := lcdExec ops screen s event = some after

/-! ### What should hold -/

/-- The screen pixels of some rectangles lie in an area. -/
def Covers (screen : Rect) (rects : List GalRect) (area : Rect) : Prop :=
  ∀ r ∈ rects, r.rect.pixels ∩ screen.pixels ⊆ area.pixels

/-- The dirty area was flushed by now. -/
def Flushed (s : LcdState) (promise : Rect × ℕ) : Prop :=
  ∃ flush ∈ s.flushes.drop promise.2, promise.1.pixels ⊆ flush.1.pixels

/-- A token is left, or the task has taken one and not flushed yet. -/
def UnderWay (s : LcdState) : Prop := 0 < s.hidden.semUpdate ∨ s.woken = true

/-- The promise of a `TRUE`: flushed, or still within the dirty area and under way. -/
def Kept (s : LcdState) (promise : Rect × ℕ) : Prop :=
  Flushed s promise ∨ promise.2 ≤ s.flushes.length ∧ promise.1.pixels.Nonempty ∧
    promise.1.pixels ⊆ s.hidden.rcDirty.pixels ∧ UnderWay s

/-- The dirty area with its flag. -/
structure HiddenOk (screen : Rect) (hidden : Hidden) : Prop where
  valid : hidden.rcDirty.Valid
  dirty_iff : hidden.dirty = true ↔ hidden.rcDirty.pixels.Nonempty
  inside : hidden.rcDirty.pixels ⊆ screen.pixels

/-- The dirty area, the rectangles passed, the flushes and the promises. -/
structure LcdInv (screen : Rect) (s : LcdState) : Prop where
  hidden : HiddenOk screen s.hidden
  passed : Covers screen s.passed s.hidden.rcDirty
  flushes : ∀ flush ∈ s.flushes, Covers screen flush.2 flush.1
  promises : ∀ promise ∈ s.promises, Kept s promise

/-! ### The functions -/

variable {s after : LcdState} {hidden : Hidden}

theorem GalRect.rect_valid (r : GalRect) : r.rect.Valid :=
  ⟨Int.le_add_of_nonneg_right (Int.natCast_nonneg _), Int.le_add_of_nonneg_right (Int.natCast_nonneg _)⟩

/-- **The loop** gives a rectangle around the one it starts with and the ones of the list. -/
theorem boundOf_spec (laws : RectLaws ops) (rects : List GalRect) {bound : Rect} (valid : bound.Valid) :
    (boundOf ops bound rects).Valid ∧ bound.pixels ⊆ (boundOf ops bound rects).pixels ∧
      ∀ r ∈ rects, r.rect.pixels ⊆ (boundOf ops bound rects).pixels := by
  induction rects generalizing bound with
  | nil => exact ⟨valid, subset_rfl, by simp⟩
  | cons r rest ih =>
    rw [boundOf]
    have step : ∀ next : Rect, next.Valid → bound.pixels ⊆ next.pixels → r.rect.pixels ⊆ next.pixels →
        (boundOf ops next rest).Valid ∧ bound.pixels ⊆ (boundOf ops next rest).pixels ∧
          ∀ other ∈ r :: rest, other.rect.pixels ⊆ (boundOf ops next rest).pixels := by
      intro next nextValid old new
      obtain ⟨valid', grows, covers⟩ := ih nextValid
      refine ⟨valid', old.trans grows, fun other member => ?_⟩
      rcases List.mem_cons.mp member with rfl | later
      · exact new.trans grows
      · exact covers other later
    by_cases empty : ops.isRectEmpty bound = true
    · rw [if_pos empty]
      refine step r.rect r.rect_valid ?_ subset_rfl
      rw [Set.not_nonempty_iff_eq_empty.mp ((laws.empty_iff valid).mp empty)]
      exact Set.empty_subset _
    · rw [if_neg empty]
      exact step _ (laws.bound_valid valid r.rect_valid) (laws.bound_left valid r.rect_valid)
        (laws.bound_right valid r.rect_valid)

/-- `COMMLCD_UpdateRects` changes nothing when the bound has no pixel of the screen; otherwise these
pixels become the dirty area. -/
theorem updateRects_cases (laws : RectLaws ops) (screenValid : screen.Valid) (rects : List GalRect)
    (valid : (boundOf ops hidden.rcDirty rects).Valid) :
    (¬ ((boundOf ops hidden.rcDirty rects).pixels ∩ screen.pixels).Nonempty ∧
        updateRects ops screen rects hidden = hidden) ∨
      ∃ area : Rect, area.Valid ∧ area.pixels.Nonempty ∧
        area.pixels = (boundOf ops hidden.rcDirty rects).pixels ∩ screen.pixels ∧
        updateRects ops screen rects hidden = { hidden with rcDirty := area, dirty := true } := by
  unfold updateRects
  dsimp only
  by_cases empty : ops.isRectEmpty (boundOf ops hidden.rcDirty rects) = true
  · rw [if_pos empty]
    exact .inl ⟨fun common => (laws.empty_iff valid).mp empty common.left, rfl⟩
  · rw [if_neg empty]
    have hits := laws.intersect_hits valid screenValid
    split
    · rename_i hit
      have pixels := laws.intersect_pixels valid screenValid hit
      refine .inr ⟨_, laws.intersect_valid valid screenValid hit, ?_, pixels, rfl⟩
      rw [pixels]
      exact hits.mp hit
    · rename_i miss
      exact .inl ⟨fun common => miss (hits.mpr common), rfl⟩

/-- **`COMMLCD_UpdateRects`** keeps the dirty area and adds the screen pixels of the rectangles. -/
theorem updateRects_spec (laws : RectLaws ops) (screenValid : screen.Valid)
    (ok : HiddenOk screen hidden) (rects : List GalRect) :
    HiddenOk screen (updateRects ops screen rects hidden) ∧
      hidden.rcDirty.pixels ⊆ (updateRects ops screen rects hidden).rcDirty.pixels ∧
      Covers screen rects (updateRects ops screen rects hidden).rcDirty ∧
      (updateRects ops screen rects hidden).semUpdate = hidden.semUpdate := by
  obtain ⟨valid, grows, covers⟩ := boundOf_spec laws rects ok.valid
  rcases updateRects_cases laws screenValid rects valid with
    ⟨apart, same⟩ | ⟨area, areaValid, some_pixel, pixels, same⟩
  · rw [same]
    refine ⟨ok, subset_rfl, fun r member p both => ?_, rfl⟩
    exact absurd ⟨p, covers r member both.1, both.2⟩ apart
  · rw [same]
    refine ⟨⟨areaValid, iff_of_true rfl some_pixel, ?_⟩, ?_, fun r member p both => ?_, rfl⟩
    · rw [pixels]
      exact Set.inter_subset_right
    · rw [pixels]
      exact Set.subset_inter grows ok.inside
    · rw [pixels]
      exact ⟨covers r member both.1, both.2⟩

theorem clear_ok (screen : Rect) (hidden : Hidden) : HiddenOk screen hidden.clear := by
  have none_enclosed : ¬ (Rect.pixels ⟨0, 0, 0, 0⟩).Nonempty := by
    rw [Rect.pixels_nonempty_iff]
    exact fun both => lt_irrefl _ both.1
  refine ⟨⟨le_rfl, le_rfl⟩, iff_of_false Bool.false_ne_true none_enclosed, ?_⟩
  exact fun p inside => absurd ⟨p, inside⟩ none_enclosed

/-! ### One event -/

/-- A flush of the whole dirty area, or none when nothing is dirty. -/
theorem LcdInv.flush (inv : LcdInv screen s) {update : Option Rect} {hidden : Hidden} {woken : Bool}
    (flushes : (update = some s.hidden.rcDirty ∧ hidden = s.hidden.clear) ∨
      (¬ s.hidden.rcDirty.pixels.Nonempty ∧ update = none ∧ hidden = s.hidden)) :
    LcdInv screen { s.flush update hidden with woken := woken } := by
  rcases flushes with ⟨rfl, rfl⟩ | ⟨clean, rfl, rfl⟩
  · refine ⟨clear_ok screen s.hidden, by simp [Covers, LcdState.flush], ?_, ?_⟩
    · intro flush member
      rcases List.mem_append.mp member with old | new
      · exact inv.flushes flush old
      · rw [List.mem_singleton.mp new]
        exact inv.passed
    · intro promise member
      left
      rcases inv.promises promise member with ⟨flush, later, covers⟩ | ⟨before, -, within, -⟩
      · refine ⟨flush, ?_, covers⟩
        show flush ∈ (s.flushes ++ [(s.hidden.rcDirty, s.passed)]).drop promise.2
        rw [List.drop_append]
        exact List.mem_append_left _ later
      · refine ⟨(s.hidden.rcDirty, s.passed), ?_, within⟩
        show _ ∈ (s.flushes ++ [(s.hidden.rcDirty, s.passed)]).drop promise.2
        rw [List.drop_append_of_le_length before]
        exact List.mem_append_right _ (List.mem_singleton_self _)
  · refine ⟨inv.hidden, inv.passed, inv.flushes, fun promise member => ?_⟩
    rcases inv.promises promise member with flushed | ⟨-, some_pixel, within, -⟩
    · exact .inl flushed
    · exact absurd (some_pixel.mono within) clean

/-- Rectangles are added to the dirty area. -/
theorem LcdInv.update (inv : LcdInv screen s) (laws : RectLaws ops) (screenValid : screen.Valid)
    (rects : List GalRect) : LcdInv screen { s with
      hidden := updateRects ops screen rects s.hidden
      passed := s.passed ++ rects } := by
  obtain ⟨ok, grows, covers, tokens⟩ := updateRects_spec laws screenValid inv.hidden rects
  refine ⟨ok, ?_, inv.flushes, ?_⟩
  · intro r member
    rcases List.mem_append.mp member with old | new
    · exact (inv.passed r old).trans grows
    · exact covers r new
  · intro promise member
    rcases inv.promises promise member with flushed | ⟨before, some_pixel, within, going⟩
    · exact .inl flushed
    · refine .inr ⟨before, some_pixel, within.trans grows, ?_⟩
      exact going.imp_left tokens.symm.subst

/-- **One event** keeps the invariant. -/
theorem lcd_step (laws : RectLaws ops) (screenValid : screen.Valid) {event : LcdEvent}
    (inv : LcdInv screen s) (runs : lcdExec ops screen s event = some after) :
    LcdInv screen after := by
  cases event with
  | updateRectsAsync rects | updateRectsSync rects =>
    obtain rfl := Option.some.inj runs
    exact inv.update laws screenValid rects
  | syncUpdateAsync =>
    simp only [lcdExec, syncUpdateAsync] at runs
    by_cases dirty : s.hidden.dirty = true
    · simp only [if_pos dirty, if_true, Option.some.injEq] at runs
      subst runs
      refine ⟨⟨inv.hidden.valid, inv.hidden.dirty_iff, inv.hidden.inside⟩, inv.passed, inv.flushes, ?_⟩
      intro promise member
      rcases List.mem_append.mp member with old | new
      · refine (inv.promises promise old).imp_right ?_
        rintro ⟨before, some_pixel, within, -⟩
        exact ⟨before, some_pixel, within, .inl (Nat.succ_pos _)⟩
      · rw [List.mem_singleton.mp new]
        exact .inr ⟨le_rfl, inv.hidden.dirty_iff.mp dirty, subset_rfl, .inl (Nat.succ_pos _)⟩
    · simp only [if_neg dirty, Bool.false_eq_true, if_false, Option.some.injEq] at runs
      subst runs
      exact inv
  | semWait =>
    simp only [lcdExec] at runs
    split at runs
    · obtain rfl := Option.some.inj runs
      refine ⟨⟨inv.hidden.valid, inv.hidden.dirty_iff, inv.hidden.inside⟩, inv.passed, inv.flushes, ?_⟩
      intro promise member
      refine (inv.promises promise member).imp_right ?_
      rintro ⟨before, some_pixel, within, -⟩
      exact ⟨before, some_pixel, within, .inr rfl⟩
    · cases runs
  | taskFlush =>
    simp only [lcdExec] at runs
    split at runs
    · obtain rfl := Option.some.inj runs
      refine inv.flush ?_
      unfold taskFlush
      by_cases dirty : s.hidden.dirty = true
      · rw [if_pos dirty]
        exact .inl ⟨rfl, rfl⟩
      · rw [if_neg dirty]
        exact .inr ⟨fun some_pixel => dirty (inv.hidden.dirty_iff.mpr some_pixel), rfl, rfl⟩
    · cases runs
  | syncUpdateSync =>
    obtain rfl := Option.some.inj runs
    have same : ∀ update hidden, { s.flush update hidden with woken := s.woken } = s.flush update hidden := by
      intro update hidden
      cases update <;> rfl
    show LcdInv screen (s.flush (syncUpdateSync ops s.hidden).2.1 (syncUpdateSync ops s.hidden).2.2)
    rw [← same]
    refine inv.flush ?_
    unfold syncUpdateSync
    by_cases empty : ops.isRectEmpty s.hidden.rcDirty = true
    · rw [if_pos empty]
      exact .inr ⟨(laws.empty_iff inv.hidden.valid).mp empty, rfl, rfl⟩
    · rw [if_neg empty]
      exact .inl ⟨rfl, rfl⟩

/-! ### Every run -/

theorem initial_inv (screen : Rect) : LcdInv screen LcdState.initial where
  hidden := clear_ok screen ⟨⟨0, 0, 0, 0⟩, false, 0⟩
  passed := by simp [Covers, LcdState.initial]
  flushes := by simp [LcdState.initial]
  promises := by simp [LcdState.initial]

/-- **No dirty screen area is lost.** In every run the dirty area is empty exactly when the flag is
clear, lies on the screen, and covers the screen pixels of the rectangles passed since the last
flush; each flush covered those passed before it; and the area that was dirty when
`COMMLCD_SyncUpdate_Async` returned `TRUE` is flushed by now, or a token is left, or the task is
about to flush. -/
theorem no_dirty_area_lost (laws : RectLaws ops) (screenValid : screen.Valid)
    (reached : (lcdSystem ops screen).Reachable s) :
    (s.hidden.dirty = true ↔ s.hidden.rcDirty.pixels.Nonempty) ∧
      s.hidden.rcDirty.pixels ⊆ screen.pixels ∧ Covers screen s.passed s.hidden.rcDirty ∧
      (∀ flush ∈ s.flushes, Covers screen flush.2 flush.1) ∧
      ∀ promise ∈ s.promises, Flushed s promise ∨ 0 < s.hidden.semUpdate ∨ s.woken = true := by
  have inv : LcdInv screen s := by
    refine reached.invariant (LcdInv screen) ?_ fun _ _ _ _ inv _ runs =>
      lcd_step laws screenValid inv runs
    rintro _ rfl
    exact initial_inv screen
  refine ⟨inv.hidden.dirty_iff, inv.hidden.inside, inv.passed, inv.flushes, fun promise member => ?_⟩
  exact (inv.promises promise member).imp_right fun kept => kept.2.2.2

/-- A rectangle over the edge of a screen of 100 times 80 pixels is flushed; another one is
promised. -/
theorem no_dirty_area_lost_example : ∃ s : LcdState,
    (lcdSystem plainOps ⟨0, 0, 100, 80⟩).Reachable s ∧
      s.flushes = [(⟨90, 70, 100, 80⟩, [⟨90, 70, 20, 20⟩])] ∧
      s.promises = [(⟨90, 70, 100, 80⟩, 0), (⟨5, 5, 6, 6⟩, 1)] ∧
      Covers ⟨0, 0, 100, 80⟩ s.passed s.hidden.rcDirty := by
  have runs : runEvents (lcdExec plainOps ⟨0, 0, 100, 80⟩) LcdState.initial
      [.updateRectsAsync [⟨90, 70, 20, 20⟩], .syncUpdateAsync, .semWait, .taskFlush,
        .updateRectsAsync [⟨5, 5, 1, 1⟩], .syncUpdateAsync] =
      some ⟨⟨⟨5, 5, 6, 6⟩, true, 1⟩, false, [⟨5, 5, 1, 1⟩],
        [(⟨90, 70, 100, 80⟩, [⟨90, 70, 20, 20⟩])], [(⟨90, 70, 100, 80⟩, 0), (⟨5, 5, 6, 6⟩, 1)]⟩ := by
    decide
  have start : (lcdSystem plainOps ⟨0, 0, 100, 80⟩).Reachable LcdState.initial := .start rfl
  have reached := start.run (fun _ _ _ ran => ⟨trivial, ran⟩) runs
  exact ⟨_, reached, rfl, rfl,
    (no_dirty_area_lost plainOps_laws ⟨by decide, by decide⟩ reached).2.2.1⟩

end Aple.Video
