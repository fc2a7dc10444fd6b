/-
**The pending window of a circular buffer.**

A buffer of `len` slots is read at `readpos` and written at `writepos`; the indices advance by
`(p + 1) % len` and the buffer is empty when they are equal.

* `window len r w` — the slots from `r` up to `w`, in reading order; `contents` reads them.
* `window_cons`, `window_snoc`, `window_pred` — reading one slot, writing one slot, taking the write
  position back by one.
* `window_nodup`, `used_full` — slots are visited once, and the buffer
  is full exactly at length `len - 1`.
* **`contents_push`**, `contents_pop` — a write appends and a read drops the head.
* `shiftDown` and **`contents_shiftDown`** — moving every later slot down by one deletes an entry.
* `contents_update` — overwriting a pending slot changes one entry.
-/

import Mathlib.Data.List.Nodup
import Mathlib.Data.List.Range
import Mathlib.Logic.Function.Basic

namespace Aple.Lib.Ring

/-! ### Positions -/

theorem succ_mod {len p : ℕ} (inside : p < len) :
    (p + 1) % len = if p + 1 < len then p + 1 else 0 := by
  split_ifs with room
  · exact Nat.mod_eq_of_lt room
  · have wraps : p + 1 = len := by omega
    rw [wraps, Nat.mod_self]

theorem succ_mod_lt {len p : ℕ} (inside : p < len) : (p + 1) % len < len :=
  Nat.mod_lt _ (by omega)

/-- The position before `w`, as the C code computes it. -/
def pred (len w : ℕ) : ℕ := if 0 < w then w - 1 else len - 1

theorem pred_lt {len w : ℕ} (inside : w < len) : pred len w < len := by
  unfold pred
  split_ifs <;> omega

theorem succ_pred {len w : ℕ} (inside : w < len) : (pred len w + 1) % len = w := by
  rw [succ_mod (pred_lt inside)]
  unfold pred
  split_ifs <;> omega

theorem pred_succ {len p : ℕ} (inside : p < len) : pred len ((p + 1) % len) = p := by
  rw [succ_mod inside]
  unfold pred
  split_ifs <;> omega

/-- The number of slots from `r` up to `w`. -/
def used (len r w : ℕ) : ℕ := if r ≤ w then w - r else w + len - r

/-- The slot `i` places after `r`. -/
def slot (len r i : ℕ) : ℕ := if r + i < len then r + i else r + i - len

theorem used_lt {len r w : ℕ} (hr : r < len) (hw : w < len) : used len r w < len := by
  unfold used
  split_ifs <;> omega

theorem used_eq_zero {len r w : ℕ} (hr : r < len) : used len r w = 0 ↔ r = w := by
  unfold used
  split_ifs <;> omega

theorem used_succ_left {len r w : ℕ} (hr : r < len) (hw : w < len) (pending : r ≠ w) :
    used len r w = used len ((r + 1) % len) w + 1 := by
  rw [succ_mod hr]
  unfold used
  split_ifs <;> omega

theorem used_succ_right {len r w : ℕ} (hr : r < len) (hw : w < len)
    (room : (w + 1) % len ≠ r) : used len r ((w + 1) % len) = used len r w + 1 := by
  rw [succ_mod hw] at room ⊢
  unfold used
  split_ifs at room ⊢ <;> omega

/-- The buffer is full exactly when one more write would meet the read position. -/
theorem used_full {len r w : ℕ} (hr : r < len) (hw : w < len) :
    (w + 1) % len = r ↔ ¬ used len r w < len - 1 := by
  rw [succ_mod hw]
  unfold used
  split_ifs <;> omega

theorem slot_zero {len r : ℕ} (hr : r < len) : slot len r 0 = r := by
  unfold slot
  split_ifs <;> omega

theorem slot_succ {len r i : ℕ} (hr : r < len) (hi : i + 1 < len) :
    slot len ((r + 1) % len) i = slot len r (i + 1) := by
  rw [succ_mod hr]
  unfold slot
  split_ifs <;> omega

theorem slot_used {len r w : ℕ} (hr : r < len) (hw : w < len) : slot len r (used len r w) = w := by
  unfold slot used
  split_ifs <;> omega

theorem slot_inj {len r i j : ℕ} (hi : i < len) (hj : j < len)
    (same : slot len r i = slot len r j) : i = j := by
  unfold slot at same
  split_ifs at same <;> omega

/-! ### The window -/

/-- The slots from `r` up to `w`, in reading order. -/
def window (len r w : ℕ) : List ℕ := (List.range (used len r w)).map (slot len r)

@[simp] theorem window_self (len r : ℕ) : window len r r = [] := by
  simp [window, used]

theorem window_length (len r w : ℕ) : (window len r w).length = used len r w := by
  simp [window]

theorem window_cons {len r w : ℕ} (hr : r < len) (hw : w < len) (pending : r ≠ w) :
    window len r w = r :: window len ((r + 1) % len) w := by
  have bound := used_lt hr hw
  unfold window
  rw [used_succ_left hr hw pending, List.range_succ_eq_map, List.map_cons, slot_zero hr,
    List.map_map]
  congr 1
  refine List.map_congr_left fun i member => ?_
  rw [used_succ_left hr hw pending] at bound
  have small := List.mem_range.mp member
  exact (slot_succ hr (by omega)).symm

theorem window_snoc {len r w : ℕ} (hr : r < len) (hw : w < len) (room : (w + 1) % len ≠ r) :
    window len r ((w + 1) % len) = window len r w ++ [w] := by
  unfold window
  rw [used_succ_right hr hw room, List.range_succ, List.map_append, List.map_singleton,
    slot_used hr hw]

theorem window_nodup {len r w : ℕ} (hr : r < len) (hw : w < len) : (window len r w).Nodup := by
  have bound := used_lt hr hw
  refine List.Nodup.map_on ?_ List.nodup_range
  intro i hi j hj same
  rw [List.mem_range] at hi hj
  exact slot_inj (by omega) (by omega) same

/-- The write position itself is not pending. -/
theorem not_mem_window {len r w : ℕ} (hr : r < len) (hw : w < len) : w ∉ window len r w := by
  have bound := used_lt hr hw
  intro member
  obtain ⟨i, hi, same⟩ := List.mem_map.mp member
  have small := List.mem_range.mp hi
  have equal := slot_inj (by omega) bound (same.trans (slot_used hr hw).symm)
  omega

/-- The slot at the read position is not behind it. -/
theorem head_not_mem_window {len r w : ℕ} (hr : r < len) (hw : w < len) (pending : r ≠ w) :
    r ∉ window len ((r + 1) % len) w := by
  have nodup := window_nodup hr hw
  rw [window_cons hr hw pending] at nodup
  exact (List.nodup_cons.mp nodup).1

/-- Taking the write position back by one drops the last slot. -/
theorem window_pred {len r w : ℕ} (hr : r < len) (hw : w < len) (pending : r ≠ w) :
    window len r (pred len w) = (window len r w).dropLast := by
  have room : (pred len w + 1) % len ≠ r := by
    rw [succ_pred hw]
    exact Ne.symm pending
  have grown := window_snoc hr (pred_lt hw) room
  rw [succ_pred hw] at grown
  rw [grown, List.dropLast_concat]

/-! ### What the window holds -/

variable {α : Type}

/-- The pending entries, in reading order. -/
def contents (buf : ℕ → α) (len r w : ℕ) : List α := (window len r w).map buf

@[simp] theorem contents_self (buf : ℕ → α) (len r : ℕ) : contents buf len r r = [] := by
  simp [contents]

theorem contents_length (buf : ℕ → α) (len r w : ℕ) :
    (contents buf len r w).length = (window len r w).length := by
  simp [contents]

theorem contents_congr {buf buf' : ℕ → α} {len r w : ℕ}
    (same : ∀ p ∈ window len r w, buf' p = buf p) :
    contents buf' len r w = contents buf len r w :=
  List.map_congr_left same

theorem contents_pop {buf : ℕ → α} {len r w : ℕ} (hr : r < len) (hw : w < len) (pending : r ≠ w) :
    contents buf len r w = buf r :: contents buf len ((r + 1) % len) w := by
  rw [contents, window_cons hr hw pending]
  rfl

/-- **A write appends.** -/
theorem contents_push {buf : ℕ → α} {len r w : ℕ} (hr : r < len) (hw : w < len)
    (room : (w + 1) % len ≠ r) (entry : α) :
    contents (Function.update buf w entry) len r ((w + 1) % len) = contents buf len r w ++ [entry] := by
  have untouched : contents (Function.update buf w entry) len r w = contents buf len r w :=
    contents_congr fun p member => by
      refine Function.update_of_ne ?_ _ _
      rintro rfl
      exact not_mem_window hr hw member
  have split : contents (Function.update buf w entry) len r ((w + 1) % len) =
      contents (Function.update buf w entry) len r w ++ [entry] := by
    rw [contents, window_snoc hr hw room, List.map_append]
    simp [contents]
  rw [split, untouched]

/-! ### Deleting an entry -/

/-- Copy every slot after `p` one place down, up to `w`; `count` bounds the walk. -/
def shiftDown (len w : ℕ) : ℕ → ℕ → (ℕ → α) → (ℕ → α)
  | 0, _, buf => buf
  | count + 1, p, buf =>
    if (p + 1) % len = w then buf
    else shiftDown len w count ((p + 1) % len) (Function.update buf p (buf ((p + 1) % len)))

/-- Only the slots from `p` on are written. -/
theorem shiftDown_frame {len w p q count : ℕ} (hp : p < len) (hw : w < len) (pending : p ≠ w)
    (buf : ℕ → α) (outside : q ∉ window len p w) : shiftDown len w count p buf q = buf q := by
  induction count generalizing p buf with
  | zero => rfl
  | succ count ih =>
    rw [window_cons hp hw pending, List.mem_cons, not_or] at outside
    unfold shiftDown
    split_ifs with last
    · rfl
    · rw [ih (succ_mod_lt hp) last _ outside.2]
      exact Function.update_of_ne outside.1 _ _

/-- **Shifting down deletes the entry at `p`.** -/
theorem contents_shiftDown {len w p count : ℕ} (hp : p < len) (hw : w < len) (pending : p ≠ w)
    (buf : ℕ → α) (enough : used len p w ≤ count) :
    contents (shiftDown len w count p buf) len p (pred len w) =
      contents buf len ((p + 1) % len) w := by
  induction count generalizing p buf with
  | zero =>
    have pos := (used_eq_zero hp).not.mpr pending
    omega
  | succ count ih =>
    have hp' := succ_mod_lt hp
    unfold shiftDown
    split_ifs with last
    · subst last
      rw [pred_succ hp, contents_self, contents_self]
    · have notLast : p ≠ pred len w := by
        intro same
        exact last (by rw [same, succ_pred hw])
      have shrink := used_succ_left hp hw pending
      have tail := ih hp' last (Function.update buf p (buf ((p + 1) % len))) (by omega)
      have fresh := head_not_mem_window hp hw pending
      have head : shiftDown len w count ((p + 1) % len)
          (Function.update buf p (buf ((p + 1) % len))) p = buf ((p + 1) % len) := by
        rw [shiftDown_frame hp' hw last _ fresh, Function.update_self]
      rw [contents_pop hp (pred_lt hw) notLast, head, tail, contents_pop hp' hw last]
      congr 1
      refine contents_congr fun q member => Function.update_of_ne ?_ _ _
      rintro rfl
      refine fresh ?_
      rw [window_cons hp' hw last]
      exact List.mem_cons_of_mem _ member

/-- What is written to the deleted slot first does not matter. -/
theorem contents_shiftDown_update {len w p count : ℕ} (hp : p < len) (hw : w < len)
    (pending : p ≠ w) (buf : ℕ → α) (entry : α) (enough : used len p w ≤ count) :
    contents (shiftDown len w count p (Function.update buf p entry)) len p (pred len w) =
      contents buf len ((p + 1) % len) w := by
  rw [contents_shiftDown hp hw pending _ enough]
  refine contents_congr fun q member => Function.update_of_ne ?_ _ _
  rintro rfl
  exact head_not_mem_window hp hw pending member

theorem shiftDown_update_frame {len w p q count : ℕ} (hp : p < len) (hw : w < len)
    (pending : p ≠ w) (buf : ℕ → α) (entry : α) (outside : q ∉ window len p w) :
    shiftDown len w count p (Function.update buf p entry) q = buf q := by
  rw [shiftDown_frame hp hw pending _ outside]
  refine Function.update_of_ne ?_ _ _
  rintro rfl
  rw [window_cons hp hw pending] at outside
  exact outside List.mem_cons_self

/-! ### Overwriting one entry -/

/-- **Overwriting a pending slot** changes the entry at its place and no other. -/
theorem contents_update {len r w p : ℕ} (hr : r < len) (hw : w < len) {before after : List ℕ}
    (split : window len r w = before ++ p :: after) (buf : ℕ → α) (entry : α) :
    contents buf len r w = before.map buf ++ buf p :: after.map buf ∧
      contents (Function.update buf p entry) len r w =
        before.map buf ++ entry :: after.map buf := by
  have nodup := window_nodup hr hw
  rw [split] at nodup
  obtain ⟨offBefore, offAfter⟩ : p ∉ before ∧ p ∉ after := by
    have off := (List.nodup_cons.mp (List.nodup_middle.mp nodup)).1
    rwa [List.mem_append, not_or] at off
  have keep : ∀ slots : List ℕ, p ∉ slots →
      slots.map (Function.update buf p entry) = slots.map buf := by
    intro slots off
    refine List.map_congr_left fun q member => Function.update_of_ne ?_ _ _
    rintro rfl
    exact off member
  unfold contents
  rw [split]
  refine ⟨by rw [List.map_append, List.map_cons], ?_⟩
  rw [List.map_append, List.map_cons, keep before offBefore, keep after offAfter,
    Function.update_self]

end Aple.Lib.Ring
