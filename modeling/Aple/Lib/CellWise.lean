/-
**An ordered byte stream, one cell at a time.**

* `readBytes_append`, `receiveMsg_append` — what was read stays the same when more is written behind
  it.
* `readBytes_nil` — nothing can be read from an empty stream.
* **`next_cell`** — a reader that is inside a run of bytes finds the next one of them.
* `attachment`, **`next_of_message`** — the same for a message with what is attached to it.
* `readBytes_skip`, `receiveMsg_skip` — an attachment inside what is read is passed over.
-/

import Mathlib.Data.List.Basic
import Aple.Lib.Channel

namespace Aple.Lib

variable {A : Type}

/-! ### More behind what is read -/

/-- **Reading does not look behind** what it reads. -/
theorem readBytes_append {count : ℕ} {stream rest : List (Cell A)} {bytes : List Byte}
    (read : readBytes count stream = some (bytes, rest)) (more : List (Cell A)) :
    readBytes count (stream ++ more) = some (bytes, rest ++ more) := by
  induction stream generalizing count bytes with
  | nil =>
    cases count with
    | zero =>
      obtain ⟨rfl, rfl⟩ := Prod.mk.inj (Option.some.inj read)
      cases more <;> rfl
    | succ count => cases read
  | cons cell tail ih =>
    cases count with
    | zero =>
      obtain ⟨rfl, rfl⟩ := Prod.mk.inj (Option.some.inj read)
      rfl
    | succ count =>
      cases cell with
      | byte value =>
        obtain ⟨⟨others, behind⟩, reads, same⟩ := Option.map_eq_some_iff.mp read
        obtain ⟨rfl, rfl⟩ := Prod.mk.inj same
        show (readBytes count (tail ++ more)).map _ = _
        rw [ih reads]
        rfl
      | attached value => exact ih read

/-- A message with bytes is received the same when more is written behind it. -/
theorem receiveMsg_append {count : ℕ} {stream rest : List (Cell A)} {value : Option A}
    {bytes : List Byte} (read : receiveMsg count stream = some (value, bytes, rest))
    (some_cells : stream ≠ []) (more : List (Cell A)) :
    receiveMsg count (stream ++ more) = some (value, bytes, rest ++ more) := by
  cases stream with
  | nil => exact absurd rfl some_cells
  | cons cell tail =>
    cases cell with
    | attached front =>
      obtain ⟨⟨others, behind⟩, reads, same⟩ := Option.map_eq_some_iff.mp read
      obtain ⟨rfl, rfl, rfl⟩ := by simpa using same
      show (readBytes count (tail ++ more)).map _ = _
      rw [readBytes_append reads]
      rfl
    | byte front =>
      obtain ⟨⟨others, behind⟩, reads, same⟩ := Option.map_eq_some_iff.mp read
      obtain ⟨rfl, rfl, rfl⟩ := by simpa using same
      show (readBytes count (.byte front :: tail ++ more)).map _ = _
      rw [readBytes_append reads]
      rfl

/-- Nothing is read from an empty stream. -/
theorem readBytes_nil {count : ℕ} (some_bytes : 0 < count) :
    readBytes count ([] : List (Cell A)) = none := by
  cases count with
  | zero => cases some_bytes
  | succ count => rfl

/-! ### Inside a run of bytes -/

@[simp] theorem cells_nil : (cells [] : List (Cell A)) = [] := rfl

theorem cells_append (first second : List Byte) :
    (cells (first ++ second) : List (Cell A)) = cells first ++ cells second :=
  List.map_append

/-- **The next cell** of a reader that has got a part of the bytes in front is the next byte. -/
theorem next_cell {got bytes : List Byte} {cell : Cell A} {rest tail : List (Cell A)}
    (inside : got.length < bytes.length) (same : cells got ++ cell :: rest = cells bytes ++ tail) :
    ∃ value more, bytes = got ++ value :: more ∧ cell = .byte value ∧ rest = cells more ++ tail := by
  induction got generalizing bytes with
  | nil =>
    cases bytes with
    | nil => cases inside
    | cons value more =>
      obtain ⟨rfl, rfl⟩ := List.cons.inj same
      exact ⟨value, more, rfl, rfl, rfl⟩
  | cons first others ih =>
    cases bytes with
    | nil => cases inside
    | cons front bytes =>
      obtain ⟨head, behind⟩ := List.cons.inj same
      cases head
      obtain ⟨value, more, rfl, is_byte, left⟩ := ih (Nat.lt_of_succ_lt_succ inside) behind
      exact ⟨value, more, rfl, is_byte, left⟩

/-- Inside a run of bytes there is a cell left. -/
theorem cell_left {got bytes : List Byte} {rest tail : List (Cell A)}
    (inside : got.length < bytes.length) (same : cells got ++ rest = cells bytes ++ tail) :
    ∃ cell more, rest = cell :: more := by
  cases rest with
  | nil =>
    have lengths := congrArg List.length same
    simp only [List.append_nil, List.length_append, cells, List.length_map] at lengths
    omega
  | cons cell more => exact ⟨cell, more, rfl⟩

/-! ### Inside a message -/

/-- The cells of what is attached to a message. -/
def attachment (value : Option A) : List (Cell A) := value.toList.map .attached

/-- **The next cell** of a reader inside a message is what is attached to it, or its next byte. -/
theorem next_of_message {value arrives : Option A} {got bytes : List Byte} {cell : Cell A}
    {rest tail : List (Cell A)} (inside : got.length < bytes.length)
    (same : attachment value ++ (cells got ++ cell :: rest) =
      attachment arrives ++ (cells bytes ++ tail)) :
    (∃ next more, value = arrives ∧ bytes = got ++ next :: more ∧ cell = .byte next ∧
      rest = cells more ++ tail) ∨
    ∃ front, value = none ∧ got = [] ∧ arrives = some front ∧ cell = .attached front ∧
      rest = cells bytes ++ tail := by
  cases value with
  | none =>
    cases arrives with
    | none =>
      obtain ⟨next, more, whole, is_byte, behind⟩ := next_cell inside same
      exact .inl ⟨next, more, rfl, whole, is_byte, behind⟩
    | some front =>
      cases got with
      | nil =>
        obtain ⟨is_attached, behind⟩ := List.cons.inj same
        exact .inr ⟨front, rfl, rfl, rfl, is_attached, behind⟩
      | cons byte others => cases (List.cons.inj same).1
  | some front =>
    cases arrives with
    | none =>
      cases bytes with
      | nil => cases inside
      | cons byte others => cases (List.cons.inj same).1
    | some other =>
      obtain ⟨head, behind⟩ := List.cons.inj same
      cases head
      obtain ⟨next, more, whole, is_byte, behind⟩ := next_cell inside behind
      exact .inl ⟨next, more, rfl, whole, is_byte, behind⟩

/-- Inside a message there is a cell left. -/
theorem cell_left_of_message {value arrives : Option A} {got bytes : List Byte}
    {rest tail : List (Cell A)} (inside : got.length < bytes.length)
    (same : attachment value ++ (cells got ++ rest) = attachment arrives ++ (cells bytes ++ tail)) :
    ∃ cell more, rest = cell :: more := by
  cases value with
  | none =>
    cases arrives with
    | none => exact cell_left inside same
    | some front =>
      cases got with
      | nil => exact ⟨_, _, same⟩
      | cons byte others => cases (List.cons.inj same).1
  | some front =>
    cases arrives with
    | none =>
      cases bytes with
      | nil => cases inside
      | cons byte others => cases (List.cons.inj same).1
    | some other => exact cell_left inside (List.cons.inj same).2

/-! ### Attachments that are passed over -/

/-- What is attached inside the bytes that are read is lost. -/
theorem readBytes_skip {got : List Byte} {count : ℕ} (inside : got.length < count) (value : A)
    (rest : List (Cell A)) :
    readBytes count (cells got ++ .attached value :: rest) = readBytes count (cells got ++ rest) := by
  induction got generalizing count with
  | nil =>
    cases count with
    | zero => cases inside
    | succ count => rfl
  | cons first others ih =>
    cases count with
    | zero => cases inside
    | succ count =>
      show (readBytes count (cells others ++ .attached value :: rest)).map _ =
        (readBytes count (cells others ++ rest)).map _
      rw [ih (Nat.lt_of_succ_lt_succ inside)]

/-- Behind what is attached in front, or behind a byte, an attachment is lost. -/
theorem receiveMsg_skip {front : Option A} {got : List Byte} {count : ℕ} (inside : got.length < count)
    (behind : front ≠ none ∨ got ≠ []) (value : A) (rest : List (Cell A)) :
    receiveMsg count (attachment front ++ (cells got ++ .attached value :: rest)) =
      receiveMsg count (attachment front ++ (cells got ++ rest)) := by
  cases front with
  | some front =>
    show (readBytes count (cells got ++ .attached value :: rest)).map _ =
      (readBytes count (cells got ++ rest)).map _
    rw [readBytes_skip inside]
  | none =>
    cases got with
    | nil => exact absurd rfl (behind.resolve_left (absurd rfl))
    | cons first others =>
      show (readBytes count (cells (first :: others) ++ .attached value :: rest)).map _ =
        (readBytes count (cells (first :: others) ++ rest)).map _
      rw [readBytes_skip inside]

end Aple.Lib
