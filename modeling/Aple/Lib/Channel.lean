/-
**An ordered byte stream with attachments.**

What one side wrote and the other has not read yet: bytes, with the things attached to a message in
front of its first byte.

* `readBytes count` — read exactly that many bytes, losing attachments; `receiveMsg count` — take
  the attachment in front, then read. `none` means that the stream ends before.
* `readBytes_cells`, `receiveMsg_cells`, `receiveMsg_attached` — reading as many bytes as were
  written returns them and leaves the rest.
-/

import Aple.Lib.Words

namespace Aple.Lib

variable {A : Type}

/-- A byte, or what is attached to the byte behind it. -/
inductive Cell (A : Type)
  | byte (value : Byte)
  | attached (value : A)
deriving DecidableEq, Repr

/-- Bytes without attachments. -/
def cells (bytes : List Byte) : List (Cell A) := bytes.map .byte

/-- Read exactly `count` bytes. -/
def readBytes : ℕ → List (Cell A) → Option (List Byte × List (Cell A))
  | 0, stream => some ([], stream)
  | _ + 1, [] => none
  | count + 1, .byte value :: rest =>
    (readBytes count rest).map fun (bytes, rest) => (value :: bytes, rest)
  | count + 1, .attached _ :: rest => readBytes (count + 1) rest

/-- Receive exactly `count` bytes with what is attached to the first of them. -/
def receiveMsg (count : ℕ) : List (Cell A) → Option (Option A × List Byte × List (Cell A))
  | .attached value :: rest => (readBytes count rest).map fun (bytes, rest) => (some value, bytes, rest)
  | stream => (readBytes count stream).map fun (bytes, rest) => (none, bytes, rest)

/-- Nothing is attached at the front of the stream. -/
def Plain (stream : List (Cell A)) : Prop := ∀ value rest, stream ≠ .attached value :: rest

theorem plain_nil : Plain ([] : List (Cell A)) := by
  intro value rest same
  cases same

theorem plain_cells {bytes : List Byte} (some_bytes : bytes ≠ []) (rest : List (Cell A)) :
    Plain (cells bytes ++ rest) := by
  cases bytes with
  | nil => exact absurd rfl some_bytes
  | cons byte others =>
    intro value tail same
    cases same

theorem readBytes_cells (bytes : List Byte) (rest : List (Cell A)) :
    readBytes bytes.length (cells bytes ++ rest) = some (bytes, rest) := by
  induction bytes with
  | nil => cases rest <;> rfl
  | cons byte others ih =>
    show (readBytes others.length (cells others ++ rest)).map _ = _
    rw [ih]
    rfl

theorem receiveMsg_attached (value : A) (bytes : List Byte) (rest : List (Cell A)) :
    receiveMsg bytes.length (.attached value :: (cells bytes ++ rest)) =
      some (some value, bytes, rest) := by
  rw [receiveMsg, readBytes_cells]
  rfl

/-- Without an attachment at the front; an empty message must not be followed by one either. -/
theorem receiveMsg_cells (bytes : List Byte) {rest : List (Cell A)} (plain : Plain rest) :
    receiveMsg bytes.length (cells bytes ++ rest) = some (none, bytes, rest) := by
  have front : Plain (cells bytes ++ rest) := by
    cases bytes with
    | nil => exact plain
    | cons byte others => exact plain_cells (List.cons_ne_nil _ _) rest
  have read := readBytes_cells bytes rest
  generalize cells bytes ++ rest = stream at front read
  cases stream with
  | nil =>
    rw [receiveMsg, read]
    · rfl
    · intro value tail same
      cases same
  | cons cell tail =>
    cases cell with
    | byte value =>
      rw [receiveMsg, read]
      · rfl
      · intro value tail same
        cases same
    | attached value => exact absurd rfl (front value tail)

end Aple.Lib
