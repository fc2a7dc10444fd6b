/-
**Decimal numerals.**

* `Numerals` — the characters of the ten digits, in an alphabet that reads them.
* `decimal` — a number in at least so many digits, with zeros in front.
* **`number_decimal`** — a numeral is read as its number; `readInt_decimal` — so it is in front of any
  text that does not go on with a digit.
* `after` — what is behind the last occurrence of a separator.
-/

import Aple.Lib.Scan
import Mathlib.Data.Nat.Digits.Defs

namespace Aple.Lib

variable {α : Type}

/-- The characters of the ten digits. -/
structure Numerals (abc : Alphabet α) where
  figure : ℕ → α
  reads : ∀ d < 10, abc.digit (figure d) = some d

section Decimal

variable {abc : Alphabet α} (numerals : Numerals abc)

/-- The digits of a number from the lowest one on, with zeros up to the width. -/
def lowDigits (width n : ℕ) : List ℕ :=
  Nat.digits 10 n ++ List.replicate (width - (Nat.digits 10 n).length) 0

/-- **A number in at least so many digits.** -/
def decimal (width n : ℕ) : List α := (lowDigits width n).reverse.map numerals.figure

theorem lowDigits_lt {width n d : ℕ} (member : d ∈ lowDigits width n) : d < 10 := by
  rcases List.mem_append.mp member with digit | zero
  · exact Nat.digits_lt_base (by decide) digit
  · rw [List.eq_of_mem_replicate zero]
    decide

theorem ofDigits_lowDigits (width n : ℕ) : Nat.ofDigits 10 (lowDigits width n) = n := by
  unfold lowDigits
  rw [Nat.ofDigits_append_replicate_zero, Nat.ofDigits_digits]

theorem width_le_length (width n : ℕ) : width ≤ (decimal numerals width n).length := by
  unfold decimal lowDigits
  rw [List.length_map, List.length_reverse, List.length_append, List.length_replicate]
  omega

theorem isDigit_decimal {width n : ℕ} {c : α} (member : c ∈ decimal numerals width n) :
    abc.isDigit c = true := by
  obtain ⟨d, digit, rfl⟩ := List.mem_map.mp member
  have small := lowDigits_lt (List.mem_reverse.mp digit)
  exact Option.isSome_of_eq_some (numerals.reads d small)

/-- The digits of a text are read from the highest one on. -/
theorem number_figures (digits : List ℕ) (small : ∀ d ∈ digits, d < 10) :
    abc.number (digits.reverse.map numerals.figure) = Nat.ofDigits 10 digits := by
  induction digits with
  | nil => rfl
  | cons d digits ih =>
    have read := numerals.reads d (small d List.mem_cons_self)
    have rest := ih fun d member => small d (List.mem_cons_of_mem _ member)
    rw [Alphabet.number] at rest ⊢
    rw [List.reverse_cons, List.map_append, List.foldl_append, rest, Nat.ofDigits_cons]
    simp only [List.map_cons, List.map_nil, List.foldl_cons, List.foldl_nil, read, Option.getD_some]
    exact Nat.add_comm _ _

/-- **A numeral is read as its number.** -/
theorem number_decimal (width n : ℕ) : abc.number (decimal numerals width n) = n := by
  unfold decimal
  rw [number_figures numerals _ fun _ => lowDigits_lt, ofDigits_lowDigits]

/-- **A numeral in front of a text** that does not go on with a digit. -/
theorem readInt_decimal {width n : ℕ} {rest : List α} (wide : 0 < width)
    (stops : StopsAt abc.isDigit rest) :
    abc.readInt (decimal numerals width n ++ rest) = some ((n : ℤ), rest) := by
  have nonempty : decimal numerals width n ≠ [] :=
    List.ne_nil_of_length_pos (Nat.lt_of_lt_of_le wide (width_le_length numerals width n))
  have reads : Scans abc (.int () : Directive α Unit Unit) ([] ++ ([] ++ (decimal numerals width n ++ rest)))
      (some (.int () (1 * (abc.number (decimal numerals width n) : ℤ)))) rest :=
    .int (List.forall_mem_nil _) .none nonempty (fun _ => isDigit_decimal numerals) stops
  obtain ⟨⟨value, left⟩, read, same⟩ := Option.map_eq_some_iff.mp reads.read
  rw [number_decimal, one_mul] at same
  obtain ⟨number, rfl⟩ := Prod.mk.inj same
  obtain rfl : value = (n : ℤ) := by simpa using number
  exact read

end Decimal

/-! ### Behind a separator -/

section After

variable [DecidableEq α]

/-- What is behind the last occurrence of a separator; `none` where there is none. -/
def after (separator : α) (text : List α) : Option (List α) :=
  if separator ∈ text then some (text.reverse.takeWhile (· ≠ separator)).reverse else none

theorem after_append (separator : α) (front : List α) {rest : List α} (none : separator ∉ rest) :
    after separator (front ++ separator :: rest) = some rest := by
  have all : ∀ c ∈ rest.reverse, decide (c ≠ separator) = true := by
    intro c member
    have other : c ≠ separator := fun same => none (same ▸ List.mem_reverse.mp member)
    exact decide_eq_true other
  unfold after
  rw [if_pos (List.mem_append_right front List.mem_cons_self), List.reverse_append, List.reverse_cons,
    List.append_assoc, List.takeWhile_append_of_pos all]
  simp

end After

end Aple.Lib
