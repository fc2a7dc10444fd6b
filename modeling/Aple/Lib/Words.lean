/-
**Machine words as bytes.**

* `toBytes count n` — the `count` low bytes of a number, lowest first; `ofBytes` reads them back.
* **`ofBytes_toBytes`** — what is read back is the number modulo `256 ^ count`; `word_toBytes` says
  it for words of that width.
-/

import Mathlib.Data.BitVec
import Mathlib.Tactic.Ring

namespace Aple.Lib

abbrev Byte := BitVec 8

/-- The low bytes of a number, lowest first. -/
def toBytes : ℕ → ℕ → List Byte
  | 0, _ => []
  | count + 1, n => BitVec.ofNat 8 n :: toBytes count (n / 256)

/-- The number with these bytes. -/
def ofBytes : List Byte → ℕ
  | [] => 0
  | byte :: rest => byte.toNat + 256 * ofBytes rest

@[simp] theorem length_toBytes (count n : ℕ) : (toBytes count n).length = count := by
  induction count generalizing n with
  | zero => rfl
  | succ count ih => rw [toBytes, List.length_cons, ih]

/-- **Reading a word back.** -/
theorem ofBytes_toBytes (count n : ℕ) : ofBytes (toBytes count n) = n % 256 ^ count := by
  induction count generalizing n with
  | zero => rw [toBytes, ofBytes, pow_zero, Nat.mod_one]
  | succ count ih =>
    rw [toBytes, ofBytes, ih, BitVec.toNat_ofNat]
    show n % 256 + 256 * (n / 256 % 256 ^ count) = n % 256 ^ (count + 1)
    rw [pow_succ', Nat.mod_mul]

/-- The bytes of a number are the bytes of the word it is stored in. -/
theorem word_toBytes (count n : ℕ) :
    BitVec.ofNat (8 * count) (ofBytes (toBytes count n)) = BitVec.ofNat (8 * count) n := by
  apply BitVec.eq_of_toNat_eq
  rw [BitVec.toNat_ofNat, BitVec.toNat_ofNat, ofBytes_toBytes, pow_mul]
  exact Nat.mod_mod n (256 ^ count)

end Aple.Lib
