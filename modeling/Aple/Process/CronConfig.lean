/-
**Loading the configuration of the cron.**

* `CharArray`, `getlines` — arrays of characters with a size, and the lines of a file.
* `sscanf` — the format of a line, on the variables it is stored to; `loadConfig` — the whole
  function. The variables of a turn have any contents before they are assigned, and a value that does
  not fit its variable is undefined.
* `Entry`, `IsCommand` — what a line says when it has the form of a command.
* `ConfigLoaded` — each slot holds the command of its own line.
* **`config_loaded_iff`** — this is so exactly when the first three lines that are no comments are
  commands and memory is 0 where their strings end; `loaded_always_iff`.
-/

import Aple.Lib.Scan
import Aple.Lib.Words

namespace Aple.Process

open Aple.Lib

/-! ### Characters -/

/-- `char c[n]`. -/
structure CharArray (n : ℕ) where
  bytes : List Byte
  size : bytes.length = n
deriving DecidableEq

namespace CharArray

variable {n : ℕ}

def zeroed (n : ℕ) : CharArray n := ⟨List.replicate n 0, List.length_replicate⟩

/-- The first elements are set. -/
def write (dst : CharArray n) (front : List Byte) (fits : front.length ≤ n) : CharArray n where
  bytes := front ++ dst.bytes.drop front.length
  size := by rw [List.length_append, List.length_drop, dst.size, Nat.add_sub_cancel' fits]

/-- The characters in front of the first `NUL`; `strlen` is their number. -/
def chars (c : CharArray n) : List Byte := c.bytes.takeWhile (· ≠ 0)

/-- The string that the array holds, if it is terminated. -/
def string (c : CharArray n) : Option (List Byte) := if 0 ∈ c.bytes then some c.chars else none

theorem chars_length (c : CharArray n) : c.chars.length ≤ n :=
  ((List.takeWhile_prefix _).length_le).trans_eq c.size

end CharArray

def newline : Byte := 10

/-- The lines that `getline` gives, each with its newline. -/
def getlines : List Byte → List (List Byte)
  | [] => []
  | c :: rest =>
    if c = newline then [c] :: getlines rest
    else
      match getlines rest with
      | [] => [[c]]
      | line :: lines => (c :: line) :: lines

/-- A line as a string. -/
def cString (line : List Byte) : List Byte := line.takeWhile (· ≠ 0)

def isComment (line : List Byte) : Bool := line.head? = some 35

/-- The characters of the C locale. -/
def cLocale : Alphabet Byte where
  isSpace c := c == 32 || (9 ≤ c.toNat && c.toNat ≤ 13)
  digit c := if 48 ≤ c.toNat ∧ c.toNat ≤ 57 then some (c.toNat - 48) else none
  sign c := if c = 43 then some 1 else if c = 45 then some (-1) else none
  digit_space := by decide
  sign_space := by decide
  digit_sign := by decide

/-! ### Scanning a line -/

inductive IntDest
  | start | period | count
deriving DecidableEq, Repr

inductive TextDest
  | buf
deriving DecidableEq, Repr

/-- `%d %d %d %[^\n]`. -/
def fields : List (Directive Byte IntDest TextDest) :=
  [.int .start, .space, .int .period, .space, .int .count, .space, .text .buf (· ≠ newline)]

def format : List (Directive Byte IntDest TextDest) := fields ++ [.skip]

def cmdMaxBytes : ℕ := 128

/-- A value that the variable can hold: an `int`, or a text and its `NUL`. -/
def Fits : Assign Byte IntDest TextDest → Prop
  | .int _ n => -2 ^ 31 ≤ n ∧ n < 2 ^ 31
  | .text _ chars => chars.length < cmdMaxBytes

instance : (value : Assign Byte IntDest TextDest) → Decidable (Fits value)
  | .int _ _ => inferInstanceAs (Decidable (_ ∧ _))
  | .text _ _ => inferInstanceAs (Decidable (_ < _))

/-- The variables that `sscanf` is given. -/
structure Scanned where
  start : ℤ
  period : ℤ
  count : ℤ
  buf : CharArray cmdMaxBytes
deriving DecidableEq

def Scanned.setInt (s : Scanned) (n : ℤ) : IntDest → Scanned
  | .start => { s with start := n }
  | .period => { s with period := n }
  | .count => { s with count := n }

/-- One value is stored. -/
def Scanned.store (s : Scanned) : Assign Byte IntDest TextDest → Option Scanned
  | .int dest n => if Fits (.int dest n) then some (s.setInt n dest) else none
  | .text .buf chars =>
    if fits : Fits (.text .buf chars) then
      some { s with buf := s.buf.write (chars ++ [0]) (by rw [List.length_append]; exact fits) }
    else none

/-- `sscanf`; `none` when it is undefined. -/
def sscanf (line : List Byte) (s : Scanned) : Option Scanned :=
  (scan cLocale format (cString line)).foldlM Scanned.store s

/-! ### Loading -/

/-- `struct mycmd`. -/
structure Mycmd where
  cmd : CharArray cmdMaxBytes
  start : ℤ
  period : ℤ
  count : ℤ
deriving DecidableEq

def Mycmd.zeroed : Mycmd := ⟨.zeroed cmdMaxBytes, 0, 0, 0⟩

/-- `struct simple_cron`. -/
structure SimpleCron where
  cmd1 : Mycmd
  cmd2 : Mycmd
  cmd3 : Mycmd
deriving DecidableEq

def SimpleCron.zeroed : SimpleCron := ⟨.zeroed, .zeroed, .zeroed⟩

def SimpleCron.slot (cron : SimpleCron) : Fin 3 → Mycmd
  | 0 => cron.cmd1
  | 1 => cron.cmd2
  | 2 => cron.cmd3

/-- A line and its number. -/
abbrev Line := List Byte × ℕ

/-- The variables of a turn before they are assigned; `tmp.cmd` is one of them. -/
structure Locals where
  start : ℤ
  period : ℤ
  count : ℤ
  tmpCmd : CharArray cmdMaxBytes

/-- The table, and the lines that were copied into it. -/
structure CronState where
  cron : SimpleCron
  cmdCount : ℕ
  stored : List Line
deriving DecidableEq

section Loading

variable (locals : ℕ → Locals)

/-- `tmp`, as a line that is no comment leaves it. -/
def tmpOf (line : Line) : Option Mycmd :=
  let l := locals line.2
  (sscanf line.1 ⟨l.start, l.period, l.count, .zeroed cmdMaxBytes⟩).map fun s =>
    ⟨l.tmpCmd.write s.buf.chars s.buf.chars_length, s.start, s.period, s.count⟩

/-- The `switch`: a fourth command finds no `case`, and the label below them is not `default`. -/
def CronState.put (s : CronState) (line : Line) (tmp : Mycmd) : CronState :=
  match s.cmdCount with
  | 0 => ⟨{ s.cron with cmd1 := tmp }, s.cmdCount + 1, s.stored ++ [line]⟩
  | 1 => ⟨{ s.cron with cmd2 := tmp }, s.cmdCount + 1, s.stored ++ [line]⟩
  | 2 => ⟨{ s.cron with cmd3 := tmp }, s.cmdCount + 1, s.stored ++ [line]⟩
  | _ => s

def turn (s : CronState) (line : Line) : Option CronState :=
  if isComment line.1 then some s else (tmpOf locals line).map (s.put line)

/-- `load_config`, for a file that can be opened or not; `none` when it is undefined. -/
def loadConfig (file : Option (List Byte)) (cron : SimpleCron) : Option (ℤ × CronState) :=
  match file with
  | none => some (-1, ⟨cron, 0, []⟩)
  | some file => ((getlines file).zipIdx.foldlM (turn locals) ⟨cron, 0, []⟩).map fun s => (0, s)

end Loading

/-! ### What should hold -/

/-- What a command says. -/
structure Entry where
  start : ℤ
  period : ℤ
  count : ℤ
  text : List Byte
deriving DecidableEq, Repr

/-- The values of a command, in the order of the format. -/
def Entry.values (e : Entry) : List (Assign Byte IntDest TextDest) :=
  [.int .start e.start, .int .period e.period, .int .count e.count, .text .buf e.text]

/-- **A line that has the form of a command**: three numbers, each behind any spaces, and the text behind
the spaces that follow. -/
def IsCommand (line : List Byte) (e : Entry) : Prop :=
  ∃ rest, ScansAll cLocale fields (cString line) e.values rest

/-- The command of a line. -/
def entryOf (line : List Byte) : Option Entry :=
  match readAll cLocale fields (cString line) with
  | some ([.int .start start, .int .period period, .int .count count, .text .buf text], _) =>
    some ⟨start, period, count, text⟩
  | _ => none

/-- The lines that are no comments. -/
def configLines (file : List Byte) : List Line :=
  (getlines file).zipIdx.filter fun line => !isComment line.1

/-- Those of them that are commands. -/
def commandLines (file : List Byte) : List Line :=
  (configLines file).filter fun line => (entryOf line.1).isSome

/-- The slot holds this command. -/
structure Mycmd.Holds (cmd : Mycmd) (e : Entry) : Prop where
  start : cmd.start = e.start
  period : cmd.period = e.period
  count : cmd.count = e.count
  text : cmd.cmd.string = some e.text

/-- **Each slot depends on its own line**: the call is defined, the lines that were copied are the first
three commands of the file, the slots of these hold them, and the others are as before. -/
def ConfigLoaded (file : List Byte) (locals : ℕ → Locals) : Prop :=
  ∃ after, loadConfig locals (some file) .zeroed = some (0, after) ∧
    after.stored = (commandLines file).take 3 ∧
    ∀ k : Fin 3, match (commandLines file)[k.1]? with
      | some line => ∃ e, IsCommand line.1 e ∧ (after.cron.slot k).Holds e
      | none => after.cron.slot k = .zeroed

/-- Every line that is no comment can be scanned, the first three of them are commands, and there is a 0
in `tmp.cmd` behind the text of each of these. -/
structure CronCondition (file : List Byte) (locals : ℕ → Locals) : Prop where
  defined : ∀ line ∈ configLines file, ∀ value ∈ scan cLocale format (cString line.1), Fits value
  commands : ∀ line ∈ (configLines file).take 3, ∃ e, IsCommand line.1 e
  terminated : ∀ line ∈ (configLines file).take 3, ∀ e, IsCommand line.1 e →
    (locals line.2).tmpCmd.bytes[e.text.length]? = some 0

/-! ### Strings -/

section Strings

variable {n : ℕ} {c dst : CharArray n} {text : List Byte}

/-- The characters in front of a `NUL`. -/
theorem CharArray.chars_eq {rest : List Byte} (none : ∀ b ∈ text, b ≠ 0)
    (bytes : c.bytes = text ++ 0 :: rest) : c.chars = text := by
  have all : ∀ b ∈ text, decide (b ≠ 0) = true := fun b member => decide_eq_true (none b member)
  have stops : StopsAt (fun b : Byte => decide (b ≠ 0)) (0 :: rest) := by
    intro b first
    obtain rfl := Option.some.inj first
    rfl
  exact (takeWhile_dropWhile_iff.mpr ⟨bytes, all, stops⟩).1

/-- **The string of an array** ends at its first `NUL`. -/
theorem CharArray.string_eq_some : c.string = some text ↔
    (∀ b ∈ text, b ≠ 0) ∧ ∃ rest, c.bytes = text ++ 0 :: rest := by
  unfold CharArray.string
  constructor
  · intro holds
    obtain ⟨terminated, same⟩ := Option.ite_none_right_eq_some.mp holds
    obtain ⟨all, stops⟩ := longest_run (fun b : Byte => decide (b ≠ 0)) c.bytes
    have split : c.bytes = text ++ c.bytes.dropWhile (· ≠ 0) := by
      rw [← Option.some.inj same]
      exact List.takeWhile_append_dropWhile.symm
    have none : ∀ b ∈ text, b ≠ 0 := by
      rw [← Option.some.inj same]
      exact fun b member => of_decide_eq_true (all b member)
    refine ⟨none, ?_⟩
    cases left : c.bytes.dropWhile (· ≠ 0) with
    | nil =>
      rw [left, List.append_nil] at split
      rw [split] at terminated
      exact absurd rfl (none 0 terminated)
    | cons b rest =>
      have zero : b = 0 := by simpa using stops b (by rw [left]; rfl)
      rw [left, zero] at split
      exact ⟨rest, split⟩
  · rintro ⟨none, rest, bytes⟩
    have terminated : (0 : Byte) ∈ c.bytes := bytes ▸ List.mem_append_right text List.mem_cons_self
    rw [if_pos terminated, CharArray.chars_eq none bytes]

/-- **A string without its `NUL`** is terminated by what was there before. -/
theorem CharArray.string_write (fits : text.length ≤ n) (none : ∀ b ∈ text, b ≠ 0) :
    (dst.write text fits).string = some text ↔ dst.bytes[text.length]? = some 0 := by
  rw [CharArray.string_eq_some, and_iff_right none, ← List.head?_drop, List.head?_eq_some_iff]
  exact exists_congr fun rest => List.append_right_inj text

end Strings

/-! ### Lines -/

section Lines

variable {locals : ℕ → Locals} {line : Line} {e : Entry} {tmp : Mycmd}

theorem entryOf_iff {line : List Byte} : entryOf line = some e ↔ IsCommand line e := by
  unfold entryOf
  constructor
  · intro found
    split at found
    · rename_i reads
      obtain rfl := Option.some.inj found
      exact ⟨_, readAll_iff.mp reads⟩
    · cases found
  · rintro ⟨rest, reads⟩
    rw [readAll_iff.mpr reads]
    rfl

/-- A command has no `NUL` in its text. -/
theorem IsCommand.text_ne {line : List Byte} (command : IsCommand line e) : ∀ b ∈ e.text, b ≠ 0 := by
  obtain ⟨rest, reads⟩ := command
  intro b member
  have assigned : Assign.text .buf e.text ∈ e.values := by simp [Entry.values]
  have inLine : b ∈ cString line := reads.chars assigned member
  exact of_decide_eq_true ((longest_run (fun b : Byte => decide (b ≠ 0)) line).1 b inLine)

/-- A command is scanned to the end. -/
theorem IsCommand.scan_eq {line : List Byte} (command : IsCommand line e) :
    scan cLocale format (cString line) = e.values := by
  obtain ⟨rest, reads⟩ := command
  rw [format, scan_of_scansAll reads, scan_skip, List.append_nil]

theorem store_isSome_iff (s : Scanned) (value : Assign Byte IntDest TextDest) :
    (s.store value).isSome ↔ Fits value := by
  cases value with
  | int dest n =>
    unfold Scanned.store
    split <;> simp [*]
  | text dest chars =>
    unfold Scanned.store
    split <;> simp [*]

/-- What `sscanf` makes of a command. -/
theorem IsCommand.sscanf_eq {line : List Byte} {start period count : ℤ} {s : Scanned}
    (command : IsCommand line e)
    (runs : sscanf line ⟨start, period, count, .zeroed cmdMaxBytes⟩ = some s) :
    s.start = e.start ∧ s.period = e.period ∧ s.count = e.count ∧ s.buf.chars = e.text := by
  unfold sscanf at runs
  rw [command.scan_eq] at runs
  simp only [Entry.values, List.foldlM_cons, List.foldlM_nil, Option.bind_eq_bind,
    Option.bind_eq_some_iff, Scanned.store, Option.ite_none_right_eq_some,
    Option.dite_none_right_eq_some, Option.pure_def, Option.some.injEq] at runs
  obtain ⟨_, ⟨-, rfl⟩, _, ⟨-, rfl⟩, _, ⟨-, rfl⟩, _, ⟨fits, rfl⟩, rfl⟩ := runs
  exact ⟨rfl, rfl, rfl, CharArray.chars_eq command.text_ne (List.append_assoc ..)⟩

/-- **The turn of a command**: `tmp` has its numbers, and its text over what was there. -/
theorem IsCommand.tmpOf_eq (command : IsCommand line.1 e) (runs : tmpOf locals line = some tmp) :
    tmp.start = e.start ∧ tmp.period = e.period ∧ tmp.count = e.count ∧
      ∃ fits, tmp.cmd = (locals line.2).tmpCmd.write e.text fits := by
  obtain ⟨s, scans, rfl⟩ := Option.map_eq_some_iff.mp runs
  obtain ⟨start, period, count, chars⟩ := command.sscanf_eq scans
  refine ⟨start, period, count, chars ▸ s.buf.chars_length, ?_⟩
  simp only [chars]

/-- The slot that a command is copied to holds it if it is terminated. -/
theorem IsCommand.holds_iff (command : IsCommand line.1 e) (runs : tmpOf locals line = some tmp) :
    tmp.Holds e ↔ (locals line.2).tmpCmd.bytes[e.text.length]? = some 0 := by
  obtain ⟨start, period, count, fits, cmd⟩ := command.tmpOf_eq runs
  rw [← CharArray.string_write fits command.text_ne, ← cmd]
  exact ⟨Mycmd.Holds.text, fun text => ⟨start, period, count, text⟩⟩

theorem tmpOf_isSome_iff (locals : ℕ → Locals) (line : Line) : (tmpOf locals line).isSome ↔
    ∀ value ∈ scan cLocale format (cString line.1), Fits value := by
  unfold tmpOf
  dsimp only
  rw [Option.isSome_map]
  exact foldlM_isSome_iff store_isSome_iff _ _

theorem turn_isSome_iff (locals : ℕ → Locals) (s : CronState) (line : Line) :
    (turn locals s line).isSome ↔ (isComment line.1 = false →
      ∀ value ∈ scan cLocale format (cString line.1), Fits value) := by
  unfold turn
  cases comment : isComment line.1 with
  | true =>
    rw [if_pos rfl]
    exact iff_of_true rfl nofun
  | false =>
    rw [if_neg Bool.false_ne_true, Option.isSome_map, tmpOf_isSome_iff]
    exact ⟨fun fits _ => fits, fun fits => fits rfl⟩

end Lines

/-! ### Runs -/

/-- The slots are the turns of the lines that were copied, and the others are zero. -/
structure CronState.Inv (locals : ℕ → Locals) (s : CronState) : Prop where
  count : s.cmdCount = s.stored.length
  atMost : s.stored.length ≤ 3
  filled : ∀ (k : Fin 3) line, s.stored[k.1]? = some line → tmpOf locals line = some (s.cron.slot k)
  unfilled : ∀ k : Fin 3, s.stored[k.1]? = none → s.cron.slot k = .zeroed

section Runs

variable {locals : ℕ → Locals} {s after : CronState} {line : Line} {tmp : Mycmd} {file : List Byte}

/-- The first three commands are copied to their slots. -/
theorem put_of_lt (room : s.cmdCount < 3) (line : Line) (tmp : Mycmd) :
    (s.put line tmp).cmdCount = s.cmdCount + 1 ∧ (s.put line tmp).stored = s.stored ++ [line] ∧
      ∀ k : Fin 3, (s.put line tmp).cron.slot k = if k.1 = s.cmdCount then tmp else s.cron.slot k := by
  unfold CronState.put
  match s.cmdCount, room with
  | 0, _ | 1, _ | 2, _ =>
    refine ⟨rfl, rfl, fun k => ?_⟩
    match k with
    | 0 | 1 | 2 => rfl

theorem put_of_le (full : 3 ≤ s.cmdCount) (line : Line) (tmp : Mycmd) : s.put line tmp = s := by
  unfold CronState.put
  match s.cmdCount, full with
  | _ + 3, _ => rfl

/-- **A command** keeps the invariant. -/
theorem CronState.Inv.put (inv : s.Inv locals) (runs : tmpOf locals line = some tmp) :
    (s.put line tmp).Inv locals ∧ (s.put line tmp).stored = (s.stored ++ [line]).take 3 := by
  by_cases room : s.cmdCount < 3
  · obtain ⟨count, stored, slots⟩ := put_of_lt room line tmp
    have length : (s.stored ++ [line]).length = s.stored.length + 1 := List.length_append
    have within : s.stored.length < 3 := inv.count ▸ room
    refine ⟨⟨?_, ?_, fun k other found => ?_, fun k absent => ?_⟩, ?_⟩
    · rw [count, stored, length, inv.count]
    · rw [stored, length]
      exact within
    · rw [stored] at found
      rw [slots, inv.count]
      by_cases last : k.1 = s.stored.length
      · rw [last, List.getElem?_concat_length] at found
        obtain rfl := Option.some.inj found
        rw [if_pos last]
        exact runs
      · rw [if_neg last]
        have before : k.1 < s.stored.length := by
          have bound := (List.getElem?_eq_some_iff.mp found).1
          omega
        rw [List.getElem?_append_left before] at found
        exact inv.filled k other found
    · rw [stored, List.getElem?_eq_none_iff, length] at absent
      rw [slots, inv.count, if_neg (by omega)]
      exact inv.unfilled k (List.getElem?_eq_none (by omega))
    · rw [stored, List.take_of_length_le (by omega)]
  · have full : 3 ≤ s.stored.length := inv.count ▸ not_lt.mp room
    rw [put_of_le (not_lt.mp room), List.take_append_of_le_length full, List.take_of_length_le inv.atMost]
    exact ⟨inv, rfl⟩

theorem take_take_append {α : Type} (n : ℕ) (l m : List α) :
    (l.take n ++ m).take n = (l ++ m).take n := by
  rw [List.take_append, List.take_append, List.take_take, Nat.min_self, List.length_take]
  have left : n - min n l.length = n - l.length := by omega
  rw [left]

/-- **A run over lines**: the invariant is kept, and the first lines that are no comments are copied. -/
theorem CronState.Inv.run {lines : List Line} (inv : s.Inv locals)
    (runs : lines.foldlM (turn locals) s = some after) :
    after.Inv locals ∧
      after.stored = (s.stored ++ lines.filter fun line => !isComment line.1).take 3 := by
  induction lines generalizing s with
  | nil =>
    obtain rfl := Option.some.inj runs
    rw [List.filter_nil, List.append_nil, List.take_of_length_le inv.atMost]
    exact ⟨inv, rfl⟩
  | cons line lines ih =>
    obtain ⟨next, first, others⟩ := Option.bind_eq_some_iff.mp ((List.foldlM_cons ..).symm.trans runs)
    unfold turn at first
    cases comment : isComment line.1 with
    | true =>
      rw [comment, if_pos rfl] at first
      obtain rfl := Option.some.inj first
      rw [List.filter_cons_of_neg (by simp [comment])]
      exact ih inv others
    | false =>
      rw [comment, if_neg Bool.false_ne_true] at first
      obtain ⟨tmp, turns, rfl⟩ := Option.map_eq_some_iff.mp first
      obtain ⟨kept, stored⟩ := inv.put turns
      obtain ⟨still, copied⟩ := ih kept others
      refine ⟨still, ?_⟩
      rw [copied, stored, List.filter_cons_of_pos (by simp [comment]), take_take_append,
        List.append_assoc, List.singleton_append]

/-- Of a list whose first elements all pass, the same ones are first behind a filter. -/
theorem take_filter_of_forall {α : Type} {p : α → Bool} {n : ℕ} {l : List α}
    (all : ∀ x ∈ l.take n, p x = true) : (l.filter p).take n = l.take n := by
  induction l generalizing n with
  | nil => rfl
  | cons x l ih =>
    cases n with
    | zero => rw [List.take_zero, List.take_zero]
    | succ n =>
      rw [List.take_succ_cons, List.forall_mem_cons] at all
      rw [List.filter_cons_of_pos all.1, List.take_succ_cons, List.take_succ_cons, ih all.2]

/-- A call on an empty table that is defined. -/
theorem loadConfig_inv {ret : ℤ} (loads : loadConfig locals (some file) .zeroed = some (ret, after)) :
    after.Inv locals ∧ after.stored = (configLines file).take 3 := by
  obtain ⟨s, runs, same⟩ := Option.map_eq_some_iff.mp loads
  obtain ⟨rfl, rfl⟩ := Prod.mk.inj same
  have empty : CronState.Inv locals ⟨.zeroed, 0, []⟩ := by
    refine ⟨rfl, Nat.zero_le 3, fun k line found => ?_, fun k _ => ?_⟩
    · cases found
    · match k with
      | 0 | 1 | 2 => rfl
  obtain ⟨inv, stored⟩ := empty.run runs
  exact ⟨inv, stored⟩

/-- A call is defined when every line that is no comment fits. -/
theorem loadConfig_isSome_iff (locals : ℕ → Locals) (file : List Byte) (cron : SimpleCron) :
    (∃ after, loadConfig locals (some file) cron = some (0, after)) ↔
      ∀ line ∈ configLines file, ∀ value ∈ scan cLocale format (cString line.1), Fits value := by
  have runs := foldlM_isSome_iff (turn_isSome_iff locals) (getlines file).zipIdx ⟨cron, 0, []⟩
  have defined : (∃ after, loadConfig locals (some file) cron = some (0, after)) ↔
      ((getlines file).zipIdx.foldlM (turn locals) ⟨cron, 0, []⟩).isSome := by
    rw [Option.isSome_iff_exists]
    exact exists_congr fun after => by simp [loadConfig]
  rw [defined, runs]
  simp [configLines]

end Runs

/-! ### The slots -/

section Slots

variable {locals : ℕ → Locals} {file : List Byte}

theorem mem_commandLines {line : Line} :
    line ∈ commandLines file ↔ line ∈ configLines file ∧ ∃ e, IsCommand line.1 e := by
  rw [commandLines, List.mem_filter, Option.isSome_iff_exists]
  exact and_congr_right fun _ => exists_congr fun _ => entryOf_iff

theorem ConfigLoaded.condition (loaded : ConfigLoaded file locals) : CronCondition file locals := by
  obtain ⟨after, loads, stored, slots⟩ := loaded
  obtain ⟨inv, first⟩ := loadConfig_inv loads
  refine ⟨(loadConfig_isSome_iff ..).mp ⟨after, loads⟩, fun line member => ?_,
    fun line member e command => ?_⟩
  · -- what was copied are lines without a comment, so the first three of these are commands
    rw [← first, stored] at member
    exact (mem_commandLines.mp (List.mem_of_mem_take member)).2
  · rw [← first] at member
    obtain ⟨k, within, at_k⟩ := List.getElem_of_mem member
    have found : after.stored[k]? = some line := List.getElem?_eq_some_iff.mpr ⟨within, at_k⟩
    have three : k < 3 := Nat.lt_of_lt_of_le within inv.atMost
    have slot := slots ⟨k, three⟩
    have own : (commandLines file)[k]? = some line := by
      rw [← found, stored, List.getElem?_take_of_lt three]
    rw [own] at slot
    obtain ⟨e', command', holds⟩ := slot
    obtain rfl : e' = e := Option.some.inj ((entryOf_iff.mpr command').symm.trans (entryOf_iff.mpr command))
    exact (command.holds_iff (inv.filled ⟨k, three⟩ line found)).mp holds

theorem CronCondition.loaded (condition : CronCondition file locals) : ConfigLoaded file locals := by
  obtain ⟨after, loads⟩ := (loadConfig_isSome_iff locals file .zeroed).mpr condition.defined
  obtain ⟨inv, first⟩ := loadConfig_inv loads
  have all : ∀ line ∈ (configLines file).take 3, (entryOf line.1).isSome = true := by
    intro line member
    obtain ⟨e, command⟩ := condition.commands line member
    exact Option.isSome_of_eq_some (entryOf_iff.mpr command)
  have stored : after.stored = (commandLines file).take 3 := first.trans (take_filter_of_forall all).symm
  refine ⟨after, loads, stored, fun k => ?_⟩
  have own : after.stored[k.1]? = (commandLines file)[k.1]? := by
    rw [stored, List.getElem?_take_of_lt k.2]
  cases found : (commandLines file)[k.1]? with
  | none => exact inv.unfilled k (own.trans found)
  | some line =>
    have copied : after.stored[k.1]? = some line := own.trans found
    have member : line ∈ (configLines file).take 3 := first ▸ List.mem_of_getElem? copied
    obtain ⟨e, command⟩ := condition.commands line member
    refine ⟨e, command, (command.holds_iff (inv.filled k line copied)).mpr ?_⟩
    exact condition.terminated line member e command

end Slots

/-- **Each slot depends on its own line** if and only if the first three lines that are no comments are
commands, memory is 0 where their strings end, and no line is undefined. -/
theorem config_loaded_iff (file : List Byte) (locals : ℕ → Locals) :
    ConfigLoaded file locals ↔ CronCondition file locals :=
  ⟨ConfigLoaded.condition, CronCondition.loaded⟩

/-- Memory that is 0 in its numbers and holds one character throughout. -/
def filledWith (c : Byte) : Locals := ⟨0, 0, 0, ⟨List.replicate cmdMaxBytes c, List.length_replicate⟩⟩

/-- **Whatever was in memory**, the slots depend on their own lines only when there are no such lines. -/
theorem loaded_always_iff (file : List Byte) :
    (∀ locals, ConfigLoaded file locals) ↔ configLines file = [] := by
  constructor
  · intro always
    cases lines : configLines file with
    | nil => rfl
    | cons line lines' =>
      have condition := (always fun _ => filledWith 1).condition
      have member : line ∈ (configLines file).take 3 := by
        rw [lines, List.take_succ_cons]
        exact List.mem_cons_self
      obtain ⟨e, command⟩ := condition.commands line member
      have zero : (0 : Byte) ∈ List.replicate cmdMaxBytes 1 :=
        List.mem_of_getElem? (condition.terminated line member e command)
      exact absurd (List.eq_of_mem_replicate zero) (by decide)
  · intro none locals
    refine CronCondition.loaded ⟨?_, ?_, ?_⟩
    all_goals
      rw [none]
      intro line member
      cases member

/-- `1 2 3 ls` and a newline. -/
def tinyCommand : List Byte := [49, 32, 50, 32, 51, 32, 108, 115, 10]

/-- **Slots that are mixed**: a blank line in front is copied to the first slot, even with memory that
is 0, and the command to the second; and in memory that holds an `x` throughout the command has no end. -/
theorem slots_mixed :
    ((loadConfig (fun _ => filledWith 0) (some (newline :: tinyCommand)) .zeroed).map fun r =>
        (r.2.cmdCount, r.2.cron.cmd1.start, r.2.cron.cmd2.start)) = some (2, 0, 1) ∧
    ¬ ConfigLoaded (newline :: tinyCommand) (fun _ => filledWith 0) ∧
    ((loadConfig (fun _ => filledWith 120) (some tinyCommand) .zeroed).map fun r =>
        r.2.cron.cmd1.cmd.string) = some none ∧
    ¬ ConfigLoaded tinyCommand (fun _ => filledWith 120) := by
  refine ⟨by decide, fun loaded => ?_, by decide, fun loaded => ?_⟩
  · obtain ⟨e, command⟩ := loaded.condition.commands ([newline], 0) (by decide)
    exact absurd (entryOf_iff.mpr command) nofun
  · have command : IsCommand tinyCommand ⟨1, 2, 3, [108, 115]⟩ := entryOf_iff.mp rfl
    exact absurd (loaded.condition.terminated (tinyCommand, 0) (by decide) _ command) (by decide)

end Aple.Process
