/-
**Scanning a text by a format.**

* `Alphabet` — the spaces, digits and signs of the characters; no character is two of them.
* `Directive` — what a format is made of; `read` — one directive on a text; `scan` — a format, from
  left to right up to the first directive that does not match. Its result are the values assigned.
* `Scans`, `ScansAll` — the same as judgments on the text; `read_iff`, `readAll_iff`.
* **`scan_of_scansAll`** — a format that begins with directives that all match assigns their values.
* `ScansAll.chars` — the texts that are assigned are parts of the text.
* `foldlM_isSome_iff` — a fold of steps that can fail, when whether a step fails does not depend on
  the state.
-/

import Mathlib.Data.Int.Notation
import Mathlib.Data.List.TakeWhile
import Mathlib.Data.Nat.Notation

namespace Aple.Lib

/-! ### Longest prefixes -/

section Prefix

variable {α : Type} {p : α → Bool} {input front rest : List α}

/-- A text at whose start there is none of these characters. -/
def StopsAt (p : α → Bool) (rest : List α) : Prop := ∀ c ∈ rest.head?, p c = false

/-- **The longest prefix** of such characters, and what is left. -/
theorem takeWhile_dropWhile_iff : input.takeWhile p = front ∧ input.dropWhile p = rest ↔
    input = front ++ rest ∧ (∀ c ∈ front, p c = true) ∧ StopsAt p rest := by
  constructor
  · rintro ⟨rfl, rfl⟩
    refine ⟨List.takeWhile_append_dropWhile.symm, fun c => List.mem_takeWhile_imp, fun c first => ?_⟩
    have stops := List.head?_dropWhile_not p input
    rw [Option.mem_def.mp first] at stops
    exact stops
  · rintro ⟨rfl, all, stops⟩
    rw [List.takeWhile_append_of_pos all, List.dropWhile_append_of_pos all]
    cases rest with
    | nil => exact ⟨List.append_nil front, rfl⟩
    | cons c rest =>
      have stop : ¬ p c = true := by simp [stops c rfl]
      rw [List.takeWhile_cons_of_neg stop, List.dropWhile_cons_of_neg stop]
      exact ⟨List.append_nil front, rfl⟩

theorem longest_run (p : α → Bool) (input : List α) :
    (∀ c ∈ input.takeWhile p, p c = true) ∧ StopsAt p (input.dropWhile p) :=
  (takeWhile_dropWhile_iff.mp ⟨Eq.refl (input.takeWhile p), rfl⟩).2

theorem stopsAt_append (nonempty : front ≠ []) (none : ∀ c ∈ front, p c = false) (rest : List α) :
    StopsAt p (front ++ rest) := by
  cases front with
  | nil => exact absurd rfl nonempty
  | cons c front =>
    intro first member
    obtain rfl := Option.some.inj member
    exact none c List.mem_cons_self

end Prefix

/-! ### Formats -/

/-- The characters that a format knows. -/
structure Alphabet (α : Type) where
  isSpace : α → Bool
  digit : α → Option ℕ
  sign : α → Option ℤ
  digit_space : ∀ c, (digit c).isSome → isSpace c = false
  sign_space : ∀ c, (sign c).isSome → isSpace c = false
  digit_sign : ∀ c, (digit c).isSome → sign c = none

/-- The directives of a format, with the destinations of the values. -/
inductive Directive (α ι τ : Type)
  | space
  | int (dest : ι)
  | text (dest : τ) (within : α → Bool)
  | skip

/-- A value for a destination. -/
inductive Assign (α ι τ : Type)
  | int (dest : ι) (n : ℤ)
  | text (dest : τ) (chars : List α)
deriving DecidableEq, Repr

variable {α ι τ : Type} (abc : Alphabet α)

namespace Alphabet

def isDigit (c : α) : Bool := (abc.digit c).isSome

/-- The number that digits are written for. -/
def number (digits : List α) : ℕ :=
  digits.foldl (fun n c => 10 * n + (abc.digit c).getD 0) 0

/-- The sign at the start of a text, if there is one. -/
def takeSign : List α → ℤ × List α
  | [] => (1, [])
  | c :: rest =>
    match abc.sign c with
    | some sign => (sign, rest)
    | none => (1, c :: rest)

/-- A number, behind any spaces. -/
def readInt (input : List α) : Option (ℤ × List α) :=
  let (sign, rest) := abc.takeSign (input.dropWhile abc.isSpace)
  let digits := rest.takeWhile abc.isDigit
  if digits.isEmpty then none else some (sign * abc.number digits, rest.dropWhile abc.isDigit)

end Alphabet

/-- What a directive assigns, and the text behind it. -/
def Directive.read (input : List α) : Directive α ι τ → Option (Option (Assign α ι τ) × List α)
  | .space => some (none, input.dropWhile abc.isSpace)
  | .int dest => (abc.readInt input).map fun (n, rest) => (some (.int dest n), rest)
  | .text dest within =>
    let chars := input.takeWhile within
    if chars.isEmpty then none else some (some (.text dest chars), input.dropWhile within)
  | .skip =>
    match input with
    | [] => none
    | _ :: rest => some (none, rest)

/-- **A scan**: the values that are assigned up to the first directive that does not match. -/
def scan : List (Directive α ι τ) → List α → List (Assign α ι τ)
  | [], _ => []
  | d :: ds, input =>
    match d.read abc input with
    | none => []
    | some (value, rest) => value.toList ++ scan ds rest

/-- The values of a format that matches to its end, and the text behind it. -/
def readAll : List (Directive α ι τ) → List α → Option (List (Assign α ι τ) × List α)
  | [], input => some ([], input)
  | d :: ds, input =>
    match d.read abc input with
    | none => none
    | some (value, rest) => (readAll ds rest).map fun (values, last) => (value.toList ++ values, last)

/-! ### What a format matches -/

/-- An optional sign. -/
inductive Sign : List α → ℤ → Prop
  | none : Sign [] 1
  | some {c : α} {sign : ℤ} : abc.sign c = some sign → Sign [c] sign

/-- What a directive matches. -/
inductive Scans : Directive α ι τ → List α → Option (Assign α ι τ) → List α → Prop
  | space {spaces rest : List α} : (∀ c ∈ spaces, abc.isSpace c = true) → StopsAt abc.isSpace rest →
      Scans .space (spaces ++ rest) none rest
  | int {dest : ι} {spaces signs digits rest : List α} {sign : ℤ} :
      (∀ c ∈ spaces, abc.isSpace c = true) → Sign abc signs sign → digits ≠ [] →
      (∀ c ∈ digits, abc.isDigit c = true) → StopsAt abc.isDigit rest →
      Scans (.int dest) (spaces ++ (signs ++ (digits ++ rest)))
        (some (.int dest (sign * abc.number digits))) rest
  | text {dest : τ} {within : α → Bool} {chars rest : List α} : chars ≠ [] →
      (∀ c ∈ chars, within c = true) → StopsAt within rest →
      Scans (.text dest within) (chars ++ rest) (some (.text dest chars)) rest
  | skip {c : α} {rest : List α} : Scans .skip (c :: rest) none rest

/-- What directives match one after the other. -/
inductive ScansAll : List (Directive α ι τ) → List α → List (Assign α ι τ) → List α → Prop
  | nil {input : List α} : ScansAll [] input [] input
  | cons {d : Directive α ι τ} {ds : List (Directive α ι τ)} {input rest last : List α}
      {value : Option (Assign α ι τ)} {values : List (Assign α ι τ)} :
      Scans abc d input value rest → ScansAll ds rest values last →
      ScansAll (d :: ds) input (value.toList ++ values) last

section Matching

variable {abc} {d : Directive α ι τ} {ds es : List (Directive α ι τ)} {input rest last digits : List α}
  {value : Option (Assign α ι τ)} {values : List (Assign α ι τ)}

/-- A sign in front of digits. -/
theorem takeSign_eq {signs : List α} {sign : ℤ} (signed : Sign abc signs sign) (nonempty : digits ≠ [])
    (all : ∀ c ∈ digits, abc.isDigit c = true) (rest : List α) :
    abc.takeSign (signs ++ (digits ++ rest)) = (sign, digits ++ rest) := by
  cases signed with
  | some signed =>
    simp only [List.cons_append, List.nil_append, Alphabet.takeSign, signed]
  | none =>
    cases digits with
    | nil => exact absurd rfl nonempty
    | cons c digits =>
      have unsigned : abc.sign c = none := abc.digit_sign c (all c List.mem_cons_self)
      simp only [List.cons_append, List.nil_append, Alphabet.takeSign, unsigned]

theorem takeSign_sign (abc : Alphabet α) (input : List α) :
    ∃ signs, Sign abc signs (abc.takeSign input).1 ∧ input = signs ++ (abc.takeSign input).2 := by
  cases input with
  | nil => exact ⟨[], .none, rfl⟩
  | cons c rest =>
    cases signed : abc.sign c with
    | none =>
      refine ⟨[], ?_, ?_⟩
      · simp only [Alphabet.takeSign, signed]
        exact .none
      · simp only [Alphabet.takeSign, signed, List.nil_append]
    | some sign =>
      refine ⟨[c], ?_, ?_⟩
      · simp only [Alphabet.takeSign, signed]
        exact .some signed
      · simp only [Alphabet.takeSign, signed, List.cons_append, List.nil_append]

/-- What is read matches. -/
theorem scans_of_read (read : d.read abc input = some (value, rest)) : Scans abc d input value rest := by
  cases d with
  | space =>
    obtain ⟨rfl, rfl⟩ := Prod.mk.inj (Option.some.inj read)
    obtain ⟨all, stops⟩ := longest_run abc.isSpace input
    have reads : Scans abc (.space : Directive α ι τ) _ _ _ := .space all stops
    rwa [List.takeWhile_append_dropWhile] at reads
  | int dest =>
    obtain ⟨⟨n, _⟩, number, same⟩ := Option.map_eq_some_iff.mp read
    obtain ⟨rfl, rfl⟩ := Prod.mk.inj same
    obtain ⟨spaces, -⟩ := longest_run abc.isSpace input
    obtain ⟨signs, signed, body⟩ := takeSign_sign abc (input.dropWhile abc.isSpace)
    obtain ⟨digits, stops⟩ := longest_run abc.isDigit (abc.takeSign (input.dropWhile abc.isSpace)).2
    unfold Alphabet.readInt at number
    dsimp only at number
    obtain ⟨nonempty, same⟩ := Option.ite_none_left_eq_some.mp number
    obtain ⟨rfl, rfl⟩ := Prod.mk.inj (Option.some.inj same)
    have reads : Scans abc (.int dest : Directive α ι τ) _ _ _ :=
      .int spaces signed (mt List.isEmpty_iff.mpr nonempty) digits stops
    rwa [List.takeWhile_append_dropWhile, ← body, List.takeWhile_append_dropWhile] at reads
  | text dest within =>
    obtain ⟨nonempty, same⟩ := Option.ite_none_left_eq_some.mp read
    obtain ⟨rfl, rfl⟩ := Prod.mk.inj (Option.some.inj same)
    obtain ⟨all, stops⟩ := longest_run within input
    have reads : Scans abc (.text dest within : Directive α ι τ) _ _ _ :=
      .text (mt List.isEmpty_iff.mpr nonempty) all stops
    rwa [List.takeWhile_append_dropWhile] at reads
  | skip =>
    cases input with
    | nil => cases read
    | cons c input =>
      obtain ⟨rfl, rfl⟩ := Prod.mk.inj (Option.some.inj read)
      exact .skip

/-- What matches is read. -/
theorem Scans.read (reads : Scans abc d input value rest) : d.read abc input = some (value, rest) := by
  cases reads with
  | space all stops =>
    obtain ⟨-, left⟩ := takeWhile_dropWhile_iff.mpr ⟨rfl, all, stops⟩
    exact congrArg (fun rest => some (none, rest)) left
  | @int dest spaces signs digits rest sign all signed nonempty digitsAll stops =>
    have start : StopsAt abc.isSpace (signs ++ (digits ++ rest)) := by
      cases signed with
      | none => exact stopsAt_append nonempty (fun c member => abc.digit_space c (digitsAll c member)) rest
      | some signed =>
        intro c first
        obtain rfl := Option.some.inj first
        exact abc.sign_space _ (Option.isSome_of_eq_some signed)
    obtain ⟨-, body⟩ := takeWhile_dropWhile_iff.mpr ⟨rfl, all, start⟩
    obtain ⟨taken, left⟩ := takeWhile_dropWhile_iff.mpr ⟨rfl, digitsAll, stops⟩
    have number : abc.readInt (spaces ++ (signs ++ (digits ++ rest))) =
        some (sign * abc.number digits, rest) := by
      unfold Alphabet.readInt
      rw [body, takeSign_eq signed nonempty digitsAll]
      dsimp only
      rw [taken, left, if_neg (mt List.isEmpty_iff.mp nonempty)]
    simp only [Directive.read, number, Option.map_some]
  | text nonempty all stops =>
    obtain ⟨taken, left⟩ := takeWhile_dropWhile_iff.mpr ⟨rfl, all, stops⟩
    unfold Directive.read
    dsimp only
    rw [taken, left, if_neg (mt List.isEmpty_iff.mp nonempty)]
  | skip => rfl

/-- **Reading is what the judgment says.** -/
theorem read_iff : d.read abc input = some (value, rest) ↔ Scans abc d input value rest :=
  ⟨scans_of_read, Scans.read⟩

theorem readAll_iff : readAll abc ds input = some (values, last) ↔ ScansAll abc ds input values last := by
  constructor
  · intro read
    induction ds generalizing input values with
    | nil =>
      obtain ⟨rfl, rfl⟩ := Prod.mk.inj (Option.some.inj read)
      exact .nil
    | cons d ds ih =>
      unfold readAll at read
      cases first : d.read abc input with
      | none =>
        rw [first] at read
        cases read
      | some result =>
        rw [first] at read
        obtain ⟨⟨values', _⟩, others, same⟩ := Option.map_eq_some_iff.mp read
        obtain ⟨rfl, rfl⟩ := Prod.mk.inj same
        exact .cons (read_iff.mp first) (ih others)
  · intro reads
    induction reads with
    | nil => rfl
    | cons first _ ih =>
      unfold readAll
      rw [first.read]
      dsimp only
      rw [ih, Option.map_some]

/-- **Directives that match** assign their values, and the scan goes on behind them. -/
theorem scan_of_scansAll (reads : ScansAll abc ds input values last) (es : List (Directive α ι τ)) :
    scan abc (ds ++ es) input = values ++ scan abc es last := by
  induction reads with
  | nil => rfl
  | cons first _ ih =>
    rw [List.cons_append, scan, first.read]
    dsimp only
    rw [ih, List.append_assoc]

/-- A skipped character assigns nothing. -/
theorem scan_skip (input : List α) : scan abc [(.skip : Directive α ι τ)] input = [] := by
  cases input with
  | nil | cons => rfl

/-- What is left is a part of the text, and so are the characters that are assigned. -/
theorem Scans.chars (reads : Scans abc d input value rest) :
    rest ⊆ input ∧ ∀ dest chars, value = some (.text dest chars) → chars ⊆ input := by
  cases reads with
  | space => exact ⟨List.subset_append_right .., nofun⟩
  | int =>
    refine ⟨?_, nofun⟩
    apply List.Subset.trans (List.subset_append_right ..)
    apply List.Subset.trans (List.subset_append_right ..)
    exact List.subset_append_right ..
  | text =>
    refine ⟨List.subset_append_right .., ?_⟩
    rintro _ _ ⟨⟩
    exact List.subset_append_left ..
  | skip => exact ⟨List.subset_cons_self .., nofun⟩

theorem ScansAll.chars (reads : ScansAll abc ds input values last) {dest : τ} {chars : List α}
    (assigned : .text dest chars ∈ values) : chars ⊆ input := by
  induction reads with
  | nil => cases assigned
  | cons first _ ih =>
    rcases List.mem_append.mp assigned with here | later
    · exact first.chars.2 dest chars (Option.mem_toList.mp here)
    · exact List.Subset.trans (ih later) first.chars.1

end Matching

/-! ### Steps that can fail -/

/-- A fold of steps gets to its end when every step does. -/
theorem foldlM_isSome_iff {State Event : Type} {step : State → Event → Option State}
    {ok : Event → Prop} (steps : ∀ s e, (step s e).isSome ↔ ok e) (events : List Event) (s : State) :
    (events.foldlM step s).isSome ↔ ∀ e ∈ events, ok e := by
  induction events generalizing s with
  | nil => exact iff_of_true rfl fun _ member => absurd member List.not_mem_nil
  | cons e events ih =>
    rw [List.foldlM_cons, List.forall_mem_cons]
    cases first : step s e with
    | none =>
      have fails : ¬ ok e := fun holds => by simpa [first] using (steps s e).mpr holds
      exact iff_of_false nofun fun all => fails all.1
    | some after =>
      have holds : ok e := (steps s e).mp (first ▸ rfl)
      exact (ih after).trans (iff_and_self.mpr fun _ => holds)

end Aple.Lib
