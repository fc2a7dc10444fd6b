/-
**Programs that read a memory.**

* `ReadProg` — read an address, go on with the value found there, or end with a result. `run` gives
  the result in a memory, `reads` the addresses that were read.
* **`run_congr`**, `reads_congr` — only the values at these addresses matter.
* `place` — a memory that holds a list at its start; `readSpan`, `readWord` — read some consecutive
  values, or a word in such bytes.
* `Confined` — whatever stands elsewhere, only the list is read; `Confined.run_eq` — then the rest
  of the memory does not matter. `confined_bind`, `confined_readWord_bind` — one part after another;
  `confined_readSpan` — what is read is in the list.
-/

import Aple.Lib.Words
import Mathlib.Data.Int.Notation
import Mathlib.Data.List.GetD
import Mathlib.Order.Basic

namespace Aple.Lib

/-- A program over addresses and values. -/
inductive ReadProg (Addr Value Result : Type)
  | done (result : Result)
  | read (addr : Addr) (next : Value → ReadProg Addr Value Result)

namespace ReadProg

variable {Addr Value Result Next : Type}

/-- Go on with the result. -/
def bind : ReadProg Addr Value Result → (Result → ReadProg Addr Value Next) →
    ReadProg Addr Value Next
  | done result, rest => rest result
  | read addr next, rest => read addr fun value => (next value).bind rest

instance : Monad (ReadProg Addr Value) where
  pure := done
  bind := bind

/-- The result in a memory. -/
def run (mem : Addr → Value) : ReadProg Addr Value Result → Result
  | done result => result
  | read addr next => (next (mem addr)).run mem

/-- The addresses that are read in a memory, in order. -/
def reads (mem : Addr → Value) : ReadProg Addr Value Result → List Addr
  | done _ => []
  | read addr next => addr :: (next (mem addr)).reads mem

section Laws

variable (mem : Addr → Value) (prog : ReadProg Addr Value Result)
  (rest : Result → ReadProg Addr Value Next)

@[simp] theorem run_pure (result : Result) :
    (pure result : ReadProg Addr Value Result).run mem = result := rfl

@[simp] theorem reads_pure (result : Result) :
    (pure result : ReadProg Addr Value Result).reads mem = [] := rfl

@[simp] theorem run_bind : (prog >>= rest).run mem = (rest (prog.run mem)).run mem := by
  induction prog with
  | done result => rfl
  | read addr next ih => exact ih (mem addr)

@[simp] theorem reads_bind :
    (prog >>= rest).reads mem = prog.reads mem ++ (rest (prog.run mem)).reads mem := by
  induction prog with
  | done result => rfl
  | read addr next ih => exact congrArg (addr :: ·) (ih (mem addr))

end Laws

section Agreement

variable {mem mem' : Addr → Value} {prog : ReadProg Addr Value Result}

/-- **Only what is read matters.** -/
theorem run_congr (agree : ∀ addr ∈ prog.reads mem, mem addr = mem' addr) :
    prog.run mem = prog.run mem' := by
  induction prog with
  | done result => rfl
  | read addr next ih =>
    have first : mem addr = mem' addr := agree addr (List.mem_cons_self ..)
    rw [run, run, ← first]
    exact ih (mem addr) fun other member => agree other (List.mem_cons_of_mem _ member)

theorem reads_congr (agree : ∀ addr ∈ prog.reads mem, mem addr = mem' addr) :
    prog.reads mem = prog.reads mem' := by
  induction prog with
  | done result => rfl
  | read addr next ih =>
    have first : mem addr = mem' addr := agree addr (List.mem_cons_self ..)
    rw [reads, reads, ← first]
    exact congrArg (addr :: ·)
      (ih (mem addr) fun other member => agree other (List.mem_cons_of_mem _ member))

end Agreement

/-! ### A list in memory -/

/-- The offsets of a list that starts at zero. -/
def Within (payload : List Value) (addr : ℤ) : Prop := 0 ≤ addr ∧ addr < payload.length

instance (payload : List Value) (addr : ℤ) : Decidable (Within payload addr) :=
  inferInstanceAs (Decidable (_ ∧ _))

/-- A memory with a list at its start, and `left` elsewhere. -/
def place (payload : List Value) (left : ℤ → Value) (addr : ℤ) : Value :=
  if Within payload addr then payload.getD addr.toNat (left addr) else left addr

/-- Two memories with the same list agree on it. -/
theorem place_within {payload : List Value} {addr : ℤ} (within : Within payload addr)
    (left left' : ℤ → Value) : place payload left addr = place payload left' addr := by
  have bound : addr.toNat < payload.length := (Int.toNat_lt within.1).mpr within.2
  rw [place, place, if_pos within, if_pos within, List.getD_eq_getElem _ _ bound,
    List.getD_eq_getElem _ _ bound]

theorem place_getElem {payload : List Value} {i : ℕ} (bound : i < payload.length)
    (left : ℤ → Value) : place payload left i = payload[i] := by
  rw [place, if_pos ⟨Int.natCast_nonneg i, Int.ofNat_lt.mpr bound⟩, Int.toNat_natCast,
    List.getD_eq_getElem _ _ bound]

/-- Whatever stands elsewhere, the program reads the list only. -/
def Confined (payload : List Value) (prog : ReadProg ℤ Value Result) : Prop :=
  ∀ left, ∀ addr ∈ prog.reads (place payload left), Within payload addr

section Confined

variable {payload : List Value} {prog : ReadProg ℤ Value Result}

/-- **What stands elsewhere does not matter.** -/
theorem Confined.run_eq (confined : Confined payload prog) (left left' : ℤ → Value) :
    prog.run (place payload left) = prog.run (place payload left') :=
  run_congr fun addr member => place_within (confined left addr member) left left'

/-- One memory is enough to tell. -/
theorem confined_iff (left : ℤ → Value) :
    Confined payload prog ↔ ∀ addr ∈ prog.reads (place payload left), Within payload addr := by
  refine ⟨fun confined => confined left, fun inside left' => ?_⟩
  have same : prog.reads (place payload left) = prog.reads (place payload left') :=
    reads_congr fun addr member => place_within (inside addr member) left left'
  rw [← same]
  exact inside

theorem confined_pure (result : Result) :
    Confined payload (pure result : ReadProg ℤ Value Result) := by
  intro left addr member
  cases member

/-- One part after the other. -/
theorem confined_bind (left : ℤ → Value) (rest : Result → ReadProg ℤ Value Next) :
    Confined payload (prog >>= rest) ↔
      Confined payload prog ∧ Confined payload (rest (prog.run (place payload left))) := by
  rw [confined_iff left, confined_iff left, confined_iff left, reads_bind]
  exact List.forall_mem_append

/-- What is done with the result without a read. -/
theorem confined_bind_pure (finish : Result → Next) :
    Confined payload (prog >>= fun result => pure (finish result)) ↔ Confined payload prog := by
  simp only [Confined, reads_bind, reads_pure, List.append_nil]

end Confined

/-! ### Consecutive values and words -/

/-- Read some consecutive values. -/
def readSpan (start : ℤ) : ℕ → ReadProg ℤ Value (List Value)
  | 0 => pure []
  | count + 1 => do
    let value ← read start pure
    let values ← readSpan (start + 1) count
    pure (value :: values)

theorem run_readSpan (mem : ℤ → Value) (count : ℕ) (start : ℤ) :
    (readSpan start count).run mem = (List.range count).map fun i : ℕ => mem (start + i) := by
  induction count generalizing start with
  | zero => rfl
  | succ count ih =>
    rw [readSpan, List.range_succ_eq_map, List.map_cons, List.map_map]
    simp only [run_bind, run_pure, ih, run, Function.comp_def, Nat.cast_zero, Nat.cast_succ,
      add_zero]
    congr 2
    funext i
    ring_nf

theorem mem_reads_readSpan (mem : ℤ → Value) {addr : ℤ} (count : ℕ) (start : ℤ) :
    addr ∈ (readSpan start count).reads mem ↔ start ≤ addr ∧ addr < start + count := by
  induction count generalizing start with
  | zero =>
    rw [readSpan, reads_pure, Nat.cast_zero]
    refine iff_of_false List.not_mem_nil ?_
    omega
  | succ count ih =>
    rw [readSpan]
    simp only [reads_bind, reads_pure, reads, ih, List.append_nil, List.mem_append, List.mem_cons,
      List.not_mem_nil, or_false, Nat.cast_succ, run]
    omega

/-- Some consecutive values of the list are read, or none. -/
theorem confined_readSpan [Inhabited Value] {payload : List Value} {start : ℤ} {count : ℕ} :
    Confined payload (readSpan start count) ↔
      count = 0 ∨ 0 ≤ start ∧ start + count ≤ payload.length := by
  rw [confined_iff fun _ => default]
  simp only [mem_reads_readSpan]
  constructor
  · intro inside
    by_cases none : count = 0
    · exact .inl none
    · have first := inside start (by omega)
      have last := inside (start + count - 1) (by omega)
      rw [Within] at first last
      omega
  · intro inside addr bounds
    rw [Within]
    omega

/-- The word of some bytes, lowest first. -/
def word (size : ℕ) (bytes : List Byte) : BitVec (8 * size) :=
  BitVec.ofNat (8 * size) (ofBytes bytes)

/-- Read a word. -/
def readWord (start size : ℕ) : ReadProg ℤ Byte (BitVec (8 * size)) := do
  let bytes ← readSpan start size
  pure (word size bytes)

/-- The word at an offset of a list of bytes. -/
def wordAt (payload : List Byte) (start size : ℕ) : BitVec (8 * size) :=
  word size ((payload.drop start).take size)

section Words

variable {payload : List Byte} {start size : ℕ}

theorem run_readWord (inside : start + size ≤ payload.length) (left : ℤ → Byte) :
    (readWord start size).run (place payload left) = wordAt payload start size := by
  have bytes : (readSpan start size).run (place payload left) = (payload.drop start).take size := by
    rw [run_readSpan]
    apply List.ext_getElem
    · rw [List.length_map, List.length_range, List.length_take, List.length_drop]
      omega
    · intro i below _
      rw [List.length_map, List.length_range] at below
      rw [List.getElem_map, List.getElem_range, List.getElem_take, List.getElem_drop,
        ← Nat.cast_add, place_getElem (by omega)]
  rw [readWord, run_bind, run_pure, bytes, wordAt]

theorem confined_readWord (pos : 0 < size) :
    Confined payload (readWord start size) ↔ start + size ≤ payload.length := by
  refine (confined_bind_pure _).trans (confined_readSpan.trans ?_)
  omega

/-- **A word, and what is done with it.** -/
theorem confined_readWord_bind (pos : 0 < size)
    (rest : BitVec (8 * size) → ReadProg ℤ Byte Result) :
    Confined payload (readWord start size >>= rest) ↔
      start + size ≤ payload.length ∧ Confined payload (rest (wordAt payload start size)) := by
  rw [confined_bind (fun _ => 0), confined_readWord pos]
  refine and_congr_right fun inside => ?_
  rw [run_readWord inside]

end Words

end ReadProg

end Aple.Lib
