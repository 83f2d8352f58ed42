import Rebpf.Lib.Outcome

namespace Rebpf

/-- How a fallible function of the daemon can end: with an error it returns,
or with a panic (a failed assertion, an index out of bounds, an `unwrap`). -/
inductive Failure
  | err (message : String)
  | panic
deriving DecidableEq, Repr

def dead : Nat := 0

/-- regex-automata's dense DFA, as far as the daemon reads it. State ids are
premultiplied: they are the offsets of their rows in the transition table.
The proof fields are the library's own invariants. -/
structure DenseDfa where
  byteClass : UInt8 → UInt8
  /-- The class of the end-of-input symbol, one past the byte classes. -/
  eoi : Fin 257
  stride : Nat
  table : List Nat
  start : Except String Nat
  minMatch : Nat
  maxMatch : Nat
  /-- Pattern ids of the match states, row by row from `minMatch`. -/
  pats : List (List Nat)
  aligned : ∀ t ∈ table, stride ∣ t
  start_aligned : ∀ s, start = .ok s → stride ∣ s
  match_aligned : stride ∣ minMatch ∧ stride ∣ maxMatch
  dead_row : ∀ c, c < stride → table[c]? = some dead
  class_zero : byteClass 0 = 0
  class_lt : ∀ b, (byteClass b).toNat < stride
  eoi_lt : eoi.val < stride

namespace DenseDfa

/-- Match states are contiguous, and the dead state is never one of them. -/
def isMatchState (d : DenseDfa) (s : Nat) : Bool :=
  d.minMatch != dead && d.minMatch ≤ s && s ≤ d.maxMatch

def matchPatterns (d : DenseDfa) (s : Nat) : Option (List Nat) :=
  d.pats[(s - d.minMatch) / d.stride]?

def nextState (d : DenseDfa) (s : Nat) (b : UInt8) : Option Nat :=
  d.table[s + (d.byteClass b).toNat]?

def nextEoiState (d : DenseDfa) (s : Nat) : Option Nat :=
  d.table[s + d.eoi.val]?

def runBytes (d : DenseDfa) : Nat → List UInt8 → Option Nat
  | s, [] => some s
  | s, b :: bytes => do
    let next ← d.nextState s b
    d.runBytes next bytes

/-- The state an anchored search ends in: the bytes one by one, then end of input. -/
def search (d : DenseDfa) (bytes : List UInt8) : Option Nat := do
  let s ← d.start.toOption
  let t ← d.runBytes s bytes
  d.nextEoiState t

variable {d : DenseDfa}

theorem stride_pos (d : DenseDfa) : 0 < d.stride := Nat.lt_of_le_of_lt (Nat.zero_le _) d.eoi_lt

theorem isMatchState_iff {s : Nat} :
    d.isMatchState s = true ↔ d.minMatch ≠ dead ∧ d.minMatch ≤ s ∧ s ≤ d.maxMatch := by
  simp [isMatchState, and_assoc]

theorem not_isMatchState_dead (d : DenseDfa) : d.isMatchState dead = false := by
  rw [Bool.eq_false_iff]
  intro h
  obtain ⟨hne, hle, _⟩ := isMatchState_iff.mp h
  exact hne (Nat.le_zero.mp hle)

theorem nextState_dead (d : DenseDfa) (b : UInt8) : d.nextState dead b = some dead := by
  simpa [nextState, dead] using d.dead_row _ (d.class_lt b)

theorem nextEoiState_dead (d : DenseDfa) : d.nextEoiState dead = some dead := by
  simpa [nextEoiState, dead] using d.dead_row _ d.eoi_lt

theorem runBytes_dead (d : DenseDfa) (bytes : List UInt8) :
    d.runBytes dead bytes = some dead := by
  induction bytes with
  | nil => rfl
  | cons b bytes ih => simp [runBytes, nextState_dead, ih]

theorem runBytes_append (d : DenseDfa) (s : Nat) (xs ys : List UInt8) :
    d.runBytes s (xs ++ ys) = (d.runBytes s xs).bind (d.runBytes · ys) := by
  induction xs generalizing s with
  | nil => rfl
  | cons b xs ih =>
    cases h : d.nextState s b with
    | none => simp [runBytes, h]
    | some next => simp [runBytes, h, ih]

end DenseDfa

/-- The reverse DFA of `^/a$`: after the dead and the quit row, the match row, the start row,
that of a search inside a text, and the rows that are reached by the slash after `a`, and
by `a`. -/
def slashADfa : DenseDfa where
  byteClass b := if b < 47 then 0 else if b = 47 then 1 else if b < 97 then 2 else
    if b = 97 then 3 else 4
  eoi := 5
  stride := 8
  table := List.replicate 24 0 ++ [0, 0, 0, 48, 0, 0, 0, 0] ++ List.replicate 8 0 ++
    [0, 0, 0, 0, 0, 16, 0, 0] ++ [0, 40, 0, 0, 0, 0, 0, 0]
  start := .ok 24
  minMatch := 16
  maxMatch := 16
  pats := [[0]]
  aligned := by decide
  start_aligned := by rintro s ⟨⟩; decide
  match_aligned := by decide
  dead_row := by decide
  class_zero := rfl
  class_lt b := by
    show (if b < 47 then (0 : UInt8) else _).toNat < 8
    split_ifs <;> decide
  eoi_lt := by decide

end Rebpf
