import Rebpf.Match
import Mathlib.Data.List.DropRight

namespace Rebpf

open Lib

def stateSize : Nat := 4

def stateIdMax : Nat := 2 ^ 31 - 2

/-- `dfa::DFA`, less the parts only its debug output prints. -/
structure Dfa where
  eoiClass : Nat
  ecTable : List UInt8
  stride : Nat
  trans : List Nat
  pats : List (List Nat)
  finMin : Nat
  finMax : Nat
  start : Nat
deriving DecidableEq, Repr

structure Extraction where
  i : Nat
  max : Nat
  trans : List Nat
  dead : List Nat
  fin : List Nat
  pats : List (List Nat)
deriving DecidableEq, Repr

def Extraction.init (start : Nat) : Extraction :=
  { i := 0, max := start, trans := [], dead := [], fin := [], pats := [] }

def readPatterns (d : DenseDfa) (s : Nat) : Except Failure (Option (List Nat)) :=
  if d.isMatchState s then (orErr (d.matchPatterns s) .panic).map some else .ok none

def extractStep (d : DenseDfa) (x : Extraction) : Except Failure Extraction := do
  ensure (x.i ≤ stateIdMax) .panic
  let next ← orErr (d.nextState x.i 0) .panic
  let listed ← readPatterns d x.i
  return {
    i := x.i + 1
    max := Nat.max next x.max
    trans := x.trans ++ [next]
    dead := if x.i = dead then x.dead ++ [x.i] else x.dead
    fin := if listed.isSome then x.fin ++ [x.i] else x.fin
    pats := match listed with
      | some ids => x.pats ++ [ids]
      | none => if x.pats.isEmpty then x.pats else x.pats ++ [[]] }

/-- The loop runs while `i < max + stride`, and `max` grows with the states it
meets. It panics at the end of the table, so one more round than there are
transitions is all it can make. -/
def extractLoop (d : DenseDfa) : Nat → Extraction → Except Failure Extraction
  | 0, _ => .error .panic
  | fuel + 1, x =>
    if x.i < x.max + d.stride then do
      let x ← extractStep d x
      extractLoop d fuel x
    else .ok x

def extract (d : DenseDfa) : Except Failure Dfa := do
  let start ← d.start.mapError .err
  let x ← extractLoop d (d.table.length + 1) (.init start)
  ensure (x.trans.length * stateSize ≤ dfaMaxSize)
    (.err s!"Constructed DFA has too many states: {x.trans.length}")
  let finMin ← orErr x.fin.min? (.err "Expected at least 1 final state.")
  let finMax ← orErr x.fin.max? .panic
  ensure ((List.range' finMin (finMax + 1 - finMin)).all d.isMatchState) .panic
  ensure ((List.range d.stride).all fun i => x.trans[i]? == some 0) .panic
  ensure (x.dead == [dead]) .panic
  return {
    finMin
    finMax
    eoiClass := d.eoi.val % 2 ^ 16
    ecTable := (List.range 256).map fun b => d.byteClass (.ofNat b)
    pats := x.pats.rdropWhile List.isEmpty
    trans := x.trans
    stride := d.stride
    start }

def extractDfa (c : Crates) (pats : List String) : Except Failure Dfa := do
  let d ← buildDfa c pats true
  extract d

end Rebpf
