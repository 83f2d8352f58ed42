import Rebpf.Encode

namespace Rebpf

open Lib

def nameMax : Nat := 255

def pathMax : Nat := 4096

def slash : UInt8 := 47

/-- A dentry with its chain of parents. The chain ends where `d_parent` is
NULL or the dentry itself. -/
inductive Dentry
  | root (name : List UInt8)
  | child (name : List UInt8) (parent : Dentry)
deriving DecidableEq, Repr

namespace Dentry

def name : Dentry → List UInt8
  | root name => name
  | child name _ => name

/-- The path string of a dentry: each component preceded by a slash, up to the
root directory, whose name is the slash alone. -/
def path : Dentry → List UInt8
  | root name => if name = [slash] then [] else slash :: name
  | child name parent => if name = [slash] then [] else parent.path ++ slash :: name

def components : Dentry → Nat
  | root name => if name = [slash] then 0 else 1
  | child name parent => if name = [slash] then 0 else parent.components + 1

def NamesFit : Dentry → Prop
  | root name => name.length ≤ nameMax + 1
  | child name parent => name.length ≤ nameMax + 1 ∧ parent.NamesFit

def WithinLimits (d : Dentry) : Prop := d.components ≤ pathMax ∧ d.NamesFit

end Dentry

section

variable (e : Endian) (mem : Mem)

/-- The loop of `match_regex_rev`, given the bytes from the last to the first. -/
def matchRegexRevLoop (dfa : BpfDfa) : List UInt8 → Nat → Option Nat
  | [], this => some this
  | b :: rest, this =>
    if this = dead then some this
    else do
      let cls ← mem (dfa.dfaOff + b.toNat)
      let next ← mem.word e (dfa.dfaOff + 256 + 4 * u32 (this + cls.toNat))
      matchRegexRevLoop dfa rest next

def matchRegexRev (input : List UInt8) (dfa : BpfDfa) : Option (Bool × BpfDfa) :=
  if nameMax + 1 < input.length then some (false, dfa)
  else do
    let this ← matchRegexRevLoop e mem dfa input.reverse dfa.start
    return (this != dead, { dfa with start := this })

def matchRegexRevFin (dfa : BpfDfa) : Option (Bool × BpfDfa) :=
  if dfa.start = dead then some (false, dfa)
  else do
    let this ← mem.word e (dfa.dfaOff + 256 + 4 * u32 (dfa.start + dfa.eoi))
    return (dfa.finMin ≤ this && this ≤ dfa.finMax, { dfa with start := this })

/-- The `bpf_for` of `match_regex_rev_path`; the number is of the rounds left. -/
def matchRegexRevPathLoop : Nat → Dentry → BpfDfa → Option (Bool × BpfDfa)
  | 0, _, dfa => matchRegexRevFin e mem dfa
  | rounds + 1, dent, dfa =>
    if dent.name = [slash] then matchRegexRevFin e mem dfa
    else do
      let (go, dfa) ← matchRegexRev e mem dent.name dfa
      if go = false then some (false, dfa)
      else do
        let (go, dfa) ← matchRegexRev e mem [slash] dfa
        if go = false then some (false, dfa)
        else match dent with
          | .root _ => matchRegexRevFin e mem dfa
          | .child _ parent => matchRegexRevPathLoop rounds parent dfa

def matchRegexRevPath (dent : Dentry) (dfa : BpfDfa) : Option (Bool × BpfDfa) :=
  matchRegexRevPathLoop e mem pathMax dent dfa

end

def slashA : Dentry := .child [97] (.root [slash])

theorem slashA_withinLimits : slashA.WithinLimits :=
  ⟨by decide, show 1 ≤ 256 by decide, show 1 ≤ 256 by decide⟩

end Rebpf
