import Mathlib.Data.List.Sort
import Rebpf.DnsClassify
import Rebpf.ProcDump
import Rebpf.RetireRecord

namespace Rebpf

open Lib DnsState

/-- `parse::<usize>` -/
def parseUsize (s : String) : Option Nat :=
  let digits := match s.toList with
    | '+' :: digits => digits
    | digits => digits
  if digits.isEmpty || !digits.all Char.isDigit then none
  else
    let n := Nat.ofDigitChars 10 digits 0
    if n < 2 ^ 64 then some n else none

/-- `set.entry(pat_id).or_default().insert(name)` -/
def insertName (set : List (Nat × List String)) (row : Nat × String) : List (Nat × List String) :=
  let names := (set.lookup row.1).getD []
  (row.1, if row.2 ∈ names then names else names.orderedInsert (· < ·) row.2) ::
    set.filter (·.1 != row.1)

/-- The row of a record that has an index and the name. -/
def rowOf (key : String) (r : Fields) : Option (Nat × String) := do
  let patId ← parseUsize (← r.lookup "match-id")
  return (patId, ← r.lookup key)

/-- What `listen_proc_names` makes of the replies it gets. -/
def activeProcs (dnsRecords procNames : Option (List Fields)) : List (Nat × List String) :=
  let set := ((dnsRecords.getD []).filterMap (rowOf "name")).foldl insertName []
  ((procNames.getD []).filterMap (rowOf "basename")).foldl insertName set

section

variable {set : List (Nat × List String)} {i : Nat} {name : String}

end

section

variable {dc : DnsCrates} {now : Nat} {dns : DnsState}

end

section

variable {c : Crates} {e : Endian} {alloc : Nat → Option (Nat → UInt8)} {accepts : Accepts}
  {dc : DnsCrates} {p : WordParsers} {poll : Poll} {i : Nat} {name : String}

end

end Rebpf
