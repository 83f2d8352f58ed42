import Rebpf.Encode

namespace Rebpf

open Lib

structure Matches where
  /-- The source's `matches`. -/
  entries : List Match
  generation : UInt64
  dnsCount : Int32
deriving DecidableEq, Repr

def Matches.default : Matches := { entries := [], generation := 0, dnsCount := 0 }

structure DnsDfa where
  redir : DenseDfa
  redirMap : List Nat
  bypass : DenseDfa
  bypassMap : List Nat

def pathPatterns (c : Crates) (ms : List Match) : List (String × Nat) :=
  ms.zipIdx.filterMap fun (m, i) => (pathPattern c m).map (·, i)

def dnsPatterns (c : Crates) (ms : List Match) (direction : Direction) : List (String × Nat) :=
  ms.zipIdx.filterMap fun (m, i) =>
    if m.direction = direction then (dnsPattern c m).map (·, i) else none

namespace Matches

def update (self : Matches) : Matches :=
  { self with dnsCount := .ofNat (self.entries.filter Match.isDns).length }

def buildDnsDfa (c : Crates) (self : Matches) : Except Failure DnsDfa := do
  let redir := dnsPatterns c self.entries .redirect
  let bypass := dnsPatterns c self.entries .bypass
  let redirDfa ← buildDfa c (redir.map (·.1)) false
  let bypassDfa ← buildDfa c (bypass.map (·.1)) false
  return {
    redir := redirDfa
    redirMap := redir.map (·.2)
    bypass := bypassDfa
    bypassMap := bypass.map (·.2) }

def buildPathDfa (c : Crates) (e : Endian) (self : Matches) (arena : List UInt8) :
    Except Failure (BpfDfa × List UInt8) :=
  let pats := pathPatterns c self.entries
  encodeDfa c e (pats.map (·.1)) arena (pats.map (·.2)) self.entries

theorem buildPathDfa_slashARule {self : Matches} {direction : Direction} {uid : UInt32}
    {rest : List Match} (h : self.entries = slashARule direction uid :: rest)
    (built : buildDfa slashACrates ((pathPatterns slashACrates self.entries).map (·.1)) true =
      .ok slashADfa) :
    self.buildPathDfa slashACrates .little [] = .ok (slashABpf, slashAArena direction uid) := by
  rw [buildPathDfa]
  rw [h] at built ⊢
  exact slashARule_encodes built direction uid _ rest

end Matches

/-- `Ipv4Addr::from_str` of the standard library: four decimal numbers of at
most three digits, without leading zeros. -/
def parseIpv4Addr (s : String) : Option UInt32 :=
  let octet (digits : List Char) : Option Nat :=
    if digits.length = 0 ∨ 3 < digits.length ∨ !digits.all Char.isDigit ∨
        (1 < digits.length ∧ digits.head? = some '0') then none
    else
      let n := digits.foldl (fun n d => 10 * n + (d.toNat - '0'.toNat)) 0
      if n ≤ 255 then some n else none
  match s.toList.splitOn '.' with
  | [a, b, c, d] => do
    let a ← octet a
    let b ← octet b
    let c ← octet c
    let d ← octet d
    return .ofNat (((a * 256 + b) * 256 + c) * 256 + d)
  | _ => none

/-- How a call ends and the list it leaves behind. -/
abbrev Outcome := Except Failure Unit × Matches

namespace Matches

/-- Pushes an entry, tries a build, and pops it again unless the build panics. -/
def tryWith {α : Type} (self : Matches) (m : Match) (build : Matches → Except Failure α) :
    Outcome :=
  let pushed := { self with entries := self.entries ++ [m] }
  match build pushed with
  | .ok _ => (.ok (), { pushed with entries := pushed.entries.dropLast })
  | .error (.err msg) => (.error (.err msg), { pushed with entries := pushed.entries.dropLast })
  | .error .panic => (.error .panic, pushed)

def tryParse (c : Crates) (e : Endian) (self : Matches) (m : Match) : Outcome :=
  match m.kind with
  | .basename | .path => self.tryWith m fun ms => ms.buildPathDfa c e []
  | .ipv4 =>
    match m.method with
    | .full => (orErr ((parseIpv4Addr m.pattern).map fun _ => ())
        (.err "invalid IPv4 address syntax"), self)
    | .subnet => (((c.parseIpNet m.pattern).map fun _ => ()).mapError .err, self)
    | _ => (.error (.err s!"Invalid method {m.method.name} for kind {m.kind.name}"), self)
  | .dns => self.tryWith m fun ms => ms.buildDnsDfa c

def add (c : Crates) (e : Endian) (self : Matches) (new : Match) : Outcome :=
  match self.tryParse c e new with
  | (.error f, self) => (.error f, self)
  | (.ok _, self) =>
    (.ok (), { self with
      dnsCount := self.dnsCount + (if new.isDns then 1 else 0)
      entries := self.entries ++ [new]
      generation := self.generation + 1 })

def position (self : Matches) (m : Match) : Option Nat :=
  self.entries.findIdx? (·.isEqTo m)

def replace (c : Crates) (e : Endian) (self : Matches) (old new : Match) : Outcome :=
  match self.tryParse c e old with
  | (.error f, self) => (.error f, self)
  | (.ok _, self) =>
    match self.tryParse c e new with
    | (.error f, self) => (.error f, self)
    | (.ok _, self) =>
      match self.position old with
      | none => (.error (.err "No such match"), self)
      | some pos =>
        (.ok (), { self with
          dnsCount := self.dnsCount +
            ((if new.isDns then 1 else 0) - (if old.isDns then 1 else 0))
          entries := self.entries.set pos new
          generation := self.generation + 1 })

def del (c : Crates) (e : Endian) (self : Matches) (m : Match) : Outcome :=
  match self.tryParse c e m with
  | (.error f, self) => (.error f, self)
  | (.ok _, self) =>
    match self.position m with
    | none => (.error (.err "No such match"), self)
    | some pos =>
      (.ok (), { self with
        dnsCount := self.dnsCount -
          (match self.entries[pos]? with
            | some old => if old.isDns then 1 else 0
            | none => 0)
        entries := self.entries.eraseIdx pos
        generation := self.generation + 1 })

end Matches

end Rebpf
