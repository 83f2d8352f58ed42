import Rebpf.DenseDfa

namespace Rebpf

inductive Kind
  | basename
  | path
  | ipv4
  | dns
deriving DecidableEq, Repr

/-- `prefixOf` is the source's `prefix`, a reserved word here. -/
inductive Method
  | full
  | substring
  | prefixOf
  | suffix
  | regex
  | subnet
deriving DecidableEq, Repr

inductive Direction
  | redirect
  | bypass
deriving DecidableEq, Repr

def Kind.name : Kind → String
  | .basename => "basename"
  | .path => "path"
  | .ipv4 => "ipv4"
  | .dns => "dns"

def Method.name : Method → String
  | .full => "full"
  | .substring => "substring"
  | .prefixOf => "prefix"
  | .suffix => "suffix"
  | .regex => "regex"
  | .subnet => "subnet"

def Direction.name : Direction → String
  | .redirect => "redirect"
  | .bypass => "bypass"

def Direction.code : Direction → UInt8
  | .bypass => 0
  | .redirect => 1

structure Match where
  pattern : String
  kind : Kind
  method : Method
  direction : Direction
  uid : UInt32
deriving DecidableEq, Repr

namespace Match

def isDns (m : Match) : Bool :=
  match m.kind with
  | .dns => true
  | _ => false

def isPerProcess (m : Match) : Bool :=
  match m.kind with
  | .basename | .path => true
  | _ => false

/-- Entries are compared without their method. -/
def isEqTo (m r : Match) : Bool :=
  m.kind == r.kind && m.pattern == r.pattern && m.direction == r.direction && m.uid == r.uid

@[simp] theorem isEqTo_iff {m r : Match} : m.isEqTo r = true ↔
    m.kind = r.kind ∧ m.pattern = r.pattern ∧ m.direction = r.direction ∧ m.uid = r.uid := by
  simp [isEqTo, and_assoc]

theorem isEqTo_isPerProcess {m r : Match} (h : m.isEqTo r = true) :
    m.isPerProcess = r.isPerProcess := by
  simp [isPerProcess, (isEqTo_iff.mp h).1]

theorem isEqTo_isDns {m r : Match} (h : m.isEqTo r = true) : m.isDns = r.isDns := by
  simp [isDns, (isEqTo_iff.mp h).1]

end Match

def dfaMaxSize : Nat := 2 ^ 20

inductive StartKind
  | both
  | unanchored
  | anchored
deriving DecidableEq, Repr

inductive MatchKind
  | all
  | leftmostFirst
deriving DecidableEq, Repr

/-- The options `build_dfa` hands to the DFA builder, with the library's
default for the one it leaves alone. -/
structure BuilderConfig where
  reverse : Bool
  shrink : Bool
  startKind : StartKind
  dfaSizeLimit : Option Nat
  accelerate : Bool
  matchKind : MatchKind := .leftmostFirst
deriving DecidableEq, Repr

structure Ipv4Net where
  addr : UInt32
  prefixLen : Nat
deriving DecidableEq, Repr

def Ipv4Net.network (n : Ipv4Net) : UInt32 :=
  .ofNat (n.addr.toNat / 2 ^ (32 - n.prefixLen) * 2 ^ (32 - n.prefixLen))

inductive IpNet
  | v4 (net : Ipv4Net)
  | v6 (addr : BitVec 128) (prefixLen : Nat)
deriving DecidableEq, Repr

/-- The third-party functions behind the rule list: `regex_syntax::escape`, the
dense DFA builder, `netlink_bindings::utils::align` and the parsers of `ipnet`. -/
structure Crates where
  escape : String → String
  buildMany : BuilderConfig → List String → Except String DenseDfa
  align : List UInt8 → List UInt8
  parseIpNet : String → Except String IpNet
  parseIpv4Net : String → Except String Ipv4Net

/-- `align` pads to whole 4-byte words and touches nothing that is there. -/
def Crates.PadsToWord (c : Crates) : Prop :=
  ∀ arena, ∃ pad, c.align arena = arena ++ pad ∧ 4 ∣ (arena ++ pad).length ∧ pad.length < 4

def buildDfa (c : Crates) (pats : List String) (reverse : Bool) : Except Failure DenseDfa :=
  (c.buildMany
    { reverse
      shrink := true
      startKind := .anchored
      dfaSizeLimit := some dfaMaxSize
      accelerate := false } pats).mapError .err

def methodRegex (c : Crates) (m : Match) : Option String :=
  if m.pattern.isEmpty then none
  else match m.method with
    | .full => some (c.escape m.pattern)
    | .substring => some ("[^/]*" ++ c.escape m.pattern ++ ".*")
    | .prefixOf => some (c.escape m.pattern ++ ".*")
    | .suffix => some ("[^/]*" ++ c.escape m.pattern)
    | .regex => some ("(?:" ++ m.pattern ++ ")")
    | .subnet => none

def pathPattern (c : Crates) (m : Match) : Option String := do
  let method ← methodRegex c m
  match m.kind with
  | .basename => some ("^(?:.*/)?" ++ method ++ "$")
  | .path => some ("^" ++ method ++ "$")
  | .ipv4 | .dns => none

def dnsPattern (c : Crates) (m : Match) : Option String := do
  let method ← methodRegex c m
  match m.kind with
  | .dns => some ("^" ++ method ++ "\\.?$")
  | _ => none

def slashACrates : Crates where
  escape := id
  buildMany _ pats := if pats ≠ [] ∧ pats.all (· == "^/a$") then .ok slashADfa
    else .error "unsupported"
  align arena := arena ++ List.replicate ((4 - arena.length % 4) % 4) 0
  parseIpNet _ := .error "invalid IP address syntax"
  parseIpv4Net _ := .error "invalid IP address syntax"

theorem slashACrates_padsToWord : slashACrates.PadsToWord := by
  intro arena
  refine ⟨_, rfl, ?_, ?_⟩
  · rw [List.length_append, List.length_replicate]
    omega
  · rw [List.length_replicate]
    omega

def slashARule (direction : Direction) (uid : UInt32) : Match where
  pattern := "/a"
  kind := .path
  method := .full
  direction
  uid

end Rebpf
