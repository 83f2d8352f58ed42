import Rebpf.Match

namespace Rebpf

open Lib

abbrev Fields := List (String × String)

/-- The digits of a number below `2 ^ 32`, after the number `n` read so far. -/
def readDigits : List Char → Nat → Except String Nat
  | [], n => .ok n
  | c :: digits, n =>
    if !c.isDigit then .error "invalid digit found in string"
    else
      let n := 10 * n + (c.toNat - '0'.toNat)
      if 2 ^ 32 ≤ n then .error "number too large to fit in target type"
      else readDigits digits n

def parseU32 (s : String) : Except String UInt32 :=
  match s.toList with
  | [] => .error "cannot parse integer from empty string"
  | ['+'] => .error "invalid digit found in string"
  | '+' :: digits => (readDigits digits 0).map .ofNat
  | digits => (readDigits digits 0).map .ofNat

section

-- How `{:?}` prints a string.
variable (debug : String → String)

def enumFromStr {α : Type} (enum : String) (variants : List (String × α)) (s : String) :
    Except String α :=
  orErr ((variants.find? (·.1 == s)).map (·.2))
    ("Unknown " ++ enum ++ ": " ++ debug s ++ ". Expected one of: " ++
      ", ".intercalate (variants.map (·.1)))

def Kind.all : List Kind := [.basename, .path, .ipv4, .dns]

def Kind.fromStr (s : String) : Except String Kind :=
  enumFromStr debug "Kind" (Kind.all.map fun k => (k.name, k)) s

def Method.all : List Method := [.full, .substring, .prefixOf, .suffix, .regex, .subnet]

def Method.fromStr (s : String) : Except String Method :=
  enumFromStr debug "Method" (Method.all.map fun m => (m.name, m)) s

def Direction.all : List Direction := [.redirect, .bypass]

def Direction.fromStr (s : String) : Except String Direction :=
  enumFromStr debug "Direction" (Direction.all.map fun d => (d.name, d)) s

namespace Match

def default : Match where
  pattern := ""
  kind := .basename
  method := .full
  direction := .redirect
  uid := 0

def setField (s : Match) (field : String × String) : Except String Match :=
  match field.1 with
  | "pattern" => .ok { s with pattern := field.2 }
  | "kind" => (Kind.fromStr debug field.2).map ({ s with kind := · })
  | "method" => (Method.fromStr debug field.2).map ({ s with method := · })
  | "direction" => (Direction.fromStr debug field.2).map ({ s with direction := · })
  | "uid" => (parseU32 field.2).map ({ s with uid := · })
  | k => .error ("Unknown Match field: " ++ debug k ++
      ". Expected one of: pattern, kind, method, direction, uid")

/-- The fields one by one over the defaults, the uid being the caller's unless
the map has its own. -/
def fromHashmap (h : Fields) (uid : UInt32) : Except String Match :=
  h.foldlM (setField debug) { default with uid }

end Match

end

variable {debug : String → String}

theorem enumFromStr_name {α : Type} {enum : String} {all : List α} {name : α → String}
    (inj : ∀ a b, name a = name b → a = b) {a : α} (ha : a ∈ all) :
    enumFromStr debug enum (all.map fun a => (name a, a)) (name a) = .ok a := by
  have hfind : (all.map fun a => (name a, a)).find? (·.1 == name a) = some (name a, a) := by
    induction all with
    | nil => simp at ha
    | cons b all ih =>
      by_cases hb : name b = name a
      · simp [inj b a hb]
      · have hne : a ≠ b := fun h => hb (h ▸ rfl)
        have hmem : a ∈ all := (List.mem_cons.mp ha).resolve_left hne
        simpa [List.find?_cons, hb] using ih hmem
  simp [enumFromStr, hfind, orErr]

theorem Kind.fromStr_name (k : Kind) : Kind.fromStr debug k.name = .ok k :=
  enumFromStr_name (fun a b => by cases a <;> cases b <;> simp [Kind.name])
    (by cases k <;> simp [Kind.all])

theorem Method.fromStr_name (m : Method) : Method.fromStr debug m.name = .ok m :=
  enumFromStr_name (fun a b => by cases a <;> cases b <;> simp [Method.name])
    (by cases m <;> simp [Method.all])

theorem Direction.fromStr_name (d : Direction) : Direction.fromStr debug d.name = .ok d :=
  enumFromStr_name (fun a b => by cases a <;> cases b <;> simp [Direction.name])
    (by cases d <;> simp [Direction.all])

end Rebpf
