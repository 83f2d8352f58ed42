import Rebpf.Fields
import Rebpf.Matches
import Rebpf.Lib.Run
import Rebpf.Lib.Splice

namespace Rebpf

open Lib

inductive RequestError
  | invalidArgs (message : String)
  | authFailed (message : String)
  | panic
deriving DecidableEq, Repr

abbrev Reply := Except RequestError Unit

abbrev Polkit := Except RequestError Bool

def authOrErr (member : String) (polkit : Polkit) : Reply :=
  match polkit with
  | .error err => .error err
  | .ok true => .ok ()
  | .ok false => .error (.authFailed ("Not permitted to " ++ member))

def eyreToInval : Except Failure Unit → Reply
  | .ok () => .ok ()
  | .error (.err msg) => .error (.invalidArgs msg)
  | .error .panic => .error .panic

inductive Request
  | addMatch (new : Fields)
  | updateMatch (old new : Fields)
  | deleteMatch (del : Fields)
deriving DecidableEq, Repr

def Match.foreignTo (m : Match) (uid : UInt32) : Bool := uid != m.uid || !m.isPerProcess

section

variable (debug : String → String) (c : Crates) (e : Endian) (uid : UInt32) (polkit : Polkit)

/-- What the handlers share once the peer is known: the arguments are parsed,
the gate is passed, and the edit runs on the stored list. -/
def serve {α : Type} (parsed : Except String α) (foreign : α → Bool) (member : String)
    (edit : α → Outcome) (self : Matches) : Reply × Matches :=
  match parsed with
  | .error msg => (.error (.invalidArgs msg), self)
  | .ok arg =>
    match if uid != 0 && foreign arg then authOrErr member polkit else .ok () with
    | .error err => (.error err, self)
    | .ok () => (eyreToInval (edit arg).1, (edit arg).2)

def addMatch (new : Fields) (self : Matches) : Reply × Matches :=
  serve uid polkit (Match.fromHashmap debug new uid) (·.foreignTo uid) "AddMatch"
    (self.add c e) self

def updateMatch (old new : Fields) (self : Matches) : Reply × Matches :=
  let parsed := do
    let old ← Match.fromHashmap debug old uid
    let new ← Match.fromHashmap debug new uid
    return (old, new)
  serve uid polkit parsed (fun m => m.1.foreignTo uid || m.2.foreignTo uid) "UpdateMatch"
    (fun m => self.replace c e m.1 m.2) self

def deleteMatch (del : Fields) (self : Matches) : Reply × Matches :=
  serve uid polkit (Match.fromHashmap debug del uid) (·.foreignTo uid) "DeleteMatch"
    (self.del c e) self

def Request.handle (self : Matches) : Request → Reply × Matches
  | .addMatch new => Rebpf.addMatch debug c e uid polkit new self
  | .updateMatch old new => Rebpf.updateMatch debug c e uid polkit old new self
  | .deleteMatch del => Rebpf.deleteMatch debug c e uid polkit del self

end

/-- An entry of a user's own that needs no authorisation. -/
def Match.isOwn (uid : UInt32) (m : Match) : Bool := m.uid == uid && m.isPerProcess

theorem foreignTo_eq_false {m : Match} {uid : UInt32} :
    m.foreignTo uid = false ↔ m.isOwn uid = true := by
  simp [Match.foreignTo, Match.isOwn, @eq_comm _ uid]

theorem Match.isEqTo_isOwn {m r : Match} {uid : UInt32} (h : m.isEqTo r = true) :
    m.isOwn uid = r.isOwn uid := by
  simp [isOwn, isEqTo_isPerProcess h, (isEqTo_iff.mp h).2.2.2]

/-- A request that polkit does not back fails and leaves the list alone, or it
passed the gate on its own and the edit ran. -/
theorem serve_unauthorised {α : Type} {uid : UInt32} {polkit : Polkit} (hu : uid ≠ 0)
    (denied : polkit ≠ .ok true) {parsed : Except String α} {foreign : α → Bool}
    {member : String} {edit : α → Outcome} {self : Matches} {r : Reply × Matches}
    (hr : serve uid polkit parsed foreign member edit self = r) :
    (∃ err, r = (.error err, self)) ∨
      ∃ arg, parsed = .ok arg ∧ foreign arg = false ∧
        r = (eyreToInval (edit arg).1, (edit arg).2) := by
  subst hr
  cases parsed with
  | error msg => exact Or.inl ⟨_, rfl⟩
  | ok arg =>
    by_cases hf : foreign arg = true
    · left
      have hgate : (uid != 0 && foreign arg) = true := by simp [hu, hf]
      simp only [serve, hgate, ↓reduceIte]
      cases polkit with
      | error err => exact ⟨err, rfl⟩
      | ok allowed =>
        cases allowed with
        | false => exact ⟨_, rfl⟩
        | true => exact absurd rfl denied
    · right
      refine ⟨arg, rfl, by simpa using hf, ?_⟩
      simp [serve, hf]

/-- The edit a request stands for: the entries it takes out of the list and
those it puts there. -/
def Request.splice (debug : String → String) (uid : UInt32) (self : Matches) :
    Request → Option (Splice Match)
  | .addMatch new => do
    let new ← (Match.fromHashmap debug new uid).toOption
    return Splice.push self.entries new
  | .updateMatch old new => do
    let old ← (Match.fromHashmap debug old uid).toOption
    let new ← (Match.fromHashmap debug new uid).toOption
    let pos ← self.position old
    let stored ← self.entries[pos]?
    return ⟨pos, [stored], [new]⟩
  | .deleteMatch del => do
    let del ← (Match.fromHashmap debug del uid).toOption
    let pos ← self.position del
    let stored ← self.entries[pos]?
    return ⟨pos, [stored], []⟩

end Rebpf
