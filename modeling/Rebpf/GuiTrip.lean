import Rebpf.Fields
import Rebpf.GuiMatches
import Rebpf.Lib.FieldMap

namespace Rebpf

open Lib

/-- A text field, left out of the map while it is empty. -/
def textField (name value : String) : Fields := if value ≠ "" then [(name, value)] else []

def Match.toHashmap (m : Match) : Fields :=
  textField "pattern" m.pattern ++ [("kind", m.kind.name), ("method", m.method.name),
    ("direction", m.direction.name), ("uid", toString m.uid)]

namespace Gui

/-- A key of a map, as the app reads it. -/
def fieldKey (k : String) : String := .ofList (k.toList.map fun c => if c = '-' then '_' else c)

namespace Match

def default : Match where
  pattern := ""
  kind := ""
  method := ""
  direction := ""
  user := ""
  uid := ""

def setField (s : Match) (field : String × String) : Match :=
  match fieldKey field.1 with
  | "pattern" => { s with pattern := field.2 }
  | "kind" => { s with kind := field.2 }
  | "method" => { s with method := field.2 }
  | "direction" => { s with direction := field.2 }
  | "user" => { s with user := field.2 }
  | "uid" => { s with uid := field.2 }
  | _ => s

def fromHashmap (h : Fields) : Match := h.foldl setField default

def toHashmap (g : Match) : Fields :=
  textField "pattern" g.pattern ++ textField "kind" g.kind ++ textField "method" g.method ++
    textField "direction" g.direction ++ textField "user" g.user ++ textField "uid" g.uid

end Match

end Gui

/-- The texts of all the fields of a match. -/
def Match.texts (m : Match) : Fields :=
  [("pattern", m.pattern), ("kind", m.kind.name), ("method", m.method.name),
    ("direction", m.direction.name), ("uid", toString m.uid)]

/-- What the app has of a match. -/
def Gui.Match.shown (m : Rebpf.Match) : Gui.Match where
  pattern := m.pattern
  kind := m.kind.name
  method := m.method.name
  direction := m.direction.name
  user := ""
  uid := toString m.uid

/-- A match with the fields of another one under some keys. -/
def Match.takeOver (m s : Match) (keys : List String) : Match where
  pattern := if "pattern" ∈ keys then m.pattern else s.pattern
  kind := if "kind" ∈ keys then m.kind else s.kind
  method := if "method" ∈ keys then m.method else s.method
  direction := if "direction" ∈ keys then m.direction else s.direction
  uid := if "uid" ∈ keys then m.uid else s.uid

def Gui.Match.takeOver (g s : Gui.Match) (keys : List String) : Gui.Match where
  pattern := if "pattern" ∈ keys then g.pattern else s.pattern
  kind := if "kind" ∈ keys then g.kind else s.kind
  method := if "method" ∈ keys then g.method else s.method
  direction := if "direction" ∈ keys then g.direction else s.direction
  user := if "user" ∈ keys then g.user else s.user
  uid := if "uid" ∈ keys then g.uid else s.uid

/-- A map has the texts of a match, except perhaps an empty pattern. -/
structure Match.Told (m : Match) (h : Fields) : Prop where
  sound : ∀ x ∈ h, x ∈ m.texts
  complete : ∀ x ∈ m.texts, x ∈ h ∨ x = ("pattern", "")

theorem readDigits_of_isDigit {cs : List Char} {n : Nat} (digits : ∀ c ∈ cs, c.isDigit)
    (fits : Nat.ofDigitChars 10 cs n < 2 ^ 32) :
    readDigits cs n = .ok (Nat.ofDigitChars 10 cs n) := by
  induction cs generalizing n with
  | nil => rfl
  | cons c cs ih =>
    rw [Nat.ofDigitChars_cons] at fits ⊢
    have hsmall : ¬2 ^ 32 ≤ 10 * n + (c.toNat - '0'.toNat) := by
      rw [Nat.ofDigitChars_eq_ofDigitChars_zero] at fits
      have hpos := Nat.one_le_pow cs.length 10 (by decide)
      have hle := Nat.le_mul_of_pos_left (10 * n + (c.toNat - '0'.toNat)) hpos
      omega
    rw [readDigits, digits c List.mem_cons_self]
    simp only [Bool.not_true, Bool.false_eq_true, if_false, if_neg hsmall]
    exact ih (fun d hd => digits d (List.mem_cons_of_mem _ hd)) fits

theorem parseU32_toString (n : UInt32) : parseU32 (toString n) = .ok n := by
  have hlist : (toString n).toList = Nat.toDigits 10 n.toNat := Nat.toList_repr
  have digits : ∀ c ∈ Nat.toDigits 10 n.toNat, c.isDigit := fun c hc =>
    Nat.isDigit_of_mem_toDigits (by decide) (by decide) hc
  have hread : readDigits (Nat.toDigits 10 n.toNat) 0 = .ok n.toNat := by
    rw [readDigits_of_isDigit digits (by rw [Nat.ofDigitChars_ten_toDigits]; exact n.toNat_lt),
      Nat.ofDigitChars_ten_toDigits]
  have hsign : ∀ rest, Nat.toDigits 10 n.toNat ≠ '+' :: rest := fun rest h =>
    absurd (digits '+' (h ▸ List.mem_cons_self)) (by decide)
  unfold parseU32
  rw [hlist]
  split
  next h => exact absurd h Nat.toDigits_ne_nil
  next h => exact absurd h (hsign _)
  next h => exact absurd h (hsign _)
  next =>
    rw [hread]
    exact congrArg Except.ok (UInt32.ofNat_toNat)

variable {debug : String → String} {m : Rebpf.Match} {h : Fields}

theorem Match.Told.of_perm (perm : h.Perm m.toHashmap) : m.Told h := by
  constructor
  · intro x hx
    have hx := perm.mem_iff.mp hx
    unfold toHashmap textField at hx
    split at hx
    next => exact hx
    next => exact List.mem_cons_of_mem _ hx
  · intro x hx
    rw [perm.mem_iff]
    by_cases hpattern : m.pattern = ""
    · rcases List.mem_cons.mp hx with rfl | hx
      · exact .inr (congrArg _ hpattern)
      · exact .inl (List.mem_append_right _ hx)
    · rw [toHashmap, textField, if_pos hpattern]
      exact .inl hx

theorem Match.Told.keys (told : m.Told h) : let keys := h.map Prod.fst
    ("pattern" ∈ keys ∨ m.pattern = "") ∧ "kind" ∈ keys ∧ "method" ∈ keys ∧
      "direction" ∈ keys ∧ "uid" ∈ keys := by
  have key : ∀ x ∈ m.texts, x.1 ∈ h.map Prod.fst ∨ x = ("pattern", "") := fun x hx =>
    (told.complete x hx).imp_left List.mem_map_of_mem
  simpa [texts] using key

theorem Match.Told.pattern (told : m.Told h) :
    (if "pattern" ∈ h.map Prod.fst then m.pattern else "") = m.pattern :=
  ite_eq_left_iff.mpr fun hnot => (told.keys.1.resolve_left hnot).symm

theorem Match.setField_takeOver (s : Match) (keys : List String) {x : String × String}
    (hx : x ∈ m.texts) :
    setField debug (m.takeOver s keys) x = .ok (m.takeOver s (keys ++ [x.1])) := by
  simp only [texts, List.mem_cons, List.not_mem_nil, or_false] at hx
  rcases hx with rfl | rfl | rfl | rfl | rfl
  · simp [setField, takeOver]
  · simp [setField, takeOver, Kind.fromStr_name, Except.map]
  · simp [setField, takeOver, Method.fromStr_name, Except.map]
  · simp [setField, takeOver, Direction.fromStr_name, Except.map]
  · simp [setField, takeOver, parseU32_toString, Except.map]

theorem Gui.fieldKey_texts {x : String × String} (hx : x ∈ m.texts) : fieldKey x.1 = x.1 := by
  have plain : ∀ k ∈ ["pattern", "kind", "method", "direction", "uid"], fieldKey k = k := by decide
  exact plain x.1 (List.mem_map_of_mem hx)

theorem Gui.Match.setField_takeOver (s : Gui.Match) (keys : List String) {x : String × String}
    (hx : x ∈ m.texts) :
    ((shown m).takeOver s keys).setField x = (shown m).takeOver s (keys ++ [x.1]) := by
  rw [setField, fieldKey_texts hx]
  simp only [Rebpf.Match.texts, List.mem_cons, List.not_mem_nil, or_false] at hx
  rcases hx with rfl | rfl | rfl | rfl | rfl
  all_goals simp [takeOver, shown]

theorem Match.Told.fromHashmap (told : m.Told h) (uid : UInt32) :
    Match.fromHashmap debug h uid = .ok m := by
  have start : ({ default with uid } : Match) = m.takeOver { default with uid } [] := rfl
  obtain ⟨_, hkind, hmethod, hdirection, huid⟩ := told.keys
  have done : m.takeOver { default with uid } (h.map Prod.fst) = m := by
    rw [takeOver, if_pos hkind, if_pos hmethod, if_pos hdirection, if_pos huid, default,
      told.pattern]
  rw [Match.fromHashmap, start,
    foldlM_keys (fun keys x hx => setField_takeOver _ keys (told.sound x hx)) [],
    List.nil_append, done]
  rfl

theorem Match.Told.fromHashmap_gui (told : m.Told h) : Gui.Match.fromHashmap h = .shown m := by
  have start : Gui.Match.default = (Gui.Match.shown m).takeOver .default [] := rfl
  obtain ⟨_, hkind, hmethod, hdirection, huid⟩ := told.keys
  have done : (Gui.Match.shown m).takeOver .default (h.map Prod.fst) = .shown m := by
    rw [Gui.Match.takeOver, if_pos hkind, if_pos hmethod, if_pos hdirection, if_pos huid,
      Gui.Match.default, Gui.Match.shown, told.pattern, ite_self]
  rw [Gui.Match.fromHashmap, start,
    foldl_keys (fun keys x hx => Gui.Match.setField_takeOver _ keys (told.sound x hx)) [],
    List.nil_append, done]

theorem textField_of_ne {name value : String} (h : value ≠ "") :
    textField name value = [(name, value)] := if_pos h

theorem Gui.Match.toHashmap_shown (m : Rebpf.Match) : (shown m).toHashmap = m.toHashmap := by
  have hkind : m.kind.name ≠ "" := by cases m.kind <;> decide
  have hmethod : m.method.name ≠ "" := by cases m.method <;> decide
  have hdirection : m.direction.name ≠ "" := by cases m.direction <;> decide
  have huid : toString m.uid ≠ "" := fun h =>
    Nat.toDigits_ne_nil (Nat.toList_repr.symm.trans (congrArg String.toList h))
  simp only [toHashmap, shown, Rebpf.Match.toHashmap, textField_of_ne hkind,
    textField_of_ne hmethod, textField_of_ne hdirection, textField_of_ne huid, List.append_assoc]
  rfl

/-- A match that the service tells, and the app tells back, is the same match, in
whatever order the maps are gone through. -/
theorem fromHashmap_told_back (m : Match) (peer : UInt32) {told back : Fields}
    (htold : told.Perm m.toHashmap)
    (hback : back.Perm (Gui.Match.fromHashmap told).toHashmap) :
    Match.fromHashmap debug back peer = .ok m := by
  rw [(Match.Told.of_perm htold).fromHashmap_gui, Gui.Match.toHashmap_shown] at hback
  exact (Match.Told.of_perm hback).fromHashmap peer

/-- An entry for every program of one user. -/
def emptyEntry : Match where
  pattern := ""
  kind := .path
  method := .prefixOf
  direction := .bypass
  uid := 1000

theorem fromHashmap_told_back_empty :
    Match.fromHashmap id
      (Gui.Match.fromHashmap emptyEntry.toHashmap.reverse).toHashmap.reverse 0 = .ok emptyEntry :=
  fromHashmap_told_back emptyEntry 0 (List.reverse_perm _) (List.reverse_perm _)

end Rebpf
