import Mathlib.Logic.Function.Basic
import Rebpf.Lib.Outcome
import Rebpf.State

namespace Rebpf

open Lib

/-- `serde_json` on the daemon's state: the text it writes and the state it reads. -/
structure StateJson where
  toVec : State → String
  fromStr : String → Option State

/-- What is written reads back, and the text of an empty file is no state. -/
structure StateJson.Lawful (json : StateJson) : Prop where
  fromStr_toVec : ∀ s, json.fromStr (json.toVec s) = some s
  fromStr_empty : json.fromStr "" = none

abbrev Slots := Fin 2 → List UInt8

def textBytes (s : String) : List UInt8 := s.toUTF8.data.toList

def readToString (slot : List UInt8) : Option String := String.fromUTF8? ⟨slot.toArray⟩

def StateJson.read (json : StateJson) (slot : List UInt8) : Option State :=
  (readToString slot).bind json.fromStr

structure Loaded where
  state : State
  lastI : Fin 2
  lastGen : UInt64

def State.refreshed (s : State) : State := { s with ms := s.ms.update }

def Loaded.first : Loaded := ⟨.default, 0, 0⟩

def Loaded.next (l : Loaded) (i : Fin 2) : Option State → Loaded
  | some next => if l.lastGen ≤ next.generation then ⟨next.refreshed, i, next.generation⟩ else l
  | none => l

def loadSlot (json : StateJson) (files : Slots) (l : Loaded) (i : Fin 2) : Except Failure Loaded := do
  let buf ← orErr (readToString (files i)) (.err "stream did not contain valid UTF-8")
  return l.next i (json.fromStr buf)

def loadState (json : StateJson) (files : Slots) : Except Failure Loaded :=
  [0, 1].foldlM (loadSlot json files) .first

structure Saver where
  generation : UInt64
  lastI : Fin 2

def Loaded.saver (l : Loaded) : Saver := ⟨l.state.generation, l.lastI⟩

/-- The slot of the save after the next. -/
def Saver.other (saver : Saver) : Fin 2 := saver.lastI + 1

def Saver.stamp (saver : Saver) (conf : State) : State :=
  { conf with generation := saver.generation + 1 }

/-- Writing from the start of a file leaves what lies behind in place. -/
def overwrite (old written : List UInt8) : List UInt8 := written ++ old.drop written.length

def saveState (json : StateJson) (files : Slots) (saver : Saver) (conf : State) : Slots × Saver :=
  let conf := saver.stamp conf
  let buf := textBytes (json.toVec conf)
  (Function.update files saver.lastI ((overwrite (files saver.lastI) buf).take buf.length),
    ⟨conf.generation, saver.other⟩)

/-- The slot a save was writing when the machine went down after `k` bytes. -/
def tornSlot (json : StateJson) (files : Slots) (saver : Saver) (conf : State) (k : Nat) :
    List UInt8 :=
  overwrite (files saver.lastI) ((textBytes (json.toVec (saver.stamp conf))).take k)

theorem readToString_textBytes (s : String) : readToString (textBytes s) = some s := by
  have h : (⟨(textBytes s).toArray⟩ : ByteArray) = s.toByteArray := by
    cases hb : s.toByteArray
    simp [textBytes, hb]
  rw [readToString, h, String.fromUTF8?, dif_pos s.isValidUTF8]
  rfl

@[simp] theorem State.refreshed_generation (s : State) : s.refreshed.generation = s.generation :=
  rfl

theorem slot_cases (i j : Fin 2) : j = i ∨ j = i + 1 := by omega

theorem slot_next_ne (i : Fin 2) : i + 1 ≠ i := by omega

theorem slot_next_next (i : Fin 2) : i + 1 + 1 = i := by omega

/-- Some slot holds the last completed save and the other nothing as new. -/
def Newest (json : StateJson) (files : Slots) : Option State → Prop
  | none => ∀ i, json.read (files i) = none
  | some a => ∃ i, json.read (files i) = some a ∧
    ∀ s, json.read (files (i + 1)) = some s → s.generation < a.generation

theorem Newest.of_read {json : StateJson} {files : Slots} {saved : Option State} {s : State}
    {i : Fin 2} (h : Newest json files saved) (hs : json.read (files i) = some s) :
    ∃ a, saved = some a ∧ s.generation ≤ a.generation := by
  cases saved with
  | none => rw [h i] at hs; cases hs
  | some a =>
    obtain ⟨j, hj, hother⟩ := h
    refine ⟨a, rfl, ?_⟩
    rcases slot_cases j i with rfl | rfl
    · cases Option.some.inj (hs.symm.trans hj)
      exact UInt64.le_refl _
    · exact UInt64.le_of_lt (hother s hs)

theorem Newest.keep {json : StateJson} {files : Slots} {saved : Option State} {i : Fin 2}
    {slot : List UInt8} (h : Newest json files saved)
    (hslot : json.read slot = json.read (files i)) :
    Newest json (Function.update files i slot) saved := by
  have same : ∀ j, json.read (Function.update files i slot j) = json.read (files j) := by
    intro j
    rcases slot_cases i j with rfl | rfl
    · rw [Function.update_self]
      exact hslot
    · rw [Function.update_of_ne (slot_next_ne _)]
  cases saved with
  | none => exact fun j => (same j).trans (h j)
  | some a =>
    obtain ⟨j, hj, hother⟩ := h
    exact ⟨j, (same j).trans hj, fun s hs => hother s ((same _).symm.trans hs)⟩

theorem Newest.write {json : StateJson} {files : Slots} {saved : Option State} {b : State}
    {i : Fin 2} {slot : List UInt8} (h : Newest json files saved)
    (newer : ∀ a, saved = some a → a.generation < b.generation)
    (hslot : json.read slot = some b) :
    Newest json (Function.update files i slot) (some b) := by
  refine ⟨i, by rw [Function.update_self]; exact hslot, fun s hs => ?_⟩
  rw [Function.update_of_ne (slot_next_ne i)] at hs
  obtain ⟨a, ha, hle⟩ := h.of_read hs
  exact UInt64.lt_of_le_of_lt hle (newer a ha)

theorem Newest.spoil {json : StateJson} {files : Slots} {saved : Option State}
    {i : Fin 2} {slot : List UInt8} (other : json.read (files (i + 1)) = saved)
    (older : ∀ s, json.read slot = some s → ∃ a, saved = some a ∧ s.generation < a.generation) :
    Newest json (Function.update files i slot) saved := by
  cases saved with
  | none =>
    intro j
    rcases slot_cases i j with rfl | rfl
    · rw [Function.update_self]
      cases hs : json.read slot with
      | none => rfl
      | some s =>
        obtain ⟨a, ha, _⟩ := older s hs
        cases ha
    · rw [Function.update_of_ne (slot_next_ne i)]
      exact other
  | some a =>
    refine ⟨i + 1, by rw [Function.update_of_ne (slot_next_ne i)]; exact other, fun s hs => ?_⟩
    rw [slot_next_next, Function.update_self] at hs
    obtain ⟨_, ha, hlt⟩ := older s hs
    cases Option.some.inj ha
    exact hlt

def found (saved : Option State) : State := (saved.map State.refreshed).getD .default

theorem Loaded.first_next (s : State) (i : Fin 2) :
    Loaded.first.next i (some s) = ⟨s.refreshed, i, s.generation⟩ := by
  have hle : Loaded.first.lastGen ≤ s.generation := UInt64.zero_le
  rw [Loaded.next, if_pos hle]

theorem loadSlot_readable {json : StateJson} {files : Slots} {i : Fin 2} (l : Loaded)
    (h : (readToString (files i)).isSome) :
    loadSlot json files l i = .ok (l.next i (json.read (files i))) := by
  obtain ⟨buf, hbuf⟩ := Option.isSome_iff_exists.mp h
  rw [loadSlot, StateJson.read, hbuf]
  rfl

theorem loadState_readable (json : StateJson) {files : Slots}
    (h : ∀ i, (readToString (files i)).isSome) :
    loadState json files = .ok
      ((Loaded.first.next 0 (json.read (files 0))).next 1 (json.read (files 1))) := by
  rw [loadState, foldlM_cons_ok]
  refine ⟨_, loadSlot_readable _ (h 0), ?_⟩
  rw [foldlM_cons_ok]
  exact ⟨_, loadSlot_readable _ (h 1), rfl⟩

/-- Of a newest state and an older one or none, in either order, the newest stays,
and its slot is the one to write next. -/
theorem loadState_newest {json : StateJson} {files : Slots} {saved : Option State}
    (readable : ∀ i, (readToString (files i)).isSome) (h : Newest json files saved) :
    ∃ l, loadState json files = .ok l ∧ l.state = found saved ∧
      json.read (files l.lastI) = saved := by
  refine ⟨_, loadState_readable json readable, ?_⟩
  cases saved with
  | none =>
    rw [h 0, h 1]
    exact ⟨rfl, h 0⟩
  | some a =>
    obtain ⟨i, hi, hother⟩ := h
    rcases slot_cases 0 i with rfl | rfl
    · rw [hi, Loaded.first_next]
      cases hs : json.read (files 1) with
      | none => exact ⟨rfl, hi⟩
      | some s =>
        have hkeep : ¬a.generation ≤ s.generation := UInt64.not_le.mpr (hother s hs)
        rw [Loaded.next, if_neg hkeep]
        exact ⟨rfl, hi⟩
    · rw [show (0 : Fin 2) + 1 = 1 from rfl] at hi
      rw [hi]
      cases hs : json.read (files 0) with
      | none =>
        have hnone : Loaded.first.next 0 none = .first := rfl
        rw [hnone, Loaded.first_next]
        exact ⟨rfl, hi⟩
      | some s =>
        have hle : s.generation ≤ a.generation := UInt64.le_of_lt (hother s hs)
        rw [Loaded.first_next, Loaded.next, if_pos hle]
        exact ⟨rfl, hi⟩

theorem readable_update {files : Slots} {i : Fin 2} {slot : List UInt8}
    (h : ∀ i, (readToString (files i)).isSome) (hslot : (readToString slot).isSome) :
    ∀ j, (readToString (Function.update files i slot j)).isSome := by
  intro j
  rcases slot_cases i j with rfl | rfl
  · rw [Function.update_self]
    exact hslot
  · rw [Function.update_of_ne (slot_next_ne i)]
    exact h _

theorem overwrite_truncated (old buf : List UInt8) :
    (overwrite old buf).take buf.length = buf :=
  List.take_left

end Rebpf
