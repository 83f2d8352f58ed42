import Mathlib.Tactic.Common

namespace Rebpf.Lib

universe u

/-- A watch channel: the latest value and the number of the send that made it.
A receiver is the number of the send it has seen last; none is numbered 0. -/
structure Watch (α : Type u) where
  value : α
  version : Nat
deriving DecidableEq, Repr

namespace Watch

variable {α : Type u}

def new (a : α) : Watch α := ⟨a, 1⟩

def send (w : Watch α) (a : α) : Watch α := ⟨a, w.version + 1⟩

def hasChanged (w : Watch α) (seen : Nat) : Bool := seen != w.version

def markUnchanged (w : Watch α) : Nat := w.version

def markChanged (seen : Nat) : Nat := seen - 1

/-- What later sends can make of a channel. -/
structure Later (w w' : Watch α) : Prop where
  le : w.version ≤ w'.version
  same : w.version = w'.version → w'.value = w.value

/-- A reader that has used the latest value, or has a change to see. -/
structure Follows (w : Watch α) (seen : Nat) (used : α) : Prop where
  seen_le : seen ≤ w.version
  latest : seen = w.version → used = w.value

variable {w w' w'' : Watch α} {seen : Nat} {used : α}

theorem hasChanged_eq_false : w.hasChanged seen = false ↔ seen = w.version := by
  simp [hasChanged]

theorem Later.refl (w : Watch α) : w.Later w := ⟨Nat.le_refl _, fun _ => rfl⟩

theorem Later.trans (h : w.Later w') (h' : w'.Later w'') : w.Later w'' where
  le := Nat.le_trans h.le h'.le
  same heq := by
    have hle := h.le
    have hle' := h'.le
    rw [h'.same (by omega), h.same (by omega)]

theorem later_send (w : Watch α) (a : α) : w.Later (w.send a) where
  le := Nat.le_succ _
  same heq := absurd heq (Nat.ne_of_lt (Nat.lt_succ_self _))

theorem Follows.later (h : w.Follows seen used) (later : w.Later w') : w'.Follows seen used where
  seen_le := Nat.le_trans h.seen_le later.le
  latest heq := by
    have hle := h.seen_le
    have hle' := later.le
    rw [later.same (by omega)]
    exact h.latest (by omega)

/-- A value read after the mark, however much later, is as good as the mark. -/
theorem follows_read (h : seen ≤ w.version) : w.Follows seen w.value := ⟨h, fun _ => rfl⟩

end Watch

end Rebpf.Lib
