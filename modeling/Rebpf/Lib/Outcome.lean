import Mathlib.Algebra.Group.Nat.Defs
import Mathlib.Tactic.Common

namespace Rebpf.Lib

universe u v

variable {ε : Type u} {α β : Type v}

def ensure (test : Bool) (f : ε) : Except ε Unit := if test then .ok () else .error f

def orErr (x : Option α) (f : ε) : Except ε α :=
  match x with
  | some a => .ok a
  | none => .error f

theorem bind_eq_ok {x : Except ε α} {f : α → Except ε β} {b : β} :
    x >>= f = .ok b ↔ ∃ a, x = .ok a ∧ f a = .ok b := by
  cases x with
  | error err => simp [bind, Except.bind]
  | ok a => simp [bind, Except.bind]

@[simp] theorem ensure_eq_ok {test : Bool} {f : ε} {u : Unit} :
    ensure test f = .ok u ↔ test = true := by
  cases test <;> simp [ensure]

@[simp] theorem orErr_eq_ok {x : Option α} {f : ε} {a : α} :
    orErr x f = .ok a ↔ x = some a := by
  cases x <;> simp [orErr]

@[simp] theorem pure_eq_ok {a b : α} : (pure a : Except ε α) = .ok b ↔ a = b := by
  simp [pure, Except.pure]

@[simp] theorem mapError_eq_ok {ε' : Type u} {x : Except ε α} {f : ε → ε'} {a : α} :
    x.mapError f = .ok a ↔ x = .ok a := by
  cases x <;> simp [Except.mapError]

/-- What a fold that never stops has done with the first of a list. -/
theorem foldlM_cons_ok {f : β → α → Except ε β} {x : α} {xs : List α} {b c : β} :
    (x :: xs).foldlM f b = .ok c ↔ ∃ m, f b x = .ok m ∧ xs.foldlM f m = .ok c := by
  rw [List.foldlM_cons, bind_eq_ok]

/-- It does not end with the error `f`. -/
def Avoids (f : ε) (x : Except ε α) : Prop := x ≠ .error f

section

variable {f : ε} {x : Except ε α} {g : α → Except ε β}

theorem avoids_ok (f : ε) (a : α) : Avoids f (.ok a) := fun h => by cases h

theorem Avoids.bindOk (hx : Avoids f x) (hg : ∀ a, x = .ok a → Avoids f (g a)) :
    Avoids f (x >>= g) := by
  cases x with
  | ok a => exact hg a rfl
  | error err => exact fun h => hx (congrArg Except.error (Except.error.inj h))

theorem Avoids.bind (hx : Avoids f x) (hg : ∀ a, Avoids f (g a)) : Avoids f (x >>= g) :=
  hx.bindOk fun a _ => hg a

theorem Avoids.then (hx : Avoids f x) (g : α → β) : Avoids f (x >>= fun a => pure (g a)) :=
  hx.bind fun a => avoids_ok f (g a)

theorem avoids_orErr {err : ε} (hne : err ≠ f) (o : Option α) : Avoids f (orErr o err) := by
  cases o with
  | none => exact fun h => hne (Except.error.inj h)
  | some a => exact avoids_ok f a

theorem avoids_ensure {err : ε} (hne : err ≠ f) (test : Bool) : Avoids f (ensure test err) := by
  cases test with
  | true => exact avoids_ok f ()
  | false => exact fun h => hne (Except.error.inj h)

end

end Rebpf.Lib
