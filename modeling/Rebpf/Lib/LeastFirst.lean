import Mathlib.Data.List.Perm.Basic
import Mathlib.Tactic.Common

namespace Rebpf.Lib

universe u

variable {α : Type u} {key : α → Nat}

/-- A priority queue over lists: `pop` takes out an element with a least key. -/
structure LeastFirst (α : Type u) (key : α → Nat) where
  pop : List α → Option (α × List α)
  pop_perm : ∀ {xs x rest}, pop xs = some (x, rest) → xs.Perm (x :: rest)
  pop_least : ∀ {xs x rest}, pop xs = some (x, rest) → ∀ y ∈ xs, key x ≤ key y
  pop_none : ∀ {xs}, pop xs = none → xs = []

def LeastFirst.peek (q : LeastFirst α key) (xs : List α) : Option α := (q.pop xs).map (·.1)

/-- Of a list that is not empty the queue shows a least element. -/
theorem LeastFirst.peek_least (q : LeastFirst α key) {xs : List α} (h : xs ≠ []) :
    ∃ x ∈ xs, q.peek xs = some x ∧ ∀ y ∈ xs, key x ≤ key y := by
  cases hpop : q.pop xs with
  | none => exact absurd (q.pop_none hpop) h
  | some r =>
    have hperm := q.pop_perm hpop
    refine ⟨r.1, hperm.mem_iff.mpr List.mem_cons_self, ?_, q.pop_least hpop⟩
    rw [peek, hpop, Option.map_some]

def popFirst (key : α → Nat) : List α → Option (α × List α)
  | [] => none
  | x :: xs =>
    match popFirst key xs with
    | some (y, rest) => if key x ≤ key y then some (x, xs) else some (y, x :: rest)
    | none => some (x, [])

theorem popFirst_none {xs : List α} (h : popFirst key xs = none) : xs = [] := by
  cases xs with
  | nil => rfl
  | cons x xs =>
    simp only [popFirst] at h
    split at h
    next => split at h <;> cases h
    next => cases h

theorem popFirst_some {xs rest : List α} {x : α} (h : popFirst key xs = some (x, rest)) :
    xs.Perm (x :: rest) ∧ ∀ y ∈ xs, key x ≤ key y := by
  induction xs generalizing x rest with
  | nil => cases h
  | cons z xs ih =>
    simp only [popFirst] at h
    split at h
    next y others hy =>
      obtain ⟨hperm, hleast⟩ := ih hy
      split at h
      next hle =>
        cases Option.some.inj h
        refine ⟨List.Perm.refl _, fun w hw => ?_⟩
        rcases List.mem_cons.mp hw with rfl | hw
        · exact Nat.le_refl _
        · exact Nat.le_trans hle (hleast w hw)
      next hlt =>
        cases Option.some.inj h
        refine ⟨(hperm.cons z).trans (List.Perm.swap _ _ _), fun w hw => ?_⟩
        rcases List.mem_cons.mp hw with rfl | hw
        · omega
        · exact hleast w hw
    next hnone =>
      cases Option.some.inj h
      cases popFirst_none hnone
      refine ⟨List.Perm.refl _, fun w hw => ?_⟩
      cases List.mem_singleton.mp hw
      exact Nat.le_refl _

def firstLeast (key : α → Nat) : LeastFirst α key where
  pop := popFirst key
  pop_perm h := (popFirst_some h).1
  pop_least h := (popFirst_some h).2
  pop_none := popFirst_none

end Rebpf.Lib
