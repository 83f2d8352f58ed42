import Mathlib.Tactic.Common

namespace Rebpf.Lib

universe u

/-- An edit of a list in one place: from `pos` on, `old` gives way to `new`. -/
structure Splice (α : Type u) where
  pos : Nat
  old : List α
  new : List α

namespace Splice

variable {α : Type u} {x : Splice α} {xs : List α}

def apply (x : Splice α) (xs : List α) : List α :=
  xs.take x.pos ++ (x.new ++ xs.drop (x.pos + x.old.length))

def Fits (x : Splice α) (xs : List α) : Prop :=
  xs.take x.pos ++ (x.old ++ xs.drop (x.pos + x.old.length)) = xs

theorem Fits.eq (h : x.Fits xs) :
    xs.take x.pos ++ (x.old ++ xs.drop (x.pos + x.old.length)) = xs := h

def push (xs : List α) (a : α) : Splice α := ⟨xs.length, [], [a]⟩

theorem push_fits (xs : List α) (a : α) : (push xs a).Fits xs := by
  simp [push, Fits]

theorem push_apply (xs : List α) (a : α) : (push xs a).apply xs = xs ++ [a] := by
  simp [push, apply]

theorem fits_single {i : Nat} {old : α} {new : List α} (h : xs[i]? = some old) :
    (⟨i, [old], new⟩ : Splice α).Fits xs := by
  obtain ⟨hi, rfl⟩ := List.getElem?_eq_some_iff.mp h
  have hdrop := List.drop_eq_getElem_cons hi
  simp only [Fits, List.length_singleton, List.singleton_append]
  rw [← hdrop, List.take_append_drop]

theorem apply_set {i : Nat} {old new : α} (h : xs[i]? = some old) :
    (⟨i, [old], [new]⟩ : Splice α).apply xs = xs.set i new := by
  obtain ⟨hi, _⟩ := List.getElem?_eq_some_iff.mp h
  rw [List.set_eq_take_append_cons_drop, if_pos hi]
  rfl

theorem apply_eraseIdx {i : Nat} {old : α} :
    (⟨i, [old], []⟩ : Splice α).apply xs = xs.eraseIdx i := by
  rw [List.eraseIdx_eq_take_drop_succ]
  rfl

/-- A splice between entries a filter drops does not show behind the filter. -/
theorem filter_apply {p : α → Bool} (fits : x.Fits xs) (old : ∀ a ∈ x.old, p a = false)
    (new : ∀ a ∈ x.new, p a = false) : (x.apply xs).filter p = xs.filter p := by
  have hold : x.old.filter p = [] := List.filter_eq_nil_iff.mpr fun a ha => by simp [old a ha]
  have hnew : x.new.filter p = [] := List.filter_eq_nil_iff.mpr fun a ha => by simp [new a ha]
  conv_rhs => rw [← fits.eq]
  simp only [apply, List.filter_append, hold, hnew]

end Splice

end Rebpf.Lib
