import Mathlib.Data.Option.Basic
import Mathlib.Tactic.Common

namespace Rebpf.Lib

universe u v

variable {α : Type u} {β : Type v} {p q : α → Bool} {xs ys : List α}

theorem find?_append_of_none (h : xs.find? p = none) : (xs ++ ys).find? p = ys.find? p := by
  rw [List.find?_append, h, Option.none_or]

theorem find?_append_of_some {a : α} (h : xs.find? p = some a) :
    (xs ++ ys).find? p = some a := by
  rw [List.find?_append, h, Option.some_or]

/-- A search ends with `b` when some element gives `b` and none before it gives
anything else. -/
theorem findSome?_eq_some_iff_before {f : α → Option β} {b : β} :
    xs.findSome? f = some b ↔ ∃ front x back, xs = front ++ x :: back ∧ f x = some b ∧
      ∀ y ∈ front, ∀ b', f y = some b' → b' = b := by
  constructor
  · intro h
    obtain ⟨front, x, back, hsplit, hx, hnone⟩ := List.findSome?_eq_some_iff.mp h
    refine ⟨front, x, back, hsplit, hx, fun y hy b' hb => ?_⟩
    rw [hnone y hy] at hb
    cases hb
  · rintro ⟨front, x, back, rfl, hx, hbefore⟩
    rw [List.findSome?_append, List.findSome?_cons, hx]
    cases hfront : front.findSome? f with
    | none => rfl
    | some b' =>
      obtain ⟨y, hy, hb⟩ := List.exists_of_findSome?_eq_some hfront
      rw [hbefore y hy b' hb]
      rfl

theorem find?_zipIdx (xs : List α) (p : α → Bool) :
    xs.find? p = (xs.zipIdx.find? fun r => p r.1).map Prod.fst := by
  conv_lhs => rw [← List.zipIdx_map_fst 0 xs, List.find?_map]
  rfl

/-- Two searches agree exactly if the first element that passes either test passes both. -/
theorem findIdx?_eq_findIdx?_iff : xs.findIdx? p = xs.findIdx? q ↔
    ∀ a, xs.find? (fun a => p a || q a) = some a → p a = true ∧ q a = true := by
  induction xs with
  | nil => simp
  | cons x xs ih =>
    rw [List.findIdx?_cons, List.findIdx?_cons, List.find?_cons]
    by_cases hp : p x = true
    · by_cases hq : q x = true
      · simp [hp, hq]
      · simp [hp, hq]
    · by_cases hq : q x = true
      · simp [hp, hq]
      · simp only [hp, hq, Bool.or_self]
        rw [← ih]
        exact (Option.map_injective fun _ _ => Nat.succ.inj).eq_iff

/-- What `f` makes of the elements it has a use for, with their numbers. -/
def numbered (f : α → Option β) (rs : List (α × Nat)) : List (β × Nat) :=
  rs.filterMap fun r => (f r.1).map (·, r.2)

/-- The first result that passes a test has the number of the first element
whose result does. -/
theorem numbered_findIdx? {f : α → Option β} {q : β → Bool} (xs : List α) (n : Nat) :
    (((numbered f (xs.zipIdx n)).map (·.1)).findIdx? q).bind
        (((numbered f (xs.zipIdx n)).map (·.2))[·]?) =
      (xs.findIdx? fun x => (f x).any q).map (· + n) := by
  induction xs generalizing n with
  | nil => rfl
  | cons x xs ih =>
    have hih := ih (n + 1)
    simp only [numbered] at hih ⊢
    rw [List.zipIdx_cons, List.findIdx?_cons]
    cases hf : f x with
    | none =>
      rw [List.filterMap_cons_none (by rw [hf]; rfl), hih]
      simp [Function.comp_def, Nat.add_assoc, Nat.add_comm 1]
    | some y =>
      rw [List.filterMap_cons_some (by rw [hf]; rfl), List.map_cons, List.map_cons,
        List.findIdx?_cons]
      by_cases hy : q y = true
      · simp [hy]
      · rw [if_neg hy, if_neg (by simpa using hy), Option.bind_map, Option.map_map]
        simp only [Function.comp_def, List.getElem?_cons_succ]
        rw [hih]
        simp only [Nat.add_assoc, Nat.add_comm 1]

end Rebpf.Lib
