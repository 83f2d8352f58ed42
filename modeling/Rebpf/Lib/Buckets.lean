import Mathlib.Data.List.Perm.Basic
import Mathlib.Data.List.Range
import Mathlib.Tactic.Common

namespace Rebpf.Lib

universe u v w

variable {α : Type u} {β : Type v} {γ : Type w}

/-- Appends a value to a bucket of a table, which grows as far as it has to. -/
def addToBucket (table : List (List β)) (i : Nat) (b : β) : List (List β) :=
  (table.rightpad (i + 1) []).modify i (· ++ [b])

/-- A table holds the values of a list by their keys, each bucket in list order. -/
def HoldsBuckets (key : α → Nat) (val : α → β) (table : List (List β)) (xs : List α) : Prop :=
  ∀ i, table.getD i [] = (xs.filter (key · == i)).map val

/-- A list by ascending keys below a bound. -/
def grouped (key : α → Nat) (bound : Nat) (xs : List α) : List α :=
  (List.range bound).flatMap fun i => xs.filter (key · == i)

theorem addToBucket_getD (table : List (List β)) (i : Nat) (b : β) (j : Nat) :
    (addToBucket table i b).getD j [] = table.getD j [] ++ if i = j then [b] else [] := by
  have grown : (table.rightpad (i + 1) []).getD j [] = table.getD j [] := by
    rw [List.rightpad, List.getD_eq_getElem?_getD, List.getD_eq_getElem?_getD]
    rcases Nat.lt_or_ge j table.length with h | h
    · rw [List.getElem?_append_left h]
    · rw [List.getElem?_append_right h, List.getElem?_eq_none h, List.getElem?_replicate]
      split <;> rfl
  rw [addToBucket, List.getD_eq_getElem?_getD, List.getElem?_modify, ← grown,
    List.getD_eq_getElem?_getD]
  by_cases hij : i = j
  · have hlt : j < (table.rightpad (i + 1) []).length := by
      rw [List.rightpad, List.length_append, List.length_replicate]
      omega
    simp only [List.getElem?_eq_getElem hlt, if_pos hij]
    rfl
  · simp only [if_neg hij, List.append_nil]
    cases (table.rightpad (i + 1) [])[j]? <;> rfl

variable {key : α → Nat} {val : α → β} {table : List (List β)} {xs : List α}

theorem HoldsBuckets.nil : HoldsBuckets key val [] [] := fun _ => rfl

theorem HoldsBuckets.add (h : HoldsBuckets key val table xs) (x : α) :
    HoldsBuckets key val (addToBucket table (key x) (val x)) (xs ++ [x]) := by
  intro j
  rw [addToBucket_getD, h j, List.filter_append, List.map_append, List.filter_singleton]
  by_cases hj : key x = j
  · simp [hj]
  · simp [hj, beq_eq_false_iff_ne.mpr hj]

theorem HoldsBuckets.key_lt (h : HoldsBuckets key val table xs) {x : α} (hx : x ∈ xs) :
    key x < table.length := by
  by_contra hle
  have hempty : table.getD (key x) [] = [] := by
    rw [List.getD_eq_getElem?_getD, List.getElem?_eq_none (Nat.le_of_not_lt hle)]
    rfl
  have hfound : val x ∈ table.getD (key x) [] := by
    rw [h (key x)]
    exact List.mem_map_of_mem (List.mem_filter.mpr ⟨hx, by simp⟩)
  rw [hempty] at hfound
  cases hfound

/-- What a walk over the numbered buckets sees of the list. -/
theorem HoldsBuckets.flatMap (h : HoldsBuckets key val table xs) (f : Nat → β → γ) :
    (table.zipIdx.flatMap fun row => row.1.map (f row.2)) =
      (grouped key table.length xs).map fun x => f (key x) (val x) := by
  have rows : table.zipIdx = (List.range table.length).map fun i => (table.getD i [], i) := by
    refine List.ext_getElem (by simp) fun i hi _ => ?_
    rw [List.length_zipIdx] at hi
    simp [hi]
  rw [rows, List.flatMap_map, grouped, List.map_flatMap]
  refine List.flatMap_congr fun i _ => ?_
  rw [h i, List.map_map]
  refine List.map_congr_left fun x hx => ?_
  have hkey : key x = i := by simpa using (List.mem_filter.mp hx).2
  rw [Function.comp_apply, hkey]

theorem range_flatMap_ite (bound i : Nat) :
    ((List.range bound).flatMap fun j => if j = i then xs else []) =
      if i < bound then xs else [] := by
  induction bound with
  | zero => rfl
  | succ bound ih =>
    rw [List.range_succ, List.flatMap_append, ih, List.flatMap_singleton]
    rcases Nat.lt_trichotomy i bound with h | h | h
    · rw [if_pos h, if_neg (by omega), if_pos (by omega), List.append_nil]
    · rw [if_neg (by omega), if_pos h.symm, if_pos (by omega), List.nil_append]
    · rw [if_neg (by omega), if_neg (by omega), if_neg (by omega), List.nil_append]

theorem grouped_filter {bound : Nat} (below : ∀ x ∈ xs, key x < bound) (i : Nat) :
    (grouped key bound xs).filter (key · == i) = xs.filter (key · == i) := by
  have only : ∀ j, (xs.filter (key · == j)).filter (key · == i) =
      if j = i then xs.filter (key · == i) else [] := by
    intro j
    rw [List.filter_filter]
    by_cases hj : j = i
    · simp [hj]
    · rw [if_neg hj, List.filter_eq_nil_iff]
      intro x _
      simp only [Bool.and_eq_true, beq_iff_eq]
      omega
  rw [grouped, List.filter_flatMap, funext only, range_flatMap_ite]
  split
  next => rfl
  next hi =>
    refine (List.filter_eq_nil_iff.mpr fun x hx => ?_).symm
    have hlt := below x hx
    simp only [beq_iff_eq]
    omega

/-- Lists that agree key by key hold the same values. -/
theorem perm_of_filter_key {ys : List α}
    (h : ∀ i, ys.filter (key · == i) = xs.filter (key · == i)) : ys.Perm xs := by
  classical
  refine List.perm_iff_count.mpr fun a => ?_
  have hcount : ∀ zs : List α, zs.count a = (zs.filter (key · == key a)).count a := fun zs =>
    (List.count_filter (by simp)).symm
  rw [hcount ys, hcount xs, h]

theorem grouped_pairwise (key : α → Nat) (bound : Nat) (xs : List α) :
    (grouped key bound xs).Pairwise fun x y => key x ≤ key y := by
  have inBucket : ∀ i, ∀ x ∈ xs.filter (key · == i), key x = i := fun i x hx => by
    simpa using (List.mem_filter.mp hx).2
  refine List.pairwise_flatMap.mpr ⟨fun i _ => ?_, ?_⟩
  · refine List.pairwise_of_forall_mem_list fun x hx y hy => ?_
    rw [inBucket i x hx, inBucket i y hy]
  · refine List.pairwise_lt_range.imp fun {i j} hij x hx y hy => ?_
    rw [inBucket i x hx, inBucket j y hy]
    exact Nat.le_of_lt hij

end Rebpf.Lib
