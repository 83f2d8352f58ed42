import Mathlib.Data.List.Perm.Basic
import Mathlib.Tactic.Common

namespace Rebpf.Lib

universe u v w

variable {σ : Type u} {α : Type v} {κ : Type w} {key : α → κ} {merged : List κ → σ} {xs : List α}

/-- Entries that are taken over one by one: the result depends on their keys alone. -/
theorem foldlM_keys {m : Type u → Type u} [Monad m] [LawfulMonad m] {step : σ → α → m σ}
    (each : ∀ keys, ∀ x ∈ xs, step (merged keys) x = pure (merged (keys ++ [key x])))
    (keys : List κ) : xs.foldlM step (merged keys) = pure (merged (keys ++ xs.map key)) := by
  induction xs generalizing keys with
  | nil => rw [List.foldlM_nil, List.map_nil, List.append_nil]
  | cons x xs ih =>
    rw [List.foldlM_cons, each keys x List.mem_cons_self, pure_bind,
      ih (fun keys y hy => each keys y (List.mem_cons_of_mem _ hy)), List.map_cons,
      List.append_assoc]
    rfl

theorem foldl_keys {step : σ → α → σ}
    (each : ∀ keys, ∀ x ∈ xs, step (merged keys) x = merged (keys ++ [key x]))
    (keys : List κ) : xs.foldl step (merged keys) = merged (keys ++ xs.map key) := by
  have h := @foldlM_keys σ α κ key merged xs Id _ _ (fun s x => pure (step s x))
    (fun keys x hx => congrArg pure (each keys x hx)) keys
  rwa [List.foldlM_pure] at h

/-- One entry that never goes in spoils the whole list, wherever it stands. -/
theorem foldlM_spoiled {ε : Type u} {step : σ → α → Except ε σ} {f : ε}
    (each : ∀ x ∈ xs, (∀ s, ∃ t, step s x = .ok t) ∨ ∀ s, step s x = .error f)
    (spoiled : ∃ x ∈ xs, ∀ s, step s x = .error f) (s : σ) : xs.foldlM step s = .error f := by
  induction xs generalizing s with
  | nil =>
    obtain ⟨_, hx, _⟩ := spoiled
    cases hx
  | cons x xs ih =>
    rw [List.foldlM_cons]
    rcases each x List.mem_cons_self with hok | herror
    · obtain ⟨t, ht⟩ := hok s
      obtain ⟨y, hy, hbad⟩ := spoiled
      rcases List.mem_cons.mp hy with rfl | hy
      · rw [hbad s] at ht
        cases ht
      · rw [ht]
        exact ih (fun z hz => each z (List.mem_cons_of_mem _ hz)) ⟨y, hy, hbad⟩ t
    · rw [herror s]
      rfl

end Rebpf.Lib
