import Mathlib.Tactic.Common

namespace Rebpf.Lib

universe u v

/-- The events `es` lead from `s` to `t` under a partial step function, and
`ok` holds of every event in the state it is taken in. -/
inductive Run {σ : Type u} {ε : Type v} (step : σ → ε → Option σ) (ok : σ → ε → Prop) :
    σ → List ε → σ → Prop
  | nil {s} : Run step ok s [] s
  | cons {s e mid es t} : ok s e → step s e = some mid → Run step ok mid es t →
      Run step ok s (e :: es) t

variable {σ : Type u} {ε : Type v} {step : σ → ε → Option σ} {ok : σ → ε → Prop}

/-- An invariant of the allowed steps holds wherever a run ends. -/
theorem Run.invariant {I : σ → Prop}
    (keeps : ∀ s e t, I s → ok s e → step s e = some t → I t)
    {s t : σ} {es : List ε} (run : Run step ok s es t) (h : I s) : I t := by
  induction run with
  | nil => exact h
  | cons allowed taken _ ih => exact ih (keeps _ _ _ h allowed taken)

theorem Run.invariant_events {I : σ → Prop} {P : ε → Prop}
    (keeps : ∀ s e t, P e → I s → ok s e → step s e = some t → I t)
    {s t : σ} {es : List ε} (run : Run step ok s es t) (events : ∀ e ∈ es, P e) (h : I s) :
    I t := by
  induction run with
  | nil => exact h
  | cons allowed taken _ ih =>
    exact ih (fun e he => events e (List.mem_cons_of_mem _ he))
      (keeps _ _ _ (events _ (by simp)) h allowed taken)

/-- An invariant that speaks of what the events have added up to. -/
theorem Run.invariant_fold {γ : Type*} {I : σ → γ → Prop} {P : ε → Prop} {f : γ → ε → γ}
    (keeps : ∀ s e t g, P e → I s g → ok s e → step s e = some t → I t (f g e))
    {s t : σ} {es : List ε} (run : Run step ok s es t) (events : ∀ e ∈ es, P e) {g : γ}
    (h : I s g) : I t (es.foldl f g) := by
  induction run generalizing g with
  | nil => exact h
  | cons allowed taken _ ih =>
    exact ih (fun e he => events e (List.mem_cons_of_mem _ he))
      (keeps _ _ _ _ (events _ List.mem_cons_self) h allowed taken)

/-- An invariant that speaks of the events so far. -/
theorem Run.invariant_past {I : σ → List ε → Prop} {P : ε → Prop}
    (keeps : ∀ s e t past, P e → I s past → ok s e → step s e = some t → I t (past ++ [e]))
    {s t : σ} {es : List ε} (run : Run step ok s es t) (events : ∀ e ∈ es, P e) (past : List ε)
    (h : I s past) : I t (past ++ es) := by
  induction run generalizing past with
  | nil => simpa using h
  | cons allowed taken _ ih =>
    have next := ih (fun e he => events e (List.mem_cons_of_mem _ he)) _
      (keeps _ _ _ _ (events _ List.mem_cons_self) h allowed taken)
    simpa using next

/-- Where an allowed step is one that keeps a property, the allowed runs are those that
have it throughout. -/
theorem Run.iff_throughout {I : σ → Prop}
    (keeps_iff : ∀ s e t, I s → step s e = some t → (I t ↔ ok s e))
    {s t : σ} {es : List ε} (h : I s) :
    Run step ok s es t ↔ Run step (fun s _ => I s) s es t ∧ I t := by
  constructor
  · intro run
    induction run with
    | nil => exact ⟨.nil, h⟩
    | cons allowed taken _ ih =>
      obtain ⟨rest, done⟩ := ih ((keeps_iff _ _ _ h taken).mpr allowed)
      exact ⟨.cons h taken rest, done⟩
  · rintro ⟨run, done⟩
    induction run with
    | nil => exact .nil
    | @cons s e mid es t holds taken rest ih =>
      have next : I mid := by
        cases rest with
        | nil => exact done
        | cons holds _ _ => exact holds
      exact .cons ((keeps_iff _ _ _ holds taken).mp next) taken (ih next done)

/-- A measure that no step lowers stands still in the runs whose steps all leave it. -/
theorem Run.iff_still {f : σ → Nat}
    (steps : ∀ s e t, step s e = some t → f s ≤ f t ∧ (f t = f s ↔ ok s e))
    {s t : σ} {es : List ε} (run : Run step (fun _ _ => True) s es t) :
    f s ≤ f t ∧ (f t = f s ↔ Run step ok s es t) := by
  induction run with
  | nil => exact ⟨Nat.le_refl _, iff_of_true rfl .nil⟩
  | @cons s e mid es t _ taken rest ih =>
    obtain ⟨hfirst, hok⟩ := steps _ _ _ taken
    obtain ⟨hrest, hrun⟩ := ih
    refine ⟨Nat.le_trans hfirst hrest, fun h => ?_, fun h => ?_⟩
    · have hmid : f mid = f s := Nat.le_antisymm (h ▸ hrest) hfirst
      exact .cons (hok.mp hmid) taken (hrun.mp (h.trans hmid.symm))
    · cases h with
      | cons allowed taken' rest' =>
        cases Option.some.inj (taken.symm.trans taken')
        exact (hrun.mpr rest').trans (hok.mpr allowed)

theorem Run.taken {s t : σ} {es : List ε} (run : Run step ok s es t) {e : ε} (he : e ∈ es) :
    ∃ s' t', ok s' e ∧ step s' e = some t' := by
  induction run with
  | nil => cases he
  | cons allowed taken _ ih =>
    rcases List.mem_cons.mp he with rfl | he
    · exact ⟨_, _, allowed, taken⟩
    · exact ih he

theorem Run.relax {ok' : σ → ε → Prop} {s t : σ} {es : List ε} (run : Run step ok s es t)
    (relax : ∀ s e, ok s e → ok' s e) : Run step ok' s es t := by
  induction run with
  | nil => exact .nil
  | cons allowed taken _ ih => exact .cons (relax _ _ allowed) taken ih

theorem Run.append {s mid t : σ} {es fs : List ε} (first : Run step ok s es mid)
    (rest : Run step ok mid fs t) : Run step ok s (es ++ fs) t := by
  induction first with
  | nil => exact rest
  | cons allowed taken _ ih => exact .cons allowed taken (ih rest)

theorem Run.single {s t : σ} {e : ε} (allowed : ok s e) (taken : step s e = some t) :
    Run step ok s [e] t :=
  .cons allowed taken .nil

/-- A system that can follow the steps of another one follows its run. -/
theorem Run.follow {τ : Type u} {ζ : Type v} {step' : τ → ζ → Option τ} {f : σ → τ} {g : ε → ζ}
    {s t : σ} {es : List ε} (run : Run step ok s es t)
    (follows : ∀ s, ∀ e ∈ es, ∀ t, step s e = some t → step' (f s) (g e) = some (f t)) :
    Run step' (fun _ _ => True) (f s) (es.map g) (f t) := by
  induction run with
  | nil => exact .nil
  | cons _ taken _ ih =>
    exact .cons trivial (follows _ _ List.mem_cons_self _ taken)
      (ih fun s e he => follows s e (List.mem_cons_of_mem _ he))

/-- Executing the events one after the other is a run of them. -/
theorem Run.of_foldlM {s t : σ} {es : List ε} (h : es.foldlM step s = some t) :
    Run step (fun _ _ => True) s es t := by
  induction es generalizing s with
  | nil =>
    cases Option.some.inj h
    exact .nil
  | cons e es ih =>
    rw [List.foldlM_cons] at h
    obtain ⟨mid, hmid, h⟩ := Option.bind_eq_some_iff.mp h
    exact .cons trivial hmid (ih h)

/-- So it is where the events are allowed whatever the state. -/
theorem Run.of_foldlM_all {s t : σ} {es : List ε} (h : es.foldlM step s = some t)
    (all : ∀ s, ∀ e ∈ es, ok s e) : Run step ok s es t := by
  induction es generalizing s with
  | nil =>
    cases Option.some.inj h
    exact .nil
  | cons e es ih =>
    rw [List.foldlM_cons] at h
    obtain ⟨mid, hmid, h⟩ := Option.bind_eq_some_iff.mp h
    exact .cons (all s e List.mem_cons_self) hmid
      (ih h fun s e he => all s e (List.mem_cons_of_mem _ he))

/-- So it is where what is asked of each event is checked on the way. -/
theorem Run.of_foldlM_checked {check : σ → ε → Bool} {s t : σ} {es : List ε}
    (h : es.foldlM (fun s e => if check s e then step s e else none) s = some t)
    (sound : ∀ s e, check s e = true → ok s e) : Run step ok s es t := by
  induction es generalizing s with
  | nil =>
    cases Option.some.inj h
    exact .nil
  | cons e es ih =>
    rw [List.foldlM_cons] at h
    obtain ⟨mid, hmid, h⟩ := Option.bind_eq_some_iff.mp h
    split at hmid
    next checked => exact .cons (sound _ _ checked) hmid (ih h)
    next => cases hmid

end Rebpf.Lib
