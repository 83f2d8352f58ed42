import Rebpf.ExtractTable
import Rebpf.Matches
import Rebpf.Lib.FirstMatch

namespace Rebpf

open Lib

abbrev Accepts := String → List UInt8 → Bool

/-- What a DFA of several patterns reports under the default match kind: every
match state lists one pattern, and where a search ends in a match state that
pattern is the lowest-numbered one that accepts the input. -/
structure ReportsFirst (accepts : Accepts) (pats : List String) (d : DenseDfa) : Prop where
  single : ∀ s ids, d.isMatchState s = true → d.matchPatterns s = some ids → ids.length = 1
  reports : ∀ w s, d.search w.reverse = some s → d.isMatchState s = true →
    ∃ k p, d.matchPatterns s = some [k] ∧ pats[k]? = some p ∧ accepts p w = true ∧
      ∀ j, j < k → ∀ q, pats[j]? = some q → accepts q w = false
  finds : ∀ w, (∃ p ∈ pats, accepts p w = true) →
    ∃ s, d.search w.reverse = some s ∧ d.isMatchState s = true

def Crates.LeftmostFirst (c : Crates) (accepts : Accepts) : Prop :=
  ∀ config pats d, config.reverse = true → config.matchKind = .leftmostFirst →
    c.buildMany config pats = .ok d → ReportsFirst accepts pats d

theorem buildDfa_reportsFirst {c : Crates} {accepts : Accepts} (first : c.LeftmostFirst accepts)
    {pats : List String} {d : DenseDfa} (h : buildDfa c pats true = .ok d) :
    ReportsFirst accepts pats d :=
  first _ _ _ rfl rfl (mapError_eq_ok.mp h)

def Match.acceptsPath (c : Crates) (accepts : Accepts) (path : List UInt8) (m : Match) : Bool :=
  (pathPattern c m).any (accepts · path)

/-- The lowest pattern that accepts the path belongs to the first entry that does. -/
theorem pathPatterns_first {c : Crates} {accepts : Accepts} {ms : List Match} {path : List UInt8}
    {k : Nat} {p : String} (hk : ((pathPatterns c ms).map (·.1))[k]? = some p)
    (hp : accepts p path = true)
    (below : ∀ j, j < k → ∀ q, ((pathPatterns c ms).map (·.1))[j]? = some q →
      accepts q path = false) {r : Nat × Match}
    (hr : Resolves ((pathPatterns c ms).map (·.2)) ms k r) :
    ms.find? (Match.acceptsPath c accepts path) = some r.2 := by
  rw [List.getElem?_map, Option.map_eq_some_iff] at hk
  obtain ⟨⟨p', i⟩, hki, rfl⟩ := hk
  obtain ⟨hlt, hget⟩ := List.getElem?_eq_some_iff.mp hki
  have hfind : (pathPatterns c ms).find? (fun r => accepts r.1 path) = some (p', i) := by
    rw [List.find?_eq_some_iff_getElem]
    refine ⟨hp, k, hlt, hget, ?_⟩
    intro j hj
    have hjlt : j < (pathPatterns c ms).length := by omega
    have := below j hj (pathPatterns c ms)[j].1 (by simp [List.getElem?_eq_getElem hjlt])
    simp [this]
  rw [pathPatterns, List.find?_filterMap] at hfind
  obtain ⟨⟨m, i'⟩, hz, hf⟩ := Option.bind_eq_some_iff.mp hfind
  obtain ⟨q, hq, heq⟩ := Option.map_eq_some_iff.mp hf
  obtain ⟨rfl, rfl⟩ := Prod.mk.inj heq
  have hmem : ms[i']? = some m := List.mk_mem_zipIdx_iff_getElem?.mp (List.mem_of_find?_eq_some hz)
  have hres : r = (i', m) := by
    have : resolve ((pathPatterns c ms).map (·.2)) ms k = some (i', m) := by
      simp [resolve, hki, hmem]
    exact Option.some.inj (hr.symm.trans this)
  have hsame : (fun r : Match × Nat => ((pathPattern c r.1).map (·, r.2)).any
      fun r => accepts r.1 path) = fun r => r.1.acceptsPath c accepts path := by
    funext r
    cases h : pathPattern c r.1 <;> simp [Match.acceptsPath, h]
  rw [find?_zipIdx, ← hsame, hz, hres]
  rfl

theorem acceptsPath_iff_pattern {c : Crates} {accepts : Accepts} {ms : List Match}
    {path : List UInt8} : (∃ m ∈ ms, m.acceptsPath c accepts path = true) ↔
      ∃ p ∈ (pathPatterns c ms).map (·.1), accepts p path = true := by
  simp only [Match.acceptsPath, Option.any_eq_true, pathPatterns, List.mem_map, List.mem_filterMap,
    Option.map_eq_some_iff, Prod.exists, Prod.mk.injEq, List.mk_mem_zipIdx_iff_getElem?]
  constructor
  · rintro ⟨m, hm, p, hp, ha⟩
    obtain ⟨i, hi⟩ := List.mem_iff_getElem?.mp hm
    exact ⟨p, ⟨p, i, ⟨m, i, hi, p, hp, rfl, rfl⟩, rfl⟩, ha⟩
  · rintro ⟨_, ⟨_, _, ⟨m, i, hi, p, hp, rfl, _⟩, rfl⟩, ha⟩
    exact ⟨m, List.mem_of_getElem? hi, p, hp, ha⟩

theorem forall₂_at {α β : Type} {R : α → β → Prop} {xs : List α} {ys : List β}
    (h : List.Forall₂ R xs ys) {k : Nat} {x : α} (hx : xs[k]? = some x) :
    ∃ y, ys[k]? = some y ∧ R x y := by
  obtain ⟨hk, rfl⟩ := List.getElem?_eq_some_iff.mp hx
  have hk' : k < ys.length := h.length_eq ▸ hk
  exact ⟨ys[k], List.getElem?_eq_getElem hk', h.get hk hk'⟩

theorem filled_of_single {d : DenseDfa}
    (single : ∀ s ids, d.isMatchState s = true → d.matchPatterns s = some ids → ids.length = 1)
    (s : Nat) (hm : d.isMatchState s = true) : d.matchPatterns s ≠ some [] := by
  intro he
  exact absurd (single s [] hm he) (by decide)

theorem flatten_length_single {lists : List (List Nat)} (h : ∀ l ∈ lists, l.length = 1) :
    lists.flatten.length = lists.length := by
  induction lists with
  | nil => rfl
  | cons l lists ih =>
    rw [List.flatten_cons, List.length_append, h l (by simp),
      ih (fun l' hl => h l' (List.mem_cons_of_mem _ hl)), List.length_cons]
    omega

theorem Extracted.pats_single {d : DenseDfa} {x : Dfa} (h : Extracted d x)
    (single : ∀ s ids, d.isMatchState s = true → d.matchPatterns s = some ids → ids.length = 1) :
    ∀ ids ∈ x.pats, ids.length = 1 := by
  intro ids hids
  rw [h.pats_eq (filled_of_single single)] at hids
  obtain ⟨s, hs, rfl⟩ := List.mem_map.mp hids
  have hs := List.mem_range'_1.mp hs
  have hlt := h.finMax_lt
  have hm := (h.fin_iff s (by omega)).mp (by omega)
  exact single s _ hm (h.lists s (by omega) hm)

end Rebpf
