import Rebpf.DnsClassify

namespace Rebpf

open Lib

/-- A name of letters and digits as it was received, with its dots. -/
def DnsName.plain (name : DnsName) : String :=
  ".".intercalate (name.labels.map fun l => String.ofList (l.map fun b => Char.ofNat b.toNat)) ++
    if name.isFqdn then "." else ""

/-- Printing keeps the case of the letters. -/
def DnsCrates.KeepsCase (dc : DnsCrates) : Prop :=
  ∀ name : DnsName, (∀ label ∈ name.labels, ∀ b ∈ label, (Char.ofNat b.toNat).isAlphanum = true) →
    dc.nameToString name = name.plain

section

variable {c : Crates} {dc : DnsCrates} {accepts : AcceptsName} {ms : List Match}
  {text text' : String}

/-- The first entry, those for `bypass` before those for `redirect`, whose pattern
accepts one of the texts or both. -/
def firstAcceptingEither (c : Crates) (accepts : AcceptsName) (ms : List Match)
    (text text' : String) : Option (Direction × Match) :=
  let either direction := ms.find? fun m =>
    m.acceptsName c accepts direction text || m.acceptsName c accepts direction text'
  ((either .bypass).map (.bypass, ·)).or ((either .redirect).map (.redirect, ·))

/-- That entry, if there is one, accepts both. -/
def SpellingsAgree (c : Crates) (accepts : AcceptsName) (ms : List Match) (text text' : String) :
    Prop :=
  ∀ direction m, firstAcceptingEither c accepts ms text text' = some (direction, m) →
    m.acceptsName c accepts direction text = true ∧ m.acceptsName c accepts direction text' = true

theorem labelled_or_eq_iff {a b a' b' : Option Nat} :
    ((a.map (Direction.bypass, ·)).or (b.map (Direction.redirect, ·)) =
        (a'.map (Direction.bypass, ·)).or (b'.map (Direction.redirect, ·))) ↔
      a = a' ∧ (a = none → b = b') := by
  cases a with
  | none =>
    cases a' with
    | none =>
      have hinj : Function.Injective (Option.map fun i : Nat => (Direction.redirect, i)) :=
        Option.map_injective fun i j h => (Prod.mk.inj h).2
      simpa using hinj.eq_iff
    | some i => cases b <;> simp
  | some i =>
    cases a' with
    | none => cases b' <;> simp
    | some j => simp

theorem firstAccepting_eq_iff :
    firstAccepting c accepts ms text = firstAccepting c accepts ms text' ↔
      SpellingsAgree c accepts ms text text' := by
  rw [firstAccepting, firstAccepting, labelled_or_eq_iff, findIdx?_eq_findIdx?_iff,
    findIdx?_eq_findIdx?_iff, List.findIdx?_eq_none_iff]
  unfold SpellingsAgree firstAcceptingEither
  dsimp only
  cases hbypass : ms.find? fun m => m.acceptsName c accepts .bypass text ||
      m.acceptsName c accepts .bypass text' with
  | some m =>
    simp only [Option.map_some, Option.some_or, Option.some.injEq, Prod.mk.injEq]
    constructor
    · rintro ⟨hboth, _⟩ direction m' ⟨rfl, rfl⟩
      exact hboth m rfl
    · intro h
      have hboth := h .bypass m ⟨rfl, rfl⟩
      refine ⟨fun m' heq => heq ▸ hboth, fun hnone => ?_⟩
      rw [hnone m (List.mem_of_find?_eq_some hbypass)] at hboth
      exact absurd hboth.1 Bool.false_ne_true
  | none =>
    have hnone : ∀ m ∈ ms, m.acceptsName c accepts .bypass text = false := by
      intro m hm
      have hneither := List.find?_eq_none.mp hbypass m hm
      simp only [Bool.or_eq_true, not_or, Bool.not_eq_true] at hneither
      exact hneither.1
    simp only [Option.map_none, Option.none_or, Option.map_eq_some_iff, Prod.mk.injEq]
    constructor
    · rintro ⟨_, h⟩ direction m ⟨m', hm', rfl, rfl⟩
      exact h hnone m' hm'
    · intro h
      refine ⟨fun m heq => ?_, fun _ m hm => h .redirect m ⟨m, hm, rfl, rfl⟩⟩
      cases heq

/-- `get` answers alike for two names exactly if the first entry that accepts one of
their spellings accepts both. -/
theorem DnsCache.get_eq_iff (searches : dc.SearchesFirst c accepts) {ms : Matches} {dfa : DnsDfa}
    (h : ms.buildDnsDfa c = .ok dfa) (name name' : DnsName) :
    DnsCache.get dc ⟨some dfa⟩ name = DnsCache.get dc ⟨some dfa⟩ name' ↔
      SpellingsAgree c accepts ms.entries (dc.nameToString name) (dc.nameToString name') := by
  rw [get_of_build searches h, get_of_build searches h]
  exact firstAccepting_eq_iff

end

theorem sampleDnsCrates_keepsCase : sampleDnsCrates.KeepsCase := fun _ _ => rfl

theorem DnsCache.get_eq_iff_mixedRules :
    ∃ dfa, mixedRules.buildDnsDfa nameACrates = .ok dfa ∧
      DnsCache.get sampleDnsCrates ⟨some dfa⟩ ⟨[[98]], true⟩ =
        DnsCache.get sampleDnsCrates ⟨some dfa⟩ ⟨[[66]], true⟩ := by
  obtain ⟨dfa, hdfa⟩ := mixedRules_builds
  refine ⟨dfa, hdfa, (DnsCache.get_eq_iff nameACrates_searchesFirst hdfa _ _).mpr ?_⟩
  have hnone : firstAcceptingEither nameACrates nameAAccepts mixedRules.entries "b." "B." = none := by
    decide +kernel
  intro direction m hfirst
  exact absurd (hnone.symm.trans hfirst) (by simp)

/-- The entries for `a` classify the name received as `a.`, and not `A.`. -/
theorem DnsCache.get_not_congr :
    ¬∀ {c : Crates} {dc : DnsCrates} {accepts : AcceptsName}, dc.SearchesFirst c accepts →
      dc.KeepsCase → ∀ {ms : Matches} {dfa : DnsDfa}, ms.buildDnsDfa c = .ok dfa →
      ∀ name name' : DnsName, name.folded = name'.folded →
        DnsCache.get dc ⟨some dfa⟩ name = DnsCache.get dc ⟨some dfa⟩ name' := by
  intro h
  obtain ⟨dfa, hdfa⟩ := mixedRules_builds
  have same := h nameACrates_searchesFirst sampleDnsCrates_keepsCase hdfa ⟨[[97]], true⟩
    ⟨[[65]], true⟩ (by decide)
  rw [DnsCache.get_of_build nameACrates_searchesFirst hdfa,
    DnsCache.get_of_build nameACrates_searchesFirst hdfa] at same
  exact absurd same (by decide +kernel)

end Rebpf
