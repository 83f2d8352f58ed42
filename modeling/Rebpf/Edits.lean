import Rebpf.Matches

namespace Rebpf

open Lib

namespace Matches

variable (c : Crates) (e : Endian) (self : Matches)

/-- The list with an entry pushed on, as a panic in the middle of a try leaves it. -/
def pushed (self : Matches) (m : Match) : Matches := { self with entries := self.entries ++ [m] }

theorem tryWith_cases {α : Type} (m : Match) (build : Matches → Except Failure α) :
    (∃ msg, self.tryWith m build = (.error (.err msg), self)) ∨
      (build (self.pushed m) = .error .panic ∧
        self.tryWith m build = (.error .panic, self.pushed m)) ∨
      (self.tryWith m build = (.ok (), self) ∧ ∃ a, build (self.pushed m) = .ok a) := by
  have hpop : { self.pushed m with entries := (self.pushed m).entries.dropLast } = self := by
    simp [pushed]
  cases h : build (self.pushed m) with
  | ok a =>
    refine Or.inr (Or.inr ⟨?_, a, rfl⟩)
    conv_rhs => rw [← hpop]
    simp only [pushed] at h
    simp [tryWith, h, pushed]
  | error f =>
    simp only [pushed] at h
    cases f with
    | err msg => exact Or.inl ⟨msg, by simp [tryWith, h]⟩
    | panic => exact Or.inr (Or.inl ⟨rfl, by simp [tryWith, h, pushed]⟩)

theorem tryWith_ok_iff {α : Type} (m : Match) (build : Matches → Except Failure α) :
    (self.tryWith m build).1 = .ok () ↔ ∃ a, build (self.pushed m) = .ok a := by
  obtain ⟨msg, h⟩ | ⟨hpanic, h⟩ | ⟨h, hbuild⟩ := tryWith_cases self m build
  · refine iff_of_false (by rw [h]; simp) ?_
    rintro ⟨a, ha⟩
    simp only [pushed] at ha
    simp [tryWith, ha] at h
  · refine iff_of_false (by rw [h]; simp) ?_
    rintro ⟨a, ha⟩
    rw [hpanic] at ha
    cases ha
  · exact iff_of_true (by rw [h]) hbuild

theorem tryParse_path_ok {m : Match} (process : m.isPerProcess = true) :
    (self.tryParse c e m).1 = .ok () ↔ ∃ r, (self.pushed m).buildPathDfa c e [] = .ok r := by
  have htry : self.tryParse c e m = self.tryWith m fun ms => ms.buildPathDfa c e [] := by
    unfold Match.isPerProcess at process
    unfold tryParse
    cases hkind : m.kind <;> simp [hkind] at process ⊢
  rw [htry, tryWith_ok_iff]

theorem buildDfa_not_panic (pats : List String) (reverse : Bool) :
    buildDfa c pats reverse ≠ .error .panic := by
  unfold buildDfa
  cases c.buildMany _ pats with
  | ok d => simp [Except.mapError]
  | error msg => simp [Except.mapError]

theorem buildDnsDfa_not_panic (ms : Matches) : ms.buildDnsDfa c ≠ .error .panic := by
  intro h
  unfold buildDnsDfa at h
  cases hredir : buildDfa c ((dnsPatterns c ms.entries .redirect).map (·.1)) false with
  | error f =>
    simp only [hredir, bind, Except.bind] at h
    cases h
    exact buildDfa_not_panic c _ _ hredir
  | ok redir =>
    cases hbypass : buildDfa c ((dnsPatterns c ms.entries .bypass).map (·.1)) false with
    | error f =>
      simp only [hredir, hbypass, bind, Except.bind] at h
      cases h
      exact buildDfa_not_panic c _ _ hbypass
    | ok bypass => simp [hredir, hbypass, bind, Except.bind, pure, Except.pure] at h

/-- Trying an entry leaves the list as it was, but for a panic, which only the
building of the path DFA can end in. -/
theorem tryParse_cases (m : Match) :
    (∃ msg, self.tryParse c e m = (.error (.err msg), self)) ∨
      (m.isDns = false ∧ self.tryParse c e m = (.error .panic, self.pushed m)) ∨
      self.tryParse c e m = (.ok (), self) := by
  have path := tryWith_cases self m fun ms => ms.buildPathDfa c e []
  have dns := tryWith_cases self m fun ms => ms.buildDnsDfa c
  cases hkind : m.kind with
  | basename =>
    simp only [tryParse, Match.isDns, hkind, true_and]
    exact path.imp_right (Or.imp And.right And.left)
  | path =>
    simp only [tryParse, Match.isDns, hkind, true_and]
    exact path.imp_right (Or.imp And.right And.left)
  | ipv4 =>
    simp only [tryParse, Match.isDns, hkind, true_and]
    split
    next =>
      cases parseIpv4Addr m.pattern with
      | none => exact Or.inl ⟨_, rfl⟩
      | some _ => exact Or.inr (Or.inr rfl)
    next =>
      cases c.parseIpNet m.pattern with
      | error msg => exact Or.inl ⟨msg, rfl⟩
      | ok _ => exact Or.inr (Or.inr rfl)
    next => exact Or.inl ⟨_, rfl⟩
  | dns =>
    simp only [tryParse, Match.isDns, hkind]
    obtain ⟨msg, h⟩ | ⟨hpanic, _⟩ | ⟨h, _⟩ := dns
    · exact Or.inl ⟨msg, h⟩
    · exact absurd hpanic (buildDnsDfa_not_panic c _)
    · exact Or.inr (Or.inr h)

theorem add_cases (new : Match) :
    (∃ msg, self.add c e new = (.error (.err msg), self)) ∨
      (new.isDns = false ∧ self.add c e new = (.error .panic, self.pushed new)) ∨
      (self.tryParse c e new = (.ok (), self) ∧
        self.add c e new = (.ok (), {
          entries := self.entries ++ [new]
          generation := self.generation + 1
          dnsCount := self.dnsCount + (if new.isDns then 1 else 0) })) := by
  unfold add
  obtain ⟨msg, h⟩ | ⟨hdns, h⟩ | h := tryParse_cases c e self new
  · exact Or.inl ⟨msg, by rw [h]⟩
  · exact Or.inr (Or.inl ⟨hdns, by rw [h]⟩)
  · exact Or.inr (Or.inr ⟨h, by rw [h]⟩)

theorem replace_cases (old new : Match) :
    (∃ msg, self.replace c e old new = (.error (.err msg), self)) ∨
      (∃ m, (m = old ∨ m = new) ∧ m.isDns = false ∧
        self.replace c e old new = (.error .panic, self.pushed m)) ∨
      ∃ pos, self.position old = some pos ∧ self.tryParse c e new = (.ok (), self) ∧
        self.replace c e old new = (.ok (), {
          entries := self.entries.set pos new
          generation := self.generation + 1
          dnsCount := self.dnsCount +
            ((if new.isDns then 1 else 0) - (if old.isDns then 1 else 0)) }) := by
  unfold replace
  obtain ⟨msg, h⟩ | ⟨hdns, h⟩ | h := tryParse_cases c e self old
  · exact Or.inl ⟨msg, by rw [h]⟩
  · exact Or.inr (Or.inl ⟨old, Or.inl rfl, hdns, by rw [h]⟩)
  rw [h]
  dsimp only
  obtain ⟨msg, h'⟩ | ⟨hdns, h'⟩ | h' := tryParse_cases c e self new
  · exact Or.inl ⟨msg, by rw [h']⟩
  · exact Or.inr (Or.inl ⟨new, Or.inr rfl, hdns, by rw [h']⟩)
  rw [h']
  dsimp only
  cases self.position old with
  | none => exact Or.inl ⟨_, rfl⟩
  | some pos => exact Or.inr (Or.inr ⟨pos, rfl, rfl, rfl⟩)

theorem del_cases (m : Match) :
    (∃ msg, self.del c e m = (.error (.err msg), self)) ∨
      (m.isDns = false ∧ self.del c e m = (.error .panic, self.pushed m)) ∨
      ∃ pos old, self.position m = some pos ∧ self.entries[pos]? = some old ∧
        self.del c e m = (.ok (), {
          entries := self.entries.eraseIdx pos
          generation := self.generation + 1
          dnsCount := self.dnsCount - (if old.isDns then 1 else 0) }) := by
  unfold del
  obtain ⟨msg, h⟩ | ⟨hdns, h⟩ | h := tryParse_cases c e self m
  · exact Or.inl ⟨msg, by rw [h]⟩
  · exact Or.inr (Or.inl ⟨hdns, by rw [h]⟩)
  rw [h]
  dsimp only
  cases hp : self.position m with
  | none => exact Or.inl ⟨_, rfl⟩
  | some pos =>
    obtain ⟨hlt, _⟩ := List.findIdx?_eq_some_iff_getElem.mp hp
    have hold : self.entries[pos]? = some self.entries[pos] := List.getElem?_eq_getElem hlt
    exact Or.inr (Or.inr ⟨pos, _, rfl, hold, by simp only [hold]⟩)

/-- The entry a request names and the one found for it agree up to the method. -/
theorem position_some {self : Matches} {m : Match} {pos : Nat} (h : self.position m = some pos) :
    ∃ old, self.entries[pos]? = some old ∧ old.isEqTo m = true := by
  obtain ⟨hlt, heq, _⟩ := List.findIdx?_eq_some_iff_getElem.mp h
  exact ⟨_, List.getElem?_eq_getElem hlt, heq⟩

end Matches

end Rebpf
