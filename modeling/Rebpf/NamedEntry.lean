import Rebpf.Edits
import Mathlib.Data.List.Perm.Basic

namespace Rebpf

open Lib

namespace Matches

/-- What a request about the entry `m` does: when it is accepted, `m` itself is
what gives way, and without such an entry it returns an error and nothing
changes (as long as it returns). `edited` is the list after an edit at a place. -/
structure HitsNamed (ms : Matches) (m : Match) (edited : Nat → List Match) (r : Outcome) :
    Prop where
  hits : r.1 = .ok () → ∃ pos, ms.entries[pos]? = some m ∧ r.2.entries = edited pos
  misses : m ∉ ms.entries → r.1 = .error .panic ∨ ∃ msg, r = (.error (.err msg), ms)

def Accepted (c : Crates) (e : Endian) (self : Matches) (m : Match) : Prop :=
  (self.tryParse c e m).1 = .ok ()

/-- The first entry that is like `m` but for the method has its method too. -/
def FirstAlike (self : Matches) (m : Match) : Prop :=
  ∀ old, self.entries.find? (·.isEqTo m) = some old → old.method = m.method

variable {self : Matches} {m : Match} {edited : Nat → List Match} {r : Outcome}

theorem HitsNamed.failed (self : Matches) (m : Match) (edited : Nat → List Match) (msg : String) :
    self.HitsNamed m edited (.error (.err msg), self) where
  hits h := by cases h
  misses _ := Or.inr ⟨msg, rfl⟩

theorem HitsNamed.panicked (self pushed : Matches) (m : Match) (edited : Nat → List Match) :
    self.HitsNamed m edited (.error .panic, pushed) where
  hits h := by cases h
  misses _ := Or.inl rfl

theorem isEqTo_method {a b : Match} (h : a.isEqTo b = true) : a = b ↔ a.method = b.method := by
  obtain ⟨hkind, hpattern, hdirection, huid⟩ := Match.isEqTo_iff.mp h
  constructor
  · rintro rfl
    rfl
  · intro hmethod
    cases a
    cases b
    simp_all

theorem find?_of_position {pos : Nat} (h : self.position m = some pos) :
    ∃ old, self.entries[pos]? = some old ∧ self.entries.find? (·.isEqTo m) = some old ∧
      old.isEqTo m = true := by
  obtain ⟨hlt, heq, hfirst⟩ := List.findIdx?_eq_some_iff_getElem.mp h
  refine ⟨self.entries[pos], List.getElem?_eq_getElem hlt, ?_, heq⟩
  rw [List.find?_eq_some_iff_getElem]
  refine ⟨heq, pos, hlt, rfl, fun j hj => ?_⟩
  exact Bool.not_eq_true' _ ▸ eq_false_of_ne_true (hfirst j hj)

theorem find?_of_position_none (h : self.position m = none) :
    self.entries.find? (·.isEqTo m) = none := by
  rw [List.find?_eq_none]
  intro a ha
  rw [List.findIdx?_eq_none_iff.mp h a ha]
  decide

/-- An edit at the place found hits the entry named exactly if that has the
method named, provided the list after an edit tells which entry gave way. -/
theorem hitsNamed_found {pos : Nat} (hpos : self.position m = some pos)
    (tells : ∀ pos pos' a b, self.entries[pos]? = some a → self.entries[pos']? = some b →
      edited pos = edited pos' → a = b)
    (hr : r.1 = .ok ()) (hedited : r.2.entries = edited pos) :
    self.HitsNamed m edited r ↔ self.FirstAlike m := by
  obtain ⟨old, hold, hfind, halike⟩ := find?_of_position hpos
  constructor
  · intro h found hfound
    cases Option.some.inj (hfind.symm.trans hfound)
    obtain ⟨pos', hm, hlist⟩ := h.hits hr
    rw [tells pos pos' old m hold hm (hedited.symm.trans hlist)]
  · intro h
    have heq := (isEqTo_method halike).mpr (h old hfind)
    rw [heq] at hold
    exact ⟨fun _ => ⟨pos, hold, hedited⟩, fun hmiss => absurd (List.mem_of_getElem? hold) hmiss⟩

theorem eraseIdx_tells {xs : List Match} (pos pos' : Nat) (a b : Match) (ha : xs[pos]? = some a)
    (hb : xs[pos']? = some b) (h : xs.eraseIdx pos = xs.eraseIdx pos') : a = b := by
  obtain ⟨hlt, rfl⟩ := List.getElem?_eq_some_iff.mp ha
  obtain ⟨hlt', rfl⟩ := List.getElem?_eq_some_iff.mp hb
  have hperm := (List.getElem_cons_eraseIdx_perm hlt).trans
    (List.getElem_cons_eraseIdx_perm hlt').symm
  rw [h] at hperm
  have happend : ([xs[pos]] ++ xs.eraseIdx pos').Perm ([xs[pos']] ++ xs.eraseIdx pos') := hperm
  exact List.singleton_perm_singleton.mp ((List.perm_append_right_iff _).mp happend)

theorem set_tells {xs : List Match} {new : Match} (pos pos' : Nat) (a b : Match)
    (ha : xs[pos]? = some a) (hb : xs[pos']? = some b) (h : xs.set pos new = xs.set pos' new) :
    a = b := by
  by_cases hsame : pos = pos'
  · subst hsame
    exact Option.some.inj (ha.symm.trans hb)
  · obtain ⟨hlt, _⟩ := List.getElem?_eq_some_iff.mp ha
    obtain ⟨hlt', _⟩ := List.getElem?_eq_some_iff.mp hb
    have hat : (xs.set pos new)[pos]? = (xs.set pos' new)[pos]? := by rw [h]
    have hat' : (xs.set pos new)[pos']? = (xs.set pos' new)[pos']? := by rw [h]
    rw [List.getElem?_set_self hlt, List.getElem?_set_ne (Ne.symm hsame), ha] at hat
    rw [List.getElem?_set_self hlt', List.getElem?_set_ne hsame, hb] at hat'
    exact (Option.some.inj hat).symm.trans (Option.some.inj hat').symm

theorem del_hits_iff (c : Crates) (e : Endian) (self : Matches) (m : Match) :
    self.HitsNamed m (self.entries.eraseIdx ·) (self.del c e m) ↔
      (self.Accepted c e m → self.FirstAlike m) := by
  unfold Accepted del
  obtain ⟨msg, h⟩ | ⟨_, h⟩ | h := tryParse_cases c e self m
  · rw [h]
    exact iff_of_true (.failed self m _ msg) (fun hok => by cases hok)
  · rw [h]
    exact iff_of_true (.panicked self _ m _) (fun hok => by cases hok)
  · rw [h]
    dsimp only
    cases hpos : self.position m with
    | none =>
      refine iff_of_true (.failed self m _ _) fun _ old hold => ?_
      rw [find?_of_position_none hpos] at hold
      cases hold
    | some pos =>
      rw [hitsNamed_found hpos eraseIdx_tells rfl rfl, forall_prop_of_true rfl]

theorem replace_hits_iff (c : Crates) (e : Endian) (self : Matches) (m new : Match) :
    self.HitsNamed m (self.entries.set · new) (self.replace c e m new) ↔
      (self.Accepted c e m → self.Accepted c e new → self.FirstAlike m) := by
  unfold Accepted replace
  obtain ⟨msg, h⟩ | ⟨_, h⟩ | h := tryParse_cases c e self m
  · rw [h]
    exact iff_of_true (.failed self m _ msg) (fun hok => by cases hok)
  · rw [h]
    exact iff_of_true (.panicked self _ m _) (fun hok => by cases hok)
  rw [h]
  dsimp only
  obtain ⟨msg, h'⟩ | ⟨_, h'⟩ | h' := tryParse_cases c e self new
  · rw [h']
    exact iff_of_true (.failed self m _ msg) (fun _ hok => by cases hok)
  · rw [h']
    exact iff_of_true (.panicked self _ m _) (fun _ hok => by cases hok)
  · rw [h']
    dsimp only
    cases hpos : self.position m with
    | none =>
      refine iff_of_true (.failed self m _ _) fun _ _ old hold => ?_
      rw [find?_of_position_none hpos] at hold
      cases hold
    | some pos =>
      rw [hitsNamed_found hpos set_tells rfl rfl, forall_prop_of_true rfl, forall_prop_of_true rfl]

/-- Both requests hit the entry they name unless the first entry like it has
another method. -/
theorem edits_hit_named_iff (c : Crates) (e : Endian) (self : Matches) (m new : Match) :
    (self.HitsNamed m (self.entries.eraseIdx ·) (self.del c e m) ↔
      (self.Accepted c e m → self.FirstAlike m)) ∧
    (self.HitsNamed m (self.entries.set · new) (self.replace c e m new) ↔
      (self.Accepted c e m → self.Accepted c e new → self.FirstAlike m)) :=
  ⟨del_hits_iff c e self m, replace_hits_iff c e self m new⟩

end Matches

/-- `/a` as a text and as a regular expression, which both mean `/a`. -/
def slashAEitherCrates : Crates :=
  { slashACrates with
    buildMany := fun _ pats =>
      if pats ≠ [] ∧ pats.all (fun p => p == "^/a$" || p == "^(?:/a)$") then .ok slashADfa
      else .error "unsupported" }

def slashARegex : Match := { slashARule .redirect 0 with method := .regex }

def slashAStored : Matches := { entries := [slashARule .redirect 0], generation := 1, dnsCount := 0 }

set_option maxRecDepth 4000 in
theorem slashAStored_del :
    (slashAStored.del slashAEitherCrates .little slashARegex).1 = .ok () := by
  rfl

namespace Matches

/-- A request to delete the regular expression `/a` deletes the text `/a`. -/
theorem edits_not_hit_named :
    ¬∀ (c : Crates) (e : Endian) (self : Matches) (m new : Match),
      self.HitsNamed m (self.entries.eraseIdx ·) (self.del c e m) ∧
        self.HitsNamed m (self.entries.set · new) (self.replace c e m new) := by
  intro h
  obtain ⟨hdel, _⟩ := h slashAEitherCrates .little slashAStored slashARegex slashARegex
  obtain ⟨pos, hpos, _⟩ := hdel.hits slashAStored_del
  have hmem : slashARegex ∈ [slashARule .redirect 0] := List.mem_of_getElem? hpos
  exact absurd hmem (by decide)

end Matches

end Rebpf
