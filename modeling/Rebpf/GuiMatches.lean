import Mathlib.Data.List.Infix
import Rebpf.PathPatterns

namespace Rebpf

open Lib

/-- `str::rsplit_once`: the text before and after the last separator. -/
def rsplitOnce (sep : Char) : List Char → Option (List Char × List Char)
  | [] => none
  | c :: cs =>
    match rsplitOnce sep cs with
    | some (before, after) => some (c :: before, after)
    | none => if c = sep then some ([], cs) else none

theorem rsplitOnce_eq_none {sep : Char} {cs : List Char} :
    rsplitOnce sep cs = none ↔ sep ∉ cs := by
  induction cs with
  | nil => simp [rsplitOnce]
  | cons c cs ih =>
    rw [rsplitOnce, List.mem_cons, not_or, ← ih]
    cases rsplitOnce sep cs with
    | some found => simp
    | none =>
      by_cases hc : c = sep
      · simp [hc]
      · simp [hc, Ne.symm hc]

theorem rsplitOnce_eq_some {sep : Char} {cs before after : List Char} :
    rsplitOnce sep cs = some (before, after) ↔ cs = before ++ sep :: after ∧ sep ∉ after := by
  induction cs generalizing before with
  | nil => simp [rsplitOnce]
  | cons c cs ih =>
    rw [rsplitOnce]
    cases hrest : rsplitOnce sep cs with
    | some found =>
      obtain ⟨d, b⟩ := found
      rw [hrest] at ih
      have hcs := rsplitOnce_eq_none.not.mp (by rw [hrest]; simp)
      cases before with
      | nil =>
        simp only [Option.some.injEq, Prod.mk.injEq, List.nil_append, List.cons.injEq]
        constructor
        · rintro ⟨h, _⟩
          cases h
        · rintro ⟨⟨_, rfl⟩, hnot⟩
          exact absurd hnot hcs
      | cons e before =>
        have hih := @ih before
        simp only [Option.some.injEq, Prod.mk.injEq, List.cons_append, List.cons.injEq] at hih ⊢
        rw [and_assoc, hih, and_assoc]
    | none =>
      have hcs := rsplitOnce_eq_none.mp hrest
      cases before with
      | nil =>
        by_cases hc : c = sep
        · simp only [hc, if_true, Option.some.injEq, Prod.mk.injEq, true_and, List.nil_append,
            List.cons.injEq]
          constructor
          · rintro rfl
            exact ⟨rfl, hcs⟩
          · exact And.left
        · simp [hc]
      | cons e before =>
        refine iff_of_false ?_ ?_
        · by_cases hc : c = sep
          · simp [hc]
          · simp [hc]
        · rintro ⟨heq, _⟩
          obtain ⟨_, rfl⟩ := List.cons.inj heq
          exact hcs (by simp)

namespace Gui

/-- The `regex` crate as the app uses it. -/
structure RegexCrate where
  Re : Type
  new : String → Option Re
  isMatch : Re → String → Bool

/-- `Match` of the app, its fields the texts the service sends. -/
structure Match where
  pattern : String
  kind : String
  method : String
  direction : String
  user : String
  uid : String
deriving DecidableEq, Repr

namespace Match

variable (re : RegexCrate)

def matchesPart (self : Match) (s : List Char) (cache : List (Match × Option re.Re)) :
    Bool × List (Match × Option re.Re) :=
  match self.method with
  | "full" => (decide (s = self.pattern.toList), cache)
  | "prefix" => (decide (self.pattern.toList <+: s), cache)
  | "suffix" => (decide (self.pattern.toList <:+ s), cache)
  | "substring" => (decide (self.pattern.toList <:+: s), cache)
  | "regex" =>
    let cache := if cache.any (·.1 == self) then cache else (self, re.new self.pattern) :: cache
    let found := (cache.find? (·.1 == self)).bind (·.2)
    (found.any (re.isMatch · (String.ofList s)), cache)
  | _ => (false, cache)

/-- The app's `matches`. -/
def matchesPath (self : Match) (s : String) (cache : List (Match × Option re.Re)) :
    Bool × List (Match × Option re.Re) :=
  match self.kind with
  | "path" => self.matchesPart re s.toList cache
  | "basename" =>
    self.matchesPart re (((rsplitOnce '/' s.toList).map (·.2)).getD s.toList) cache
  | _ => (false, cache)

/-- The app has the entry with its pattern, kind and method. -/
structure Shows (g : Match) (m : Rebpf.Match) : Prop where
  pattern : g.pattern = m.pattern
  kind : g.kind = m.kind.name
  method : g.method = m.method.name

variable {re : RegexCrate} {g : Match} {m : Rebpf.Match}
  {cache : List (Match × Option re.Re)}

theorem matchesPart_iff (shows : g.Shows m) (htext : m.method.isText = true) {s : List Char} :
    (g.matchesPart re s cache).1 = true ↔ ∃ y t, s = y ++ m.pattern.toList ++ t ∧
      (m.method.looksBack = false → y = []) ∧ (m.method.looksOn = false → t = []) := by
  have hname := shows.method
  rw [← shows.pattern]
  cases hmethod : m.method with
  | full =>
    rw [hmethod] at hname
    simp only [matchesPart, hname, Method.name, decide_eq_true_eq]
    constructor
    · rintro rfl
      exact ⟨[], [], by simp, by simp, by simp⟩
    · rintro ⟨y, t, rfl, hy, ht⟩
      rw [hy rfl, ht rfl, List.nil_append, List.append_nil]
  | prefixOf =>
    rw [hmethod] at hname
    simp only [matchesPart, hname, Method.name, decide_eq_true_eq]
    constructor
    · rintro ⟨t, rfl⟩
      exact ⟨[], t, rfl, by simp, by rintro ⟨⟩⟩
    · rintro ⟨y, t, rfl, hy, _⟩
      exact ⟨t, by rw [hy rfl, List.nil_append]⟩
  | suffix =>
    rw [hmethod] at hname
    simp only [matchesPart, hname, Method.name, decide_eq_true_eq]
    constructor
    · rintro ⟨y, rfl⟩
      exact ⟨y, [], by simp, by rintro ⟨⟩, by simp⟩
    · rintro ⟨y, t, rfl, _, ht⟩
      exact ⟨y, by rw [ht rfl, List.append_nil]⟩
  | substring =>
    rw [hmethod] at hname
    simp only [matchesPart, hname, Method.name, decide_eq_true_eq]
    constructor
    · rintro ⟨y, t, rfl⟩
      exact ⟨y, t, rfl, by rintro ⟨⟩, by rintro ⟨⟩⟩
    · rintro ⟨y, t, rfl, _, _⟩
      exact ⟨y, t, rfl⟩
  | regex =>
    rw [hmethod] at htext
    cases htext
  | subnet =>
    rw [hmethod] at htext
    cases htext

theorem matchesPath_path (shows : g.Shows m) (hkind : m.kind = .path)
    (htext : m.method.isText = true) {path : String} :
    (g.matchesPath re path cache).1 = true ↔ ∃ y t, path.toList = y ++ m.pattern.toList ++ t ∧
      (m.method.looksBack = false → y = []) ∧ (m.method.looksOn = false → t = []) := by
  have hname : g.kind = "path" := by rw [shows.kind, hkind, Kind.name]
  simp only [matchesPath, hname]
  exact matchesPart_iff shows htext

end Match

end Gui

/-- The pattern stands in the path, between `u` and `v`, where the method asks
for it: at the start of a component for `full` and `prefix`, at the end of the
path for `full` and `suffix`. -/
structure Occurs (method : Method) (p s u v : List Char) : Prop where
  text : s = u ++ p ++ v
  opens : method.looksBack = false → u = [] ∨ ∃ d, u = d ++ ['/']
  ends : method.looksOn = false → v = []

/-- No newline in the directories before an occurrence nor in the text after it. -/
def Clear (u v : List Char) : Prop :=
  '\n' ∉ v ∧ ∀ d y, rsplitOnce '/' u = some (d, y) → '\n' ∉ d

def InLast (p v : List Char) : Prop := '/' ∉ p ++ v

/-- The pattern occurs in the last component and it occurs, there or elsewhere,
without newlines around it, or it does neither. -/
def BasenameAgrees (method : Method) (p s : List Char) : Prop :=
  ((∃ u v, Occurs method p s u v ∧ InLast p v) ∧ ∃ u v, Occurs method p s u v ∧ Clear u v) ∨
    ∀ u v, Occurs method p s u v → ¬InLast p v ∧ ¬Clear u v

/-- What follows the pattern at the start of the path is free of newlines for
`prefix`, a path that ends with the pattern is the pattern for `suffix`, and a
path that contains the pattern starts with it, and goes on without newlines,
for `substring`. -/
def PathAgrees (method : Method) (p s : List Char) : Prop :=
  match method with
  | .prefixOf => ∀ t, s = p ++ t → '\n' ∉ t
  | .suffix => p <:+ s → s = p
  | .substring => p <:+: s → ∃ t, s = p ++ t ∧ '\n' ∉ t
  | .full | .regex | .subnet => True

section

variable {method : Method} {p s : List Char}

theorem component_opens {u d y : List Char} (h : u = [] ∨ ∃ d, u = d ++ ['/'])
    (hsplit : rsplitOnce '/' u = some (d, y)) : y = [] := by
  rcases h with rfl | ⟨d', rfl⟩
  · cases hsplit
  · have hlast : rsplitOnce '/' (d' ++ ['/']) = some (d', []) :=
      rsplitOnce_eq_some.mpr ⟨rfl, by simp⟩
    rw [hlast] at hsplit
    exact (Prod.mk.inj (Option.some.inj hsplit)).2.symm

theorem absolute_split (habs : s.head? = some '/') : ∃ d b, rsplitOnce '/' s = some (d, b) := by
  cases hsplit : rsplitOnce '/' s with
  | none => exact absurd (List.mem_of_head? habs) (rsplitOnce_eq_none.mp hsplit)
  | some found => exact ⟨found.1, found.2, rfl⟩

theorem basename_accepts_iff (htext : method.isText = true) :
    (pathRegex .basename method p).Accepts s ↔ ∃ u v, Occurs method p s u v ∧ Clear u v := by
  rw [pathRegex_basename htext]
  constructor
  · rintro ⟨d, y, t, rfl, hd, ⟨hy, hback⟩, ht, hon⟩
    refine ⟨d ++ y, t, ⟨rfl, fun hfixed => ?_, hon⟩, ht, fun d' y' hsplit => ?_⟩
    · rw [hback hfixed, List.append_nil]
      exact hd.imp_right fun ⟨x, hx, _⟩ => ⟨x, hx⟩
    · rcases hd with rfl | ⟨x, rfl, hx⟩
      · have hslash : '/' ∈ y := by
          rw [List.nil_append] at hsplit
          rw [(rsplitOnce_eq_some.mp hsplit).1]
          simp
        exact absurd hslash hy
      · have hlast : rsplitOnce '/' (x ++ ['/'] ++ y) = some (x, y) :=
          rsplitOnce_eq_some.mpr ⟨by simp, hy⟩
        rw [hlast] at hsplit
        cases Option.some.inj hsplit
        exact hx
  · rintro ⟨u, v, ⟨rfl, hopens, hends⟩, hv, hu⟩
    cases hsplit : rsplitOnce '/' u with
    | none =>
      have hslash := rsplitOnce_eq_none.mp hsplit
      refine ⟨[], u, v, rfl, Or.inl rfl, ⟨hslash, fun hfixed => ?_⟩, hv, hends⟩
      rcases hopens hfixed with rfl | ⟨d, rfl⟩
      · rfl
      · exact absurd (by simp) hslash
    | some found =>
      obtain ⟨d, y⟩ := found
      obtain ⟨rfl, hy⟩ := rsplitOnce_eq_some.mp hsplit
      refine ⟨d ++ ['/'], y, v, by simp, Or.inr ⟨d, rfl, hu d y hsplit⟩, ⟨hy, fun hfixed => ?_⟩,
        hv, hends⟩
      exact component_opens (hopens hfixed) hsplit

/-- Before an absolute path nothing but a slash can be skipped. -/
theorem path_accepts_iff (htext : method.isText = true) (habs : s.head? = some '/') :
    (pathRegex .path method p).Accepts s ↔ ∃ t, s = p ++ t ∧ '\n' ∉ t ∧
      (method.looksOn = false → t = []) := by
  rw [pathRegex_path htext]
  constructor
  · rintro ⟨y, t, rfl, ⟨hy, _⟩, ht, hon⟩
    cases y with
    | nil => exact ⟨t, rfl, ht, hon⟩
    | cons c y =>
      cases Option.some.inj habs
      exact absurd List.mem_cons_self hy
  · rintro ⟨t, rfl, ht, hon⟩
    exact ⟨[], t, rfl, ⟨by simp, fun _ => rfl⟩, ht, hon⟩

/-- The app looks for the pattern in the last component alone. -/
theorem basename_matches_iff {re : Gui.RegexCrate} {g : Gui.Match} {m : Match}
    {cache : List (Gui.Match × Option re.Re)} (shows : g.Shows m) (hkind : m.kind = .basename)
    (htext : m.method.isText = true) {path : String} (habs : path.toList.head? = some '/') :
    (g.matchesPath re path cache).1 = true ↔
      ∃ u v, Occurs m.method m.pattern.toList path.toList u v ∧ InLast m.pattern.toList v := by
  have hname : g.kind = "basename" := by rw [shows.kind, hkind, Kind.name]
  obtain ⟨d, b, hsplit⟩ := absolute_split habs
  obtain ⟨hpath, hb⟩ := rsplitOnce_eq_some.mp hsplit
  simp only [Gui.Match.matchesPath, hname, hsplit, Option.map_some, Option.getD_some]
  rw [Gui.Match.matchesPart_iff shows htext]
  constructor
  · rintro ⟨y, t, rfl, hback, hon⟩
    refine ⟨d ++ '/' :: y, t, ⟨by simp [hpath], fun hfixed => ?_, hon⟩, fun hslash => ?_⟩
    · exact Or.inr ⟨d, by rw [hback hfixed]⟩
    · rw [List.append_assoc] at hb
      exact hb (List.mem_append_right y hslash)
  · rintro ⟨u, v, ⟨htext', hopens, hends⟩, hlast⟩
    rw [List.append_assoc] at htext'
    cases hu : rsplitOnce '/' u with
    | none =>
      have hnone : '/' ∉ u ++ (m.pattern.toList ++ v) :=
        List.not_mem_append (rsplitOnce_eq_none.mp hu) hlast
      rw [htext', rsplitOnce_eq_none.mpr hnone] at hsplit
      cases hsplit
    | some found =>
      obtain ⟨d', y⟩ := found
      obtain ⟨rfl, hy⟩ := rsplitOnce_eq_some.mp hu
      have hwhole : rsplitOnce '/' path.toList = some (d', y ++ (m.pattern.toList ++ v)) :=
        rsplitOnce_eq_some.mpr ⟨by rw [htext']; simp, List.not_mem_append hy hlast⟩
      rw [hwhole] at hsplit
      obtain ⟨_, rfl⟩ := Prod.mk.inj (Option.some.inj hsplit)
      refine ⟨y, v, (List.append_assoc _ _ _).symm, fun hfixed => ?_, hends⟩
      exact component_opens (hopens hfixed) hu

theorem basenameAgrees_iff {accepts matched : Prop}
    (haccepts : accepts ↔ ∃ u v, Occurs method p s u v ∧ Clear u v)
    (hmatched : matched ↔ ∃ u v, Occurs method p s u v ∧ InLast p v) :
    (accepts ↔ matched) ↔ BasenameAgrees method p s := by
  rw [haccepts, hmatched, BasenameAgrees]
  constructor
  · intro h
    by_cases hlast : ∃ u v, Occurs method p s u v ∧ InLast p v
    · exact Or.inl ⟨hlast, h.mpr hlast⟩
    · refine Or.inr fun u v hoccurs => ⟨fun hin => ?_, fun hclear => ?_⟩
      · exact hlast ⟨u, v, hoccurs, hin⟩
      · exact hlast (h.mp ⟨u, v, hoccurs, hclear⟩)
  · rintro (⟨hlast, hclear⟩ | hnone)
    · exact iff_of_true hclear hlast
    · refine iff_of_false ?_ ?_
      · rintro ⟨u, v, hoccurs, hclear⟩
        exact (hnone u v hoccurs).2 hclear
      · rintro ⟨u, v, hoccurs, hin⟩
        exact (hnone u v hoccurs).1 hin

/-- On a path of one line only the place of the pattern counts. -/
theorem basenameAgrees_oneLine (hline : '\n' ∉ s) : BasenameAgrees method p s ↔
    ((∃ u v, Occurs method p s u v) → ∃ u v, Occurs method p s u v ∧ InLast p v) := by
  have hclear : ∀ u v, Occurs method p s u v → Clear u v := by
    rintro u v ⟨rfl, _, _⟩
    refine ⟨fun h => hline (List.mem_append_right _ h), fun d y hsplit h => ?_⟩
    obtain ⟨rfl, _⟩ := rsplitOnce_eq_some.mp hsplit
    exact hline (by simp [h])
  constructor
  · rintro (⟨hlast, _⟩ | hnone)
    · exact fun _ => hlast
    · rintro ⟨u, v, hoccurs⟩
      exact absurd (hclear u v hoccurs) (hnone u v hoccurs).2
  · intro h
    by_cases hsome : ∃ u v, Occurs method p s u v
    · obtain ⟨u, v, hoccurs⟩ := hsome
      exact Or.inl ⟨h ⟨u, v, hoccurs⟩, u, v, hoccurs, hclear u v hoccurs⟩
    · exact Or.inr fun u v hoccurs => absurd ⟨u, v, hoccurs⟩ hsome

/-- The two look for the pattern in the same path, the regular expression only at its start. -/
theorem pathAgrees_iff (htext : method.isText = true) :
    ((∃ t, s = p ++ t ∧ '\n' ∉ t ∧ (method.looksOn = false → t = [])) ↔
      ∃ y t, s = y ++ p ++ t ∧ (method.looksBack = false → y = []) ∧
        (method.looksOn = false → t = [])) ↔ PathAgrees method p s := by
  have hstart : (∃ t, s = p ++ t ∧ '\n' ∉ t ∧ (method.looksOn = false → t = [])) →
      ∃ y t, s = y ++ p ++ t ∧ (method.looksBack = false → y = []) ∧
        (method.looksOn = false → t = []) := by
    rintro ⟨t, hs, _, ht⟩
    exact ⟨[], t, hs, fun _ => rfl, ht⟩
  refine (iff_def.trans (and_iff_right hstart)).trans ?_
  cases method with
  | full =>
    refine iff_of_true ?_ trivial
    rintro ⟨y, t, hs, hy, ht⟩
    rw [hy rfl, ht rfl, List.nil_append] at hs
    exact ⟨[], hs, by simp, fun _ => rfl⟩
  | prefixOf =>
    constructor
    · rintro h t rfl
      obtain ⟨t', heq, ht, _⟩ := h ⟨[], t, rfl, fun _ => rfl, by rintro ⟨⟩⟩
      rwa [List.append_cancel_left heq]
    · rintro h ⟨y, t, hs, hy, ht⟩
      rw [hy rfl, List.nil_append] at hs
      exact ⟨t, hs, h t hs, ht⟩
  | suffix =>
    constructor
    · rintro h ⟨y, rfl⟩
      obtain ⟨t, hs, _, ht⟩ := h ⟨y, [], by simp, by rintro ⟨⟩, fun _ => rfl⟩
      rw [hs, ht rfl, List.append_nil]
    · rintro h ⟨y, t, hs, _, ht⟩
      rw [ht rfl, List.append_nil] at hs
      exact ⟨[], by rw [h ⟨y, hs.symm⟩, List.append_nil], by simp, fun _ => rfl⟩
  | substring =>
    constructor
    · rintro h ⟨y, t, rfl⟩
      obtain ⟨t', hs, ht, _⟩ := h ⟨y, t, rfl, by rintro ⟨⟩, by rintro ⟨⟩⟩
      exact ⟨t', hs, ht⟩
    · rintro h ⟨y, t, hs, _, _⟩
      obtain ⟨t', hs', ht'⟩ := h ⟨y, t, hs.symm⟩
      exact ⟨t', hs', ht', by rintro ⟨⟩⟩
  | regex => cases htext
  | subnet => cases htext

end

section

variable {c : Crates} {re : Gui.RegexCrate} {m : Match} {g : Gui.Match}
  (cache : List (Gui.Match × Option re.Re)) {path : String}

/-- The regular expression of a `basename` entry and the app agree on a path
exactly when the pattern stands as `BasenameAgrees` says. -/
theorem basename_agrees_iff (escapes : c.EscapesLiterals) (shows : g.Shows m)
    (hkind : m.kind = .basename) (htext : m.method.isText = true) (hpat : m.pattern ≠ "")
    (habs : path.toList.head? = some '/') :
    ∃ text r, pathPattern c m = some text ∧ Regex.parse text = some r ∧
      ((r.Accepts path.toList ↔ (g.matchesPath re path cache).1 = true) ↔
        BasenameAgrees m.method m.pattern.toList path.toList) := by
  have hper : m.isPerProcess = true := by rw [Match.isPerProcess, hkind]
  obtain ⟨text, hpattern, hparse⟩ := pathPattern_parse escapes hpat htext hper
  refine ⟨text, _, hpattern, hparse, ?_⟩
  rw [hkind]
  exact basenameAgrees_iff (basename_accepts_iff htext) (basename_matches_iff shows hkind htext habs)

theorem path_agrees_iff (escapes : c.EscapesLiterals) (shows : g.Shows m)
    (hkind : m.kind = .path) (htext : m.method.isText = true) (hpat : m.pattern ≠ "")
    (habs : path.toList.head? = some '/') :
    ∃ text r, pathPattern c m = some text ∧ Regex.parse text = some r ∧
      ((r.Accepts path.toList ↔ (g.matchesPath re path cache).1 = true) ↔
        PathAgrees m.method m.pattern.toList path.toList) := by
  have hper : m.isPerProcess = true := by rw [Match.isPerProcess, hkind]
  obtain ⟨text, hpattern, hparse⟩ := pathPattern_parse escapes hpat htext hper
  refine ⟨text, _, hpattern, hparse, ?_⟩
  rw [hkind, path_accepts_iff htext habs, Gui.Match.matchesPath_path shows hkind htext]
  exact pathAgrees_iff htext

end

def escapingCrates : Crates := { slashACrates with escape := Regex.escape }

theorem escapingCrates_escapes : escapingCrates.EscapesLiterals := Regex.escape_readsAs

def noRegex : Gui.RegexCrate := ⟨Unit, fun _ => none, fun _ _ => false⟩

def fooRule (kind : Kind) (method : Method) : Match where
  pattern := "foo"
  kind
  method
  direction := .redirect
  uid := 0

def shownFoo (kind : Kind) (method : Method) : Gui.Match :=
  ⟨"foo", kind.name, method.name, "redirect", "root", "0"⟩

theorem shownFoo_shows (kind : Kind) (method : Method) :
    (shownFoo kind method).Shows (fooRule kind method) := ⟨rfl, rfl, rfl⟩

theorem basename_agrees_iff_foo : ∃ text r,
    pathPattern escapingCrates (fooRule .basename .substring) = some text ∧
      Regex.parse text = some r ∧
      (r.Accepts "/usr/xfoo".toList ↔
        ((shownFoo .basename .substring).matchesPath noRegex "/usr/xfoo" []).1 = true) := by
  have habs : "/usr/xfoo".toList.head? = some '/' := rfl
  obtain ⟨text, r, hpattern, hparse, hiff⟩ := basename_agrees_iff ([] : List (Gui.Match × Option noRegex.Re))
    escapingCrates_escapes (shownFoo_shows .basename .substring) rfl rfl (by decide) habs
  refine ⟨text, r, hpattern, hparse, hiff.mpr ?_⟩
  have hline : '\n' ∉ "/usr/xfoo".toList := by decide
  refine (basenameAgrees_oneLine hline).mpr fun _ => ⟨"/usr/x".toList, [], ?_, ?_⟩
  · exact ⟨rfl, by rintro ⟨⟩, fun _ => rfl⟩
  · rw [InLast]
    decide

/-- The tail of a `prefix` pattern runs on into the directories below. -/
theorem basename_not_agrees :
    ¬∀ {c : Crates} {re : Gui.RegexCrate} {m : Match} {g : Gui.Match}
      (cache : List (Gui.Match × Option re.Re)) {path : String},
      c.EscapesLiterals → g.Shows m → m.kind = .basename → m.method.isText = true →
      m.pattern ≠ "" → path.toList.head? = some '/' →
      ∃ text r, pathPattern c m = some text ∧ Regex.parse text = some r ∧
        (r.Accepts path.toList ↔ (g.matchesPath re path cache).1 = true) := by
  intro h
  have habs : "/foo/bar".toList.head? = some '/' := rfl
  obtain ⟨text, r, hpattern, hparse, hiff⟩ := h ([] : List (Gui.Match × Option noRegex.Re))
    escapingCrates_escapes (shownFoo_shows .basename .prefixOf) rfl rfl (by decide) habs
  obtain ⟨text', hpattern', hparse'⟩ := pathPattern_parse (m := fooRule .basename .prefixOf)
    escapingCrates_escapes (by decide) rfl rfl
  cases Option.some.inj (hpattern.symm.trans hpattern')
  cases Option.some.inj (hparse.symm.trans hparse')
  have haccepts : (pathRegex .basename .prefixOf "foo".toList).Accepts "/foo/bar".toList := by
    refine (basename_accepts_iff rfl).mpr ⟨['/'], "/bar".toList, ⟨rfl, fun _ => ?_, ?_⟩, ?_, ?_⟩
    · exact Or.inr ⟨[], rfl⟩
    · rintro ⟨⟩
    · decide
    · intro d y hsplit
      cases hsplit
      decide
  have hmatches := hiff.mp haccepts
  exact absurd hmatches (by decide)

theorem path_agrees_iff_foo : ∃ text r,
    pathPattern escapingCrates (fooRule .path .suffix) = some text ∧
      Regex.parse text = some r ∧
      (r.Accepts "/foo/bar".toList ↔
        ((shownFoo .path .suffix).matchesPath noRegex "/foo/bar" []).1 = true) := by
  have habs : "/foo/bar".toList.head? = some '/' := rfl
  obtain ⟨text, r, hpattern, hparse, hiff⟩ := path_agrees_iff ([] : List (Gui.Match × Option noRegex.Re))
    escapingCrates_escapes (shownFoo_shows .path .suffix) rfl rfl (by decide) habs
  refine ⟨text, r, hpattern, hparse, hiff.mpr fun hsuffix => ?_⟩
  exact absurd hsuffix (by decide)

/-- What a `suffix` pattern may skip ends at a slash, and a path starts with one. -/
theorem path_not_agrees :
    ¬∀ {c : Crates} {re : Gui.RegexCrate} {m : Match} {g : Gui.Match}
      (cache : List (Gui.Match × Option re.Re)) {path : String},
      c.EscapesLiterals → g.Shows m → m.kind = .path → m.method.isText = true →
      m.pattern ≠ "" → path.toList.head? = some '/' →
      ∃ text r, pathPattern c m = some text ∧ Regex.parse text = some r ∧
        (r.Accepts path.toList ↔ (g.matchesPath re path cache).1 = true) := by
  intro h
  have habs : "/bin/foo".toList.head? = some '/' := rfl
  obtain ⟨text, r, hpattern, hparse, hiff⟩ := h ([] : List (Gui.Match × Option noRegex.Re))
    escapingCrates_escapes (shownFoo_shows .path .suffix) rfl rfl (by decide) habs
  obtain ⟨text', hpattern', hparse'⟩ := pathPattern_parse (m := fooRule .path .suffix)
    escapingCrates_escapes (by decide) rfl rfl
  cases Option.some.inj (hpattern.symm.trans hpattern')
  cases Option.some.inj (hparse.symm.trans hparse')
  have hmatches : ((shownFoo .path .suffix).matchesPath noRegex "/bin/foo" []).1 = true := by
    decide
  obtain ⟨t, hs, _, _⟩ := (path_accepts_iff rfl habs).mp (hiff.mpr hmatches)
  exact absurd ⟨t, hs.symm⟩ (by decide : ¬"foo".toList <+: "/bin/foo".toList)

end Rebpf
