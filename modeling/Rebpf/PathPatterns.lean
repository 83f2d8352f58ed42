import Rebpf.Fields
import Rebpf.Lib.Regex

namespace Rebpf

open Lib

/-- What an escaped pattern is read as: its own letters. -/
def Crates.EscapesLiterals (c : Crates) : Prop :=
  ∀ p : String, Regex.ReadsAs (c.escape p).toList (p.toList.map Regex.lit)

def anyOf : Regex Char := .star (.except '\n')

def inComponent : Regex Char := .star (.except '/')

def methodItems (method : Method) (p : List Char) : List (Regex Char) :=
  match method with
  | .full => p.map Regex.lit
  | .substring => inComponent :: p.map Regex.lit ++ [anyOf]
  | .prefixOf => p.map Regex.lit ++ [anyOf]
  | .suffix => inComponent :: p.map Regex.lit
  | .regex | .subnet => []

/-- The methods whose text is the pattern itself. -/
def Method.isText : Method → Bool
  | .full | .substring | .prefixOf | .suffix => true
  | .regex | .subnet => false

/-- Whether the method's text may start behind the start of a component. -/
def Method.looksBack : Method → Bool
  | .substring | .suffix => true
  | .full | .prefixOf | .regex | .subnet => false

/-- Whether the method's text may end before the end of the path. -/
def Method.looksOn : Method → Bool
  | .substring | .prefixOf => true
  | .full | .suffix | .regex | .subnet => false

def parents : Regex Char := .opt (.sequence [anyOf, .lit '/'])

def pathRegex (kind : Kind) (method : Method) (p : List Char) : Regex Char :=
  .sequence ([.textStart] ++ (if kind = .basename then [parents] else []) ++
    methodItems method p ++ [.textEnd])

section

variable {c : Crates} {m : Match}

theorem methodRegex_readsAs (escapes : c.EscapesLiterals) (hpat : m.pattern ≠ "")
    (htext : m.method.isText = true) :
    ∃ text, methodRegex c m = some text ∧
      Regex.ReadsAs text.toList (methodItems m.method m.pattern.toList) := by
  have hempty : m.pattern.isEmpty = false := by
    rw [Bool.eq_false_iff]
    exact fun h => hpat (String.isEmpty_iff.mp h)
  have hcomponent : Regex.ReadsAs "[^/]*".toList [inComponent] := fun _ _ => rfl
  have hany : Regex.ReadsAs ".*".toList [anyOf] := fun _ _ => rfl
  have hword := escapes m.pattern
  unfold methodRegex
  rw [hempty]
  cases hmethod : m.method with
  | full => exact ⟨_, rfl, hword⟩
  | substring =>
    refine ⟨_, rfl, ?_⟩
    rw [String.toList_append, String.toList_append]
    exact (hcomponent.append hword).append hany
  | prefixOf =>
    refine ⟨_, rfl, ?_⟩
    rw [String.toList_append]
    exact hword.append hany
  | suffix =>
    refine ⟨_, rfl, ?_⟩
    rw [String.toList_append]
    exact hcomponent.append hword
  | regex =>
    rw [hmethod] at htext
    cases htext
  | subnet =>
    rw [hmethod] at htext
    cases htext

/-- The text `build_path_dfa` hands to the DFA builder, read as a regular expression. -/
theorem pathPattern_parse (escapes : c.EscapesLiterals) (hpat : m.pattern ≠ "")
    (htext : m.method.isText = true) (hkind : m.isPerProcess = true) :
    ∃ text, pathPattern c m = some text ∧
      Regex.parse text = some (pathRegex m.kind m.method m.pattern.toList) := by
  obtain ⟨method, hmethod, hread⟩ := methodRegex_readsAs escapes hpat htext
  have hstart : Regex.ReadsAs "^".toList [.textStart] := fun _ _ => rfl
  have hparents : Regex.ReadsAs "^(?:.*/)?".toList [.textStart, parents] := fun _ _ => rfl
  have hend : Regex.ReadsAs "$".toList [.textEnd] := fun _ _ => rfl
  cases hk : m.kind with
  | basename =>
    refine ⟨"^(?:.*/)?" ++ method ++ "$", by simp [pathPattern, hmethod, hk], ?_⟩
    apply Regex.ReadsAs.parse
    rw [String.toList_append, String.toList_append]
    exact (hparents.append hread).append hend
  | path =>
    refine ⟨"^" ++ method ++ "$", by simp [pathPattern, hmethod, hk], ?_⟩
    apply Regex.ReadsAs.parse
    rw [String.toList_append, String.toList_append]
    exact (hstart.append hread).append hend
  | ipv4 =>
    simp [Match.isPerProcess, hk] at hkind
  | dns =>
    simp [Match.isPerProcess, hk] at hkind

end

section

variable {method : Method} {p u v w : List Char}

theorem methodItems_spans (htext : method.isText = true) :
    (Regex.sequence (methodItems method p)).Spans u w v ↔ ∃ y t, w = y ++ p ++ t ∧
      ('/' ∉ y ∧ (method.looksBack = false → y = [])) ∧
      '\n' ∉ t ∧ (method.looksOn = false → t = []) := by
  have hany : ∀ u w v : List Char, (Regex.sequence [anyOf]).Spans u w v ↔ '\n' ∉ w :=
    fun u w v => Regex.spans_sequence_singleton.trans Regex.spans_star_except
  cases method with
  | full =>
    rw [methodItems, Regex.spans_lits]
    constructor
    · rintro rfl
      exact ⟨[], [], by simp, by simp, by simp⟩
    · rintro ⟨y, t, rfl, ⟨_, hy⟩, _, ht⟩
      rw [hy rfl, ht rfl, List.nil_append, List.append_nil]
  | prefixOf =>
    rw [methodItems, Regex.spans_sequence_append]
    simp only [hany, Regex.spans_lits]
    constructor
    · rintro ⟨_, t, rfl, rfl, ht⟩
      exact ⟨[], t, rfl, by simp, ht, by rintro ⟨⟩⟩
    · rintro ⟨y, t, rfl, ⟨_, hy⟩, ht, _⟩
      exact ⟨p, t, by rw [hy rfl, List.nil_append], rfl, ht⟩
  | suffix =>
    rw [methodItems, Regex.spans_sequence_cons]
    simp only [inComponent, Regex.spans_star_except, Regex.spans_lits]
    constructor
    · rintro ⟨y, _, rfl, hy, rfl⟩
      exact ⟨y, [], by simp, ⟨hy, by rintro ⟨⟩⟩, by simp⟩
    · rintro ⟨y, t, rfl, ⟨hy, _⟩, _, ht⟩
      exact ⟨y, p, by rw [ht rfl, List.append_nil], hy, rfl⟩
  | substring =>
    rw [methodItems, List.cons_append, Regex.spans_sequence_cons]
    simp only [inComponent, Regex.spans_star_except, Regex.spans_sequence_append, hany,
      Regex.spans_lits]
    constructor
    · rintro ⟨y, _, rfl, hy, _, t, rfl, rfl, ht⟩
      exact ⟨y, t, by simp, ⟨hy, by rintro ⟨⟩⟩, ht, by rintro ⟨⟩⟩
    · rintro ⟨y, t, rfl, ⟨hy, _⟩, ht, _⟩
      exact ⟨y, p ++ t, by simp, hy, p, t, rfl, rfl, ht⟩
  | regex => cases htext
  | subnet => cases htext

theorem parents_spans : parents.Spans u w v ↔ w = [] ∨ ∃ d, w = d ++ ['/'] ∧ '\n' ∉ d := by
  rw [parents, Regex.spans_opt]
  refine or_congr_right ?_
  rw [Regex.spans_sequence_cons]
  constructor
  · rintro ⟨d, _, rfl, hd, hslash⟩
    obtain ⟨x, y, rfl, hx, hy⟩ := Regex.spans_sequence_cons.mp hslash
    obtain ⟨a, rfl, ha⟩ := Regex.spans_set.mp hx
    cases Regex.spans_empty.mp hy
    exact ⟨d, by rw [eq_of_beq ha, List.append_nil], Regex.spans_star_except.mp hd⟩
  · rintro ⟨d, rfl, hd⟩
    refine ⟨d, ['/'], rfl, Regex.spans_star_except.mpr hd, ?_⟩
    exact Regex.spans_sequence_cons.mpr ⟨['/'], [], rfl, .set rfl, .empty⟩

/-- A pattern between anchors has to match the whole text. -/
theorem anchored_accepts {rs : List (Regex Char)} :
    (Regex.sequence ([.textStart] ++ rs ++ [.textEnd])).Accepts w ↔
      (Regex.sequence rs).Spans [] w [] := by
  rw [Regex.Accepts, Regex.spans_sequence_append, List.singleton_append]
  constructor
  · rintro ⟨x, y, rfl, hx, hy⟩
    obtain ⟨_, _, rfl, hend, hnil⟩ := Regex.spans_sequence_cons.mp hy
    obtain ⟨rfl, _⟩ := Regex.spans_textEnd.mp hend
    cases Regex.spans_empty.mp hnil
    obtain ⟨_, _, rfl, hstart, hrest⟩ := Regex.spans_sequence_cons.mp hx
    obtain ⟨_, rfl⟩ := Regex.spans_textStart.mp hstart
    simpa using hrest
  · intro h
    refine ⟨w, [], by simp, ?_, ?_⟩
    · exact Regex.spans_sequence_cons.mpr ⟨[], w, rfl, .textStart, by simpa using h⟩
    · exact Regex.spans_sequence_cons.mpr ⟨[], [], rfl, .textEnd, .empty⟩

/-- The pattern of a `path` entry sees the path as one component. -/
theorem pathRegex_path (htext : method.isText = true) :
    (pathRegex .path method p).Accepts w ↔ ∃ y t, w = y ++ p ++ t ∧
      ('/' ∉ y ∧ (method.looksBack = false → y = [])) ∧
      '\n' ∉ t ∧ (method.looksOn = false → t = []) := by
  have hregex : pathRegex .path method p =
      .sequence ([.textStart] ++ methodItems method p ++ [.textEnd]) := rfl
  rw [hregex, anchored_accepts, methodItems_spans htext]

theorem pathRegex_basename (htext : method.isText = true) :
    (pathRegex .basename method p).Accepts w ↔ ∃ d y t, w = d ++ y ++ p ++ t ∧
      (d = [] ∨ ∃ x, d = x ++ ['/'] ∧ '\n' ∉ x) ∧
      ('/' ∉ y ∧ (method.looksBack = false → y = [])) ∧
      '\n' ∉ t ∧ (method.looksOn = false → t = []) := by
  have hregex : pathRegex .basename method p =
      .sequence ([.textStart] ++ (parents :: methodItems method p) ++ [.textEnd]) := by
    simp [pathRegex]
  rw [hregex, anchored_accepts, Regex.spans_sequence_cons]
  simp only [parents_spans, methodItems_spans htext]
  constructor
  · rintro ⟨d, _, rfl, hd, y, t, rfl, h⟩
    exact ⟨d, y, t, by simp only [List.append_assoc], hd, h⟩
  · rintro ⟨d, y, t, rfl, hd, h⟩
    exact ⟨d, y ++ p ++ t, by simp only [List.append_assoc], hd, y, t, rfl, h⟩

end

end Rebpf
