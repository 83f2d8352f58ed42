import Rebpf.GuiMatches

namespace Rebpf

open Lib

/-- The pattern's text between anchors, with the dot of a fully qualified name left open. -/
def dnsRegex (method : Method) (p : List Char) : Regex Char :=
  .sequence ([.textStart] ++ (methodItems method p ++ [.opt (.lit '.')]) ++ [.textEnd])

/-- What a method asks of a pattern and a text. -/
def Method.Means (method : Method) (p text : List Char) : Prop :=
  match method with
  | .full => text = p
  | .prefixOf => p <+: text
  | .suffix => p <:+ text
  | .substring => p <:+: text
  | .regex | .subnet => False

/-- The name, without or with its last dot, is, starts with, ends with or contains the pattern. -/
def NameMeans (method : Method) (p body : List Char) : Prop :=
  method.Means p body ∨ method.Means p (body ++ ['.'])

/-- No slash before the pattern and no newline behind it is in the way, where the
method leaves letters there open. -/
def NameClear (method : Method) (p body : List Char) : Prop :=
  match method with
  | .prefixOf => ∀ t, body ++ ['.'] = p ++ t → '\n' ∉ t
  | .suffix => p <:+ body ∨ p <:+ body ++ ['.'] →
    ∃ y, (body = y ++ p ∨ body ++ ['.'] = y ++ p) ∧ '/' ∉ y
  | .substring => p <:+: body ++ ['.'] →
    ∃ y t, body ++ ['.'] = y ++ p ++ t ∧ '/' ∉ y ∧ '\n' ∉ t
  | .full | .regex | .subnet => True

section

variable {c : Crates} {m : Match} {method : Method} {p w body : List Char}

/-- The text `build_dns_dfa` hands to the DFA builder, read as a regular expression. -/
theorem dnsPattern_parse (escapes : c.EscapesLiterals) (hpat : m.pattern ≠ "")
    (htext : m.method.isText = true) (hkind : m.kind = .dns) :
    ∃ text, dnsPattern c m = some text ∧
      Regex.parse text = some (dnsRegex m.method m.pattern.toList) := by
  obtain ⟨method, hmethod, hread⟩ := methodRegex_readsAs escapes hpat htext
  have hstart : Regex.ReadsAs "^".toList [.textStart] := fun _ _ => rfl
  have hend : Regex.ReadsAs "\\.?$".toList [.opt (.lit '.'), .textEnd] := fun _ _ => rfl
  refine ⟨"^" ++ method ++ "\\.?$", by simp [dnsPattern, hmethod, hkind], ?_⟩
  have hwhole := (hstart.append hread).append hend
  rw [← String.toList_append, ← String.toList_append] at hwhole
  rw [hwhole.parse, dnsRegex]
  simp

theorem dot_spans {u v w : List Char} :
    (Regex.sequence [.opt (.lit '.')]).Spans u w v ↔ w = [] ∨ w = ['.'] := by
  rw [Regex.spans_sequence_singleton, Regex.spans_opt, Regex.lit, Regex.spans_set]
  refine or_congr_right ?_
  constructor
  · rintro ⟨a, rfl, ha⟩
    rw [eq_of_beq ha]
  · rintro rfl
    exact ⟨'.', rfl, rfl⟩

theorem dnsRegex_accepts (htext : method.isText = true) :
    (dnsRegex method p).Accepts w ↔ ∃ y t, (w = y ++ p ++ t ∨ w = y ++ p ++ t ++ ['.']) ∧
      ('/' ∉ y ∧ (method.looksBack = false → y = [])) ∧
      '\n' ∉ t ∧ (method.looksOn = false → t = []) := by
  rw [dnsRegex, anchored_accepts, Regex.spans_sequence_append]
  simp only [methodItems_spans htext, dot_spans]
  constructor
  · rintro ⟨_, z, rfl, ⟨y, t, rfl, h⟩, hz⟩
    refine ⟨y, t, ?_, h⟩
    rcases hz with rfl | rfl
    · exact Or.inl (List.append_nil _)
    · exact Or.inr rfl
  · rintro ⟨y, t, rfl | rfl, h⟩
    · exact ⟨_, [], (List.append_nil _).symm, ⟨y, t, rfl, h⟩, Or.inl rfl⟩
    · exact ⟨_, ['.'], rfl, ⟨y, t, rfl, h⟩, Or.inr rfl⟩

/-- The last dot of a name may be the one left open. -/
theorem append_dot_eq_iff {u : List Char} :
    (body ++ ['.'] = u ∨ body ++ ['.'] = u ++ ['.']) ↔ body = u ∨ body ++ ['.'] = u := by
  rw [List.append_left_inj, or_comm]

theorem dnsRegex_full :
    (dnsRegex .full p).Accepts (body ++ ['.']) ↔ NameMeans .full p body := by
  rw [dnsRegex_accepts rfl]
  simp only [append_dot_eq_iff, NameMeans, Method.Means]
  constructor
  · rintro ⟨y, t, h, ⟨_, hy⟩, _, ht⟩
    rw [hy rfl, ht rfl, List.nil_append, List.append_nil] at h
    exact h
  · intro h
    exact ⟨[], [], by simpa using h, by simp, by simp⟩

theorem dnsRegex_prefixOf :
    (dnsRegex .prefixOf p).Accepts (body ++ ['.']) ↔ ∃ t, body ++ ['.'] = p ++ t ∧ '\n' ∉ t := by
  rw [dnsRegex_accepts rfl]
  constructor
  · rintro ⟨y, t, h, ⟨_, hy⟩, ht, _⟩
    rw [hy rfl, List.nil_append] at h
    rcases h with h | h
    · exact ⟨t, h, ht⟩
    · exact ⟨t ++ ['.'], by rw [h, List.append_assoc], by simpa using ht⟩
  · rintro ⟨t, h, ht⟩
    exact ⟨[], t, Or.inl h, by simp, ht, by rintro ⟨⟩⟩

theorem dnsRegex_suffix :
    (dnsRegex .suffix p).Accepts (body ++ ['.']) ↔
      ∃ y, (body = y ++ p ∨ body ++ ['.'] = y ++ p) ∧ '/' ∉ y := by
  rw [dnsRegex_accepts rfl]
  simp only [append_dot_eq_iff]
  constructor
  · rintro ⟨y, t, h, ⟨hy, _⟩, _, ht⟩
    rw [ht rfl, List.append_nil] at h
    exact ⟨y, h, hy⟩
  · rintro ⟨y, h, hy⟩
    exact ⟨y, [], by simpa using h, ⟨hy, by rintro ⟨⟩⟩, by simp⟩

theorem dnsRegex_substring :
    (dnsRegex .substring p).Accepts (body ++ ['.']) ↔
      ∃ y t, body ++ ['.'] = y ++ p ++ t ∧ '/' ∉ y ∧ '\n' ∉ t := by
  rw [dnsRegex_accepts rfl]
  constructor
  · rintro ⟨y, t, h | h, ⟨hy, _⟩, ht, _⟩
    · exact ⟨y, t, h, hy, ht⟩
    · exact ⟨y, t ++ ['.'], by rw [h, List.append_assoc], hy, by simpa using ht⟩
  · rintro ⟨y, t, h, hy, ht⟩
    exact ⟨y, t, Or.inl h, ⟨hy, by rintro ⟨⟩⟩, ht, by rintro ⟨⟩⟩

theorem nameMeans_prefixOf : NameMeans .prefixOf p body ↔ ∃ t, body ++ ['.'] = p ++ t := by
  constructor
  · rintro (⟨t, rfl⟩ | ⟨t, h⟩)
    · exact ⟨t ++ ['.'], List.append_assoc _ _ _⟩
    · exact ⟨t, h.symm⟩
  · rintro ⟨t, h⟩
    exact Or.inr ⟨t, h.symm⟩

theorem nameMeans_suffix :
    NameMeans .suffix p body ↔ ∃ y, body = y ++ p ∨ body ++ ['.'] = y ++ p := by
  constructor
  · rintro (⟨y, h⟩ | ⟨y, h⟩)
    · exact ⟨y, Or.inl h.symm⟩
    · exact ⟨y, Or.inr h.symm⟩
  · rintro ⟨y, h | h⟩
    · exact Or.inl ⟨y, h.symm⟩
    · exact Or.inr ⟨y, h.symm⟩

theorem nameMeans_substring : NameMeans .substring p body ↔ p <:+: body ++ ['.'] := by
  refine ⟨fun h => ?_, Or.inr⟩
  rcases h with h | h
  · exact h.trans (List.prefix_append body ['.']).isInfix
  · exact h

/-- The regular expression and the method agree on a name exactly if it is clear. -/
theorem dnsRegex_means_iff (htext : method.isText = true) :
    ((dnsRegex method p).Accepts (body ++ ['.']) ↔ NameMeans method p body) ↔
      NameClear method p body := by
  cases method with
  | full => exact iff_of_true dnsRegex_full trivial
  | prefixOf =>
    rw [dnsRegex_prefixOf, nameMeans_prefixOf]
    constructor
    · intro h t ht
      obtain ⟨t', ht', hline⟩ := h.mpr ⟨t, ht⟩
      rw [List.append_cancel_left (ht.symm.trans ht')]
      exact hline
    · intro h
      exact exists_congr fun t => and_iff_left_of_imp (h t)
  | suffix =>
    rw [dnsRegex_suffix, nameMeans_suffix]
    constructor
    · intro h hends
      exact h.mpr (nameMeans_suffix.mp hends)
    · intro h
      exact ⟨fun ⟨y, hy, _⟩ => ⟨y, hy⟩, fun hends => h (nameMeans_suffix.mpr hends)⟩
  | substring =>
    rw [dnsRegex_substring, nameMeans_substring]
    constructor
    · exact Iff.mpr
    · intro h
      exact ⟨fun ⟨y, t, hin, _⟩ => ⟨y, t, hin.symm⟩, h⟩
  | regex => cases htext
  | subnet => cases htext

/-- The pattern of a `dns` entry means its method on the names that are clear, and
on no others. -/
theorem dnsPattern_means_iff (escapes : c.EscapesLiterals) (hpat : m.pattern ≠ "")
    (htext : m.method.isText = true) (hkind : m.kind = .dns) (body : List Char) :
    ∃ text r, dnsPattern c m = some text ∧ Regex.parse text = some r ∧
      ((r.Accepts (body ++ ['.']) ↔ NameMeans m.method m.pattern.toList body) ↔
        NameClear m.method m.pattern.toList body) := by
  obtain ⟨text, hpattern, hparse⟩ := dnsPattern_parse escapes hpat htext hkind
  exact ⟨text, _, hpattern, hparse, dnsRegex_means_iff htext⟩

end

def exampleRule : Match where
  pattern := "example"
  kind := .dns
  method := .suffix
  direction := .redirect
  uid := 0

/-- A label may have a slash, as those of the reverse zones of small networks do. -/
def slashName : List Char := "a\\/b.example".toList

theorem dnsPattern_means_example : ∃ text r,
    dnsPattern escapingCrates exampleRule = some text ∧ Regex.parse text = some r ∧
      r.Accepts "www.example.".toList := by
  obtain ⟨text, r, hpattern, hparse, hiff⟩ := dnsPattern_means_iff escapingCrates_escapes
    (m := exampleRule) (by decide) rfl rfl "www.example".toList
  refine ⟨text, r, hpattern, hparse, (hiff.mpr fun _ => ?_).mpr ?_⟩
  · exact ⟨"www.".toList, Or.inl rfl, by decide⟩
  · exact Or.inl ⟨"www.".toList, rfl⟩

theorem dnsPattern_not_means :
    ¬∀ {c : Crates} {m : Match}, c.EscapesLiterals → m.pattern ≠ "" → m.method.isText = true →
      m.kind = .dns → ∀ body text r, dnsPattern c m = some text → Regex.parse text = some r →
      (r.Accepts (body ++ ['.']) ↔ NameMeans m.method m.pattern.toList body) := by
  intro h
  obtain ⟨text, hpattern, hparse⟩ := dnsPattern_parse escapingCrates_escapes
    (m := exampleRule) (by decide) rfl rfl
  have means := h escapingCrates_escapes (by decide) rfl rfl slashName text _ hpattern hparse
  obtain ⟨y, hy, hslash⟩ := (dnsRegex_means_iff rfl).mp means (Or.inl ⟨"a\\/b.".toList, rfl⟩)
  have hpat : exampleRule.pattern.toList = "example".toList := rfl
  rw [hpat] at hy
  rcases hy with hy | hy
  · have hleft : "a\\/b.".toList = y := List.append_inj_left' hy rfl
    rw [← hleft] at hslash
    exact hslash (by decide)
  · have hsplit : "a\\/b.e".toList ++ "xample.".toList = y ++ "example".toList := hy
    have hlength : "xample.".toList.length = "example".toList.length := by decide
    exact absurd (List.append_inj_right' hsplit hlength) (by decide)

end Rebpf
