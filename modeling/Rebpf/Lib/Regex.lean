import Mathlib.Data.List.Basic
import Mathlib.Tactic.Common

namespace Rebpf.Lib

universe u

inductive Regex (α : Type u)
  | set (test : α → Bool)
  | empty
  | cat (first second : Regex α)
  | star (body : Regex α)
  | opt (body : Regex α)
  | textStart
  | textEnd

namespace Regex

variable {α : Type u}

/-- The expression can match `w` where it stands in the text `u ++ w ++ v`. -/
inductive Spans : Regex α → List α → List α → List α → Prop
  | set {test : α → Bool} {u v : List α} {a : α} (ha : test a = true) :
      Spans (.set test) u [a] v
  | empty {u v : List α} : Spans .empty u [] v
  | cat {r s : Regex α} {u v x y : List α} (first : Spans r u x (y ++ v))
      (second : Spans s (u ++ x) y v) : Spans (.cat r s) u (x ++ y) v
  | starNone {r : Regex α} {u v : List α} : Spans (.star r) u [] v
  | starMore {r : Regex α} {u v x y : List α} (first : Spans r u x (y ++ v))
      (rest : Spans (.star r) (u ++ x) y v) : Spans (.star r) u (x ++ y) v
  | optNone {r : Regex α} {u v : List α} : Spans (.opt r) u [] v
  | optSome {r : Regex α} {u v x : List α} (body : Spans r u x v) : Spans (.opt r) u x v
  | textStart {v : List α} : Spans .textStart [] [] v
  | textEnd {u : List α} : Spans .textEnd u [] []

def Accepts (r : Regex α) (w : List α) : Prop := r.Spans [] w []

variable {r s : Regex α} {test : α → Bool} {u v w : List α}

theorem spans_set : (set test).Spans u w v ↔ ∃ a, w = [a] ∧ test a = true := by
  constructor
  · rintro (h | _)
    exact ⟨_, rfl, h⟩
  · rintro ⟨a, rfl, ha⟩
    exact .set ha

theorem spans_empty : (empty : Regex α).Spans u w v ↔ w = [] := by
  constructor
  · rintro ⟨⟩
    rfl
  · rintro rfl
    exact .empty

theorem spans_cat : (cat r s).Spans u w v ↔
    ∃ x y, w = x ++ y ∧ r.Spans u x (y ++ v) ∧ s.Spans (u ++ x) y v := by
  constructor
  · intro h
    cases h with
    | cat first second => exact ⟨_, _, rfl, first, second⟩
  · rintro ⟨x, y, rfl, first, second⟩
    exact .cat first second

theorem spans_opt : (opt r).Spans u w v ↔ w = [] ∨ r.Spans u w v := by
  constructor
  · intro h
    cases h with
    | optNone => exact Or.inl rfl
    | optSome body => exact Or.inr body
  · rintro (rfl | body)
    · exact .optNone
    · exact .optSome body

theorem spans_textStart : (textStart : Regex α).Spans u w v ↔ u = [] ∧ w = [] := by
  constructor
  · rintro ⟨⟩
    exact ⟨rfl, rfl⟩
  · rintro ⟨rfl, rfl⟩
    exact .textStart

theorem spans_textEnd : (textEnd : Regex α).Spans u w v ↔ w = [] ∧ v = [] := by
  constructor
  · rintro ⟨⟩
    exact ⟨rfl, rfl⟩
  · rintro ⟨rfl, rfl⟩
    exact .textEnd

/-- Repeating a set of letters matches the words over it. -/
theorem spans_star_set : (star (set test)).Spans u w v ↔ ∀ a ∈ w, test a = true := by
  constructor
  · intro h
    generalize hr : star (set test) = r at h
    induction h with
    | starNone =>
      intro a ha
      cases ha
    | starMore first _ _ ih =>
      cases hr
      obtain ⟨a, rfl, ha⟩ := spans_set.mp first
      intro b hb
      rcases List.mem_cons.mp hb with rfl | hb
      · exact ha
      · exact ih rfl b hb
    | _ => cases hr
  · intro h
    induction w generalizing u with
    | nil => exact .starNone
    | cons a w ih =>
      have first : (set test).Spans u [a] (w ++ v) := .set (h a List.mem_cons_self)
      exact .starMore first (ih fun b hb => h b (List.mem_cons_of_mem a hb))

def sequence (rs : List (Regex α)) : Regex α := rs.foldr cat empty

theorem spans_sequence_cons {rs : List (Regex α)} : (sequence (r :: rs)).Spans u w v ↔
    ∃ x y, w = x ++ y ∧ r.Spans u x (y ++ v) ∧ (sequence rs).Spans (u ++ x) y v :=
  spans_cat

theorem spans_sequence_singleton : (sequence [r]).Spans u w v ↔ r.Spans u w v := by
  rw [spans_sequence_cons]
  constructor
  · rintro ⟨x, y, rfl, hr, hy⟩
    cases spans_empty.mp hy
    simpa using hr
  · intro hr
    exact ⟨w, [], by simp, by simpa using hr, .empty⟩

theorem spans_sequence_append {rs ss : List (Regex α)} : (sequence (rs ++ ss)).Spans u w v ↔
    ∃ x y, w = x ++ y ∧ (sequence rs).Spans u x (y ++ v) ∧ (sequence ss).Spans (u ++ x) y v := by
  induction rs generalizing u w with
  | nil =>
    constructor
    · intro h
      exact ⟨[], w, rfl, .empty, by simpa using h⟩
    · rintro ⟨x, y, rfl, hx, hy⟩
      cases spans_empty.mp hx
      simpa using hy
  | cons r rs ih =>
    rw [List.cons_append, spans_sequence_cons]
    constructor
    · rintro ⟨x, y, rfl, hr, h⟩
      obtain ⟨y, z, rfl, hrs, hss⟩ := ih.mp h
      refine ⟨x ++ y, z, (List.append_assoc _ _ _).symm, ?_, by rwa [← List.append_assoc]⟩
      exact spans_sequence_cons.mpr ⟨x, y, rfl, by rwa [← List.append_assoc], hrs⟩
    · rintro ⟨_, z, rfl, h, hss⟩
      obtain ⟨x, y, rfl, hr, hrs⟩ := spans_sequence_cons.mp h
      refine ⟨x, y ++ z, List.append_assoc _ _ _, by rwa [List.append_assoc], ?_⟩
      exact ih.mpr ⟨y, z, rfl, hrs, by rwa [List.append_assoc]⟩

def lit [DecidableEq α] (a : α) : Regex α := set (· == a)

def except [DecidableEq α] (a : α) : Regex α := set (· != a)

/-- A word spelled out matches nothing but itself. -/
theorem spans_lits [DecidableEq α] {p : List α} :
    (sequence (p.map lit)).Spans u w v ↔ w = p := by
  induction p generalizing u w with
  | nil => exact spans_empty
  | cons a p ih =>
    rw [List.map_cons, spans_sequence_cons]
    constructor
    · rintro ⟨x, y, rfl, ha, hy⟩
      obtain ⟨b, rfl, hb⟩ := spans_set.mp ha
      obtain rfl := ih.mp hy
      rw [eq_of_beq hb, List.singleton_append]
    · rintro rfl
      exact ⟨[a], p, rfl, .set (beq_self_eq_true a), ih.mpr rfl⟩

theorem spans_star_except [DecidableEq α] {a : α} :
    (star (except a)).Spans u w v ↔ a ∉ w := by
  rw [except, spans_star_set]
  constructor
  · intro h ha
    simpa using h a ha
  · intro h b hb
    simp only [bne_iff_ne, ne_eq]
    rintro rfl
    exact h hb

/-- What is being read of a pattern's text. -/
inductive Mode
  | plain
  | escaped
  | opened
  | grouped
  | bracket
  | negated
  | closing (c : Char)
deriving DecidableEq, Repr

/-- A pattern read up to some letter: the expressions of the innermost group,
the last one first, and those before the groups around it. -/
structure Reader where
  mode : Mode
  items : List (Regex Char)
  outer : List (List (Regex Char))

def isMeta (c : Char) : Bool := "\\.+*?()|[]\x7b\x7d^$#&-~".toList.contains c

namespace Reader

def start : Reader := ⟨.plain, [], []⟩

def push (self : Reader) (r : Regex Char) : Reader := ⟨.plain, r :: self.items, self.outer⟩

def repeated (self : Reader) (f : Regex Char → Regex Char) : Option Reader :=
  match self.items with
  | [] => none
  | r :: items => some { self with items := f r :: items }

def close (self : Reader) : Option Reader :=
  match self.outer with
  | [] => none
  | items :: outer => some ⟨.plain, sequence self.items.reverse :: items, outer⟩

def readPlain (self : Reader) (c : Char) : Option Reader :=
  if c = '\\' then some { self with mode := .escaped }
  else if c = '.' then some (self.push (except '\n'))
  else if c = '^' then some (self.push textStart)
  else if c = '$' then some (self.push textEnd)
  else if c = '*' then self.repeated star
  else if c = '?' then self.repeated opt
  else if c = '(' then some { self with mode := .opened }
  else if c = ')' then self.close
  else if c = '[' then some { self with mode := .bracket }
  else if c = '+' ∨ c = '|' ∨ c = ']' ∨ c = '\x7b' ∨ c = '\x7d' then none
  else some (self.push (lit c))

/-- One letter of a pattern; `none` for a pattern outside this syntax, which has
letters, `.`, `[^c]`, `(?:…)`, `*`, `?` and the anchors. -/
def read (self : Reader) (c : Char) : Option Reader :=
  match self.mode with
  | .plain => self.readPlain c
  | .escaped => if isMeta c then some (self.push (lit c)) else none
  | .opened => if c = '?' then some { self with mode := .grouped } else none
  | .grouped => if c = ':' then some ⟨.plain, [], self.items :: self.outer⟩ else none
  | .bracket => if c = '^' then some { self with mode := .negated } else none
  | .negated => if isMeta c then none else some { self with mode := .closing c }
  | .closing d => if c = ']' then some (self.push (except d)) else none

end Reader

def parse (text : String) : Option (Regex Char) := do
  let reader ← text.toList.foldlM Reader.read Reader.start
  if reader.mode = .plain ∧ reader.outer.isEmpty then some (sequence reader.items.reverse)
  else none

/-- The text stands for the expressions, one after the other, wherever it comes. -/
def ReadsAs (text : List Char) (rs : List (Regex Char)) : Prop :=
  ∀ items outer, text.foldlM Reader.read ⟨.plain, items, outer⟩ =
    some ⟨.plain, rs.reverse ++ items, outer⟩

theorem ReadsAs.append {text text' : List Char} {rs rs' : List (Regex Char)}
    (h : ReadsAs text rs) (h' : ReadsAs text' rs') : ReadsAs (text ++ text') (rs ++ rs') := by
  intro items outer
  rw [List.foldlM_append, h, Option.bind_eq_bind, Option.bind_some, h', List.reverse_append,
    List.append_assoc]

theorem ReadsAs.parse {text : String} {rs : List (Regex Char)} (h : ReadsAs text.toList rs) :
    parse text = some (sequence rs) := by
  have hread : text.toList.foldlM Reader.read Reader.start = some ⟨.plain, rs.reverse, []⟩ := by
    rw [Reader.start, h, List.append_nil]
  rw [Regex.parse, hread]
  simp

/-- Puts a backslash before every letter that is not read as itself. -/
def escape (p : String) : String :=
  .ofList (p.toList.flatMap fun c => if isMeta c then ['\\', c] else [c])

theorem escape_readsAs (p : String) : ReadsAs (escape p).toList (p.toList.map lit) := by
  rw [escape, String.toList_ofList]
  generalize p.toList = cs
  induction cs with
  | nil => exact fun _ _ => rfl
  | cons c cs ih =>
    have letter : ReadsAs (if isMeta c then ['\\', c] else [c]) [lit c] := by
      intro items outer
      by_cases hmeta : isMeta c = true
      · have hread : Reader.read ⟨.escaped, items, outer⟩ c =
            some ⟨.plain, lit c :: items, outer⟩ := if_pos hmeta
        have hslash : Reader.read ⟨.plain, items, outer⟩ '\\' =
            some ⟨.escaped, items, outer⟩ := rfl
        rw [if_pos hmeta, List.foldlM_cons, hslash, Option.bind_eq_bind, Option.bind_some,
          List.foldlM_cons, hread]
        rfl
      · have hread : Reader.read ⟨.plain, items, outer⟩ c =
            some ⟨.plain, lit c :: items, outer⟩ := by
          simp only [isMeta] at hmeta
          simp at hmeta
          simp [Reader.read, Reader.readPlain, Reader.push, hmeta]
        rw [if_neg hmeta]
        simpa using hread
    exact letter.append ih

end Regex

end Rebpf.Lib
