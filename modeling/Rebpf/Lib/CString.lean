import Mathlib.Algebra.Group.Nat.Defs
import Mathlib.Tactic.Common

namespace Rebpf.Lib

/-- What C leaves undefined. -/
inductive Fault
  | null
  | outOfBounds
  | divideByZero
deriving DecidableEq, Repr

def ascii (cs : List Char) : List UInt8 := cs.map fun c => .ofNat c.toNat

namespace CString

/-- The first `c`, or NULL. A pointer is the bytes of its object from there on. -/
def strchr (c : UInt8) : List UInt8 → Except Fault (Option (List UInt8))
  | [] => .error .outOfBounds
  | b :: s => if b = c then .ok (some (b :: s)) else if b = 0 then .ok none else strchr c s

/-- The last `c`, where `found` is the last one so far. -/
def strrchrFrom (c : UInt8) (found : Option (List UInt8)) :
    List UInt8 → Except Fault (Option (List UInt8))
  | [] => .error .outOfBounds
  | b :: s =>
    let found := if b = c then some (b :: s) else found
    if b = 0 then .ok found else strrchrFrom c found s

def strrchr (c : UInt8) : List UInt8 → Except Fault (Option (List UInt8)) := strrchrFrom c none

def isSpace (b : UInt8) : Bool := b == 32 || (9 ≤ b && b ≤ 13)

def isDigit (b : UInt8) : Bool := 48 ≤ b && b ≤ 57

def readNumber : List UInt8 → Nat → Except Fault Nat
  | [], _ => .error .outOfBounds
  | b :: s, n => if isDigit b then readNumber s (10 * n + (b.toNat - 48)) else .ok n

/-- Base ten. What does not fit is the greatest number, whatever the sign. -/
def strtoull : List UInt8 → Except Fault UInt64
  | [] => .error .outOfBounds
  | b :: s =>
    if isSpace b then strtoull s
    else do
      let n ← readNumber (if b = 43 ∨ b = 45 then s else b :: s) 0
      return if 2 ^ 64 ≤ n then .ofNat (2 ^ 64 - 1)
        else if b = 45 then -.ofNat n
        else .ofNat n

/-- Bytes without the one that ends a string and without `c`. -/
def Without (c : UInt8) (s : List UInt8) : Prop := ∀ b ∈ s, b ≠ 0 ∧ b ≠ c

variable {c : UInt8} {s : List UInt8}

theorem strchr_append (without : Without c s) (rest : List UInt8) :
    strchr c (s ++ c :: rest) = .ok (some (c :: rest)) := by
  induction s with
  | nil => simp [strchr]
  | cons b s ih =>
    obtain ⟨hzero, hne⟩ := without b List.mem_cons_self
    rw [List.cons_append, strchr, if_neg hne, if_neg hzero]
    exact ih fun d hd => without d (List.mem_cons_of_mem _ hd)

theorem strrchrFrom_without (found : Option (List UInt8)) (without : Without c s) (hc : c ≠ 0)
    (rest : List UInt8) : strrchrFrom c found (s ++ 0 :: rest) = .ok found := by
  induction s with
  | nil => simp [strrchrFrom, hc.symm]
  | cons b s ih =>
    obtain ⟨hzero, hne⟩ := without b List.mem_cons_self
    rw [List.cons_append, strrchrFrom]
    simp only [if_neg hne, if_neg hzero]
    exact ih fun d hd => without d (List.mem_cons_of_mem _ hd)

/-- Whatever stands before it, the last one is found. -/
theorem strrchrFrom_last (found : Option (List UInt8)) {front : List UInt8}
    (hfront : ∀ b ∈ front, b ≠ 0) (without : Without c s) (hc : c ≠ 0) (rest : List UInt8) :
    strrchrFrom c found (front ++ (c :: s ++ 0 :: rest)) = .ok (some (c :: s ++ 0 :: rest)) := by
  induction front generalizing found with
  | nil =>
    rw [List.nil_append, List.cons_append, strrchrFrom]
    simp only [if_true, if_neg hc]
    exact strrchrFrom_without _ without hc rest
  | cons b front ih =>
    rw [List.cons_append, strrchrFrom]
    simp only [if_neg (hfront b List.mem_cons_self)]
    exact ih _ fun d hd => hfront d (List.mem_cons_of_mem _ hd)

theorem strrchr_last {front : List UInt8} (hfront : ∀ b ∈ front, b ≠ 0)
    (without : Without c s) (hc : c ≠ 0) (rest : List UInt8) :
    strrchr c (front ++ (c :: s ++ 0 :: rest)) = .ok (some (c :: s ++ 0 :: rest)) :=
  strrchrFrom_last none hfront without hc rest

theorem digit_byte {d : Char} (h : d.isDigit) :
    48 ≤ d.toNat ∧ d.toNat ≤ 57 ∧ (UInt8.ofNat d.toNat).toNat = d.toNat := by
  have hle : 48 ≤ d.toNat ∧ d.toNat ≤ 57 := by
    simpa [Char.isDigit, UInt32.le_iff_toNat_le] using h
  refine ⟨hle.1, hle.2, ?_⟩
  rw [UInt8.toNat_ofNat']
  omega

theorem isDigit_byte {d : Char} (h : d.isDigit) : isDigit (.ofNat d.toNat) = true := by
  obtain ⟨hge, hle, hbyte⟩ := digit_byte h
  simp [isDigit, UInt8.le_iff_toNat_le, hbyte, hge, hle]

theorem without_digits (hc : isDigit c = false) (n : Nat) :
    Without c (ascii (Nat.toDigits 10 n)) := by
  intro b hb
  obtain ⟨d, hd, rfl⟩ := List.mem_map.mp hb
  have digit := isDigit_byte (Nat.isDigit_of_mem_toDigits (by decide) (by decide) hd)
  refine ⟨fun h => ?_, fun h => ?_⟩
  · rw [h] at digit
    cases digit
  · rw [h, hc] at digit
    cases digit

theorem readNumber_digits {cs : List Char} (digits : ∀ d ∈ cs, d.isDigit) {b : UInt8}
    (stop : isDigit b = false) (rest : List UInt8) (n : Nat) :
    readNumber (ascii cs ++ b :: rest) n = .ok (Nat.ofDigitChars 10 cs n) := by
  induction cs generalizing n with
  | nil => simp [ascii, readNumber, stop]
  | cons d cs ih =>
    have hd := digits d List.mem_cons_self
    obtain ⟨_, _, hbyte⟩ := digit_byte hd
    have hstep : readNumber (ascii (d :: cs) ++ b :: rest) n =
        readNumber (ascii cs ++ b :: rest) (10 * n + (d.toNat - 48)) := by
      simp [ascii, readNumber, isDigit_byte hd, hbyte]
    rw [hstep, ih fun d hd => digits d (List.mem_cons_of_mem _ hd), Nat.ofDigitChars_cons]
    rfl

/-- A number that fits is read to where its digits end. -/
theorem strtoull_number {n : Nat} (fits : n < 2 ^ 64) {b : UInt8} (stop : isDigit b = false)
    (rest : List UInt8) :
    strtoull (32 :: (ascii (Nat.toDigits 10 n) ++ b :: rest)) = .ok (.ofNat n) := by
  have digits : ∀ d ∈ Nat.toDigits 10 n, d.isDigit := fun d hd =>
    Nat.isDigit_of_mem_toDigits (by decide) (by decide) hd
  have hread := readNumber_digits digits stop rest 0
  rw [Nat.ofDigitChars_ten_toDigits] at hread
  cases hcs : Nat.toDigits 10 n with
  | nil => exact absurd hcs Nat.toDigits_ne_nil
  | cons d cs =>
    rw [hcs] at digits hread
    obtain ⟨hge, hle, hbyte⟩ := digit_byte (digits d List.mem_cons_self)
    have hspace : isSpace (.ofNat d.toNat) = false := by
      simp [isSpace, UInt8.le_iff_toNat_le, ← UInt8.toNat_inj, hbyte]
      omega
    have hplus : UInt8.ofNat d.toNat ≠ 43 := fun h => by
      have := congrArg UInt8.toNat h
      simp [hbyte] at this
      omega
    have hminus : UInt8.ofNat d.toNat ≠ 45 := fun h => by
      have := congrArg UInt8.toNat h
      simp [hbyte] at this
      omega
    simp only [ascii, List.map_cons, List.cons_append] at hread ⊢
    rw [strtoull, if_pos (by decide), strtoull, hspace]
    simp only [Bool.false_eq_true, if_false, hplus, hminus, or_self, hread]
    exact congrArg Except.ok (if_neg (Nat.not_le.mpr fits))

end CString

end Rebpf.Lib
