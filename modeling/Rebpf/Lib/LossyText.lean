import Mathlib.Algebra.BigOperators.Group.List.Basic
import Mathlib.Tactic.Common

namespace Rebpf.Lib

def continues (b : UInt8) : Bool := 0x80 ≤ b && b ≤ 0xBF

/-- The bytes that may follow the first one of three or four. -/
def secondFits (a b : UInt8) : Bool :=
  if a = 0xE0 then 0xA0 ≤ b && b ≤ 0xBF
  else if a = 0xED then 0x80 ≤ b && b ≤ 0x9F
  else if a = 0xF0 then 0x90 ≤ b && b ≤ 0xBF
  else if a = 0xF4 then 0x80 ≤ b && b ≤ 0x8F
  else continues b

/-- How many bytes one replacement character stands for, where no character is. -/
def brokenLen : List UInt8 → Nat
  | a :: b :: rest =>
    if 0xE0 ≤ a ∧ a ≤ 0xF4 ∧ secondFits a b then
      if 0xF0 ≤ a ∧ (rest.head?.map continues).getD false then 3 else 2
    else 1
  | _ => 1

def lossyChars : Nat → List UInt8 → List Char
  | 0, _ => []
  | fuel + 1, bytes =>
    if bytes.isEmpty then []
    else
      match ByteArray.utf8DecodeChar? ⟨bytes.toArray⟩ 0 with
      | some c => c :: lossyChars fuel (bytes.drop c.utf8Size)
      | none => '\uFFFD' :: lossyChars fuel (bytes.drop (brokenLen bytes))

def fromUtf8Lossy (bytes : List UInt8) : String := .ofList (lossyChars bytes.length bytes)

theorem lossyChars_encoded (cs : List Char) {fuel : Nat} (enough : cs.length ≤ fuel) :
    lossyChars fuel (cs.flatMap String.utf8EncodeChar) = cs := by
  induction cs generalizing fuel with
  | nil => cases fuel <;> rfl
  | cons c cs ih =>
    obtain ⟨fuel, rfl⟩ : ∃ n, fuel = n + 1 := Nat.exists_eq_succ_of_ne_zero (by
      rw [List.length_cons] at enough
      omega)
    have hne : (String.utf8EncodeChar c ++ cs.flatMap String.utf8EncodeChar).isEmpty = false := by
      have hpos := c.utf8Size_pos
      rw [← String.length_utf8EncodeChar] at hpos
      cases hc : String.utf8EncodeChar c with
      | nil => rw [hc] at hpos; cases hpos
      | cons => rfl
    have hfront : ByteArray.utf8DecodeChar?
        ⟨(String.utf8EncodeChar c ++ cs.flatMap String.utf8EncodeChar).toArray⟩ 0 = some c := by
      rw [← List.data_toByteArray, List.toByteArray_append]
      exact ByteArray.utf8DecodeChar?_utf8EncodeChar_append
    rw [List.flatMap_cons, lossyChars, hne, hfront]
    simp only [Bool.false_eq_true, if_false]
    rw [List.drop_left' (String.length_utf8EncodeChar c), ih (Nat.le_of_succ_le_succ enough)]

def utf8Bytes (s : String) : List UInt8 := s.toList.flatMap String.utf8EncodeChar

theorem fromUtf8Lossy_utf8Bytes (s : String) : fromUtf8Lossy (utf8Bytes s) = s := by
  have enough : s.toList.length ≤ (s.toList.flatMap String.utf8EncodeChar).length := by
    rw [List.length_flatMap, ← List.length_map (fun c => (String.utf8EncodeChar c).length)]
    refine List.length_le_sum_of_one_le _ fun n hn => ?_
    obtain ⟨c, _, rfl⟩ := List.mem_map.mp hn
    rw [String.length_utf8EncodeChar]
    exact c.utf8Size_pos
  rw [fromUtf8Lossy, utf8Bytes, lossyChars_encoded _ enough, String.ofList_toList]

end Rebpf.Lib
