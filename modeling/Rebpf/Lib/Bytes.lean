import Mathlib.Algebra.Group.Nat.Defs
import Mathlib.Tactic.Common

namespace Rebpf.Lib

inductive Endian
  | little
  | big
deriving DecidableEq, Repr

/-- The four bytes of a 32-bit word; higher bits of the number are cut off. -/
def wordBytes : Endian → Nat → List UInt8
  | .little, n => [.ofNat n, .ofNat (n / 256), .ofNat (n / 65536), .ofNat (n / 16777216)]
  | .big, n => [.ofNat (n / 16777216), .ofNat (n / 65536), .ofNat (n / 256), .ofNat n]

def wordOf : Endian → UInt8 → UInt8 → UInt8 → UInt8 → Nat
  | .little, a, b, c, d => a.toNat + 256 * b.toNat + 65536 * c.toNat + 16777216 * d.toNat
  | .big, a, b, c, d => d.toNat + 256 * c.toNat + 65536 * b.toNat + 16777216 * a.toNat

/-- A byte-addressed memory; an address it does not map reads as `none`. -/
abbrev Mem := Nat → Option UInt8

def Mem.word (e : Endian) (mem : Mem) (off : Nat) : Option Nat := do
  let a ← mem off
  let b ← mem (off + 1)
  let c ← mem (off + 2)
  let d ← mem (off + 3)
  return wordOf e a b c d

def memOf (bytes : List UInt8) : Mem := fun off => bytes[off]?

@[simp] theorem wordBytes_length (e : Endian) (n : Nat) : (wordBytes e n).length = 4 := by
  cases e <;> rfl

theorem wordBytes_eq (e : Endian) (n : Nat) :
    ∃ a b c d, wordBytes e n = [a, b, c, d] ∧ wordOf e a b c d = n % 2 ^ 32 := by
  cases e with
  | little =>
    refine ⟨_, _, _, _, rfl, ?_⟩
    simp only [wordOf, UInt8.toNat_ofNat']
    omega
  | big =>
    refine ⟨_, _, _, _, rfl, ?_⟩
    simp only [wordOf, UInt8.toNat_ofNat']
    omega

theorem wordOf_lt (e : Endian) (a b c d : UInt8) : wordOf e a b c d < 2 ^ 32 := by
  have ha := a.toNat_lt
  have hb := b.toNat_lt
  have hc := c.toNat_lt
  have hd := d.toNat_lt
  cases e with
  | little => simp only [wordOf]; omega
  | big => simp only [wordOf]; omega

theorem wordBytes_wordOf (e : Endian) (a b c d : UInt8) :
    wordBytes e (wordOf e a b c d) = [a, b, c, d] := by
  have ha := a.toNat_lt
  have hb := b.toNat_lt
  have hc := c.toNat_lt
  have hd := d.toNat_lt
  have hbyte : ∀ (n : Nat) (x : UInt8), n % 256 = x.toNat → UInt8.ofNat n = x := fun n x h =>
    UInt8.toNat_inj.mp (by rw [UInt8.toNat_ofNat', h])
  cases e with
  | little =>
    simp only [wordBytes, wordOf]
    rw [hbyte _ a (by omega), hbyte _ b (by omega), hbyte _ c (by omega), hbyte _ d (by omega)]
  | big =>
    simp only [wordBytes, wordOf]
    rw [hbyte _ a (by omega), hbyte _ b (by omega), hbyte _ c (by omega), hbyte _ d (by omega)]

theorem words_length (e : Endian) (ws : List Nat) :
    (ws.flatMap (wordBytes e)).length = 4 * ws.length := by
  induction ws with
  | nil => rfl
  | cons w ws ih => simp only [List.flatMap_cons, List.length_append, wordBytes_length, ih,
      List.length_cons]; omega

theorem memOf_append_right (xs ys : List UInt8) (off : Nat) :
    memOf (xs ++ ys) (xs.length + off) = ys[off]? := by
  rw [memOf, List.getElem?_append_right (by omega), Nat.add_sub_cancel_left]

theorem memOf_word_here (e : Endian) (pre post : List UInt8) (n : Nat) :
    (memOf (pre ++ (wordBytes e n ++ post))).word e pre.length = some (n % 2 ^ 32) := by
  have h0 := memOf_append_right pre (wordBytes e n ++ post) 0
  have h1 := memOf_append_right pre (wordBytes e n ++ post) 1
  have h2 := memOf_append_right pre (wordBytes e n ++ post) 2
  have h3 := memOf_append_right pre (wordBytes e n ++ post) 3
  rw [Nat.add_zero] at h0
  obtain ⟨a, b, c, d, hbytes, hword⟩ := wordBytes_eq e n
  simp only [hbytes, List.cons_append, List.nil_append, List.getElem?_cons_zero,
    List.getElem?_cons_succ] at h0 h1 h2 h3 ⊢
  simp only [Mem.word, h0, h1, h2, h3, hword, Option.bind_eq_bind, Option.bind_some,
    Option.pure_def]

theorem memOf_word (e : Endian) (pre post : List UInt8) {ws : List Nat} {k w : Nat}
    (h : ws[k]? = some w) :
    (memOf (pre ++ ws.flatMap (wordBytes e) ++ post)).word e (pre.length + 4 * k) =
      some (w % 2 ^ 32) := by
  obtain ⟨hk, hw⟩ := List.getElem?_eq_some_iff.mp h
  have cut : ws = ws.take k ++ w :: ws.drop (k + 1) := by
    rw [← hw, List.getElem_cons_drop, List.take_append_drop]
  have before : (pre ++ (ws.take k).flatMap (wordBytes e)).length = pre.length + 4 * k := by
    rw [List.length_append, words_length, List.length_take_of_le (Nat.le_of_lt hk)]
  have here := memOf_word_here e (pre ++ (ws.take k).flatMap (wordBytes e))
    ((ws.drop (k + 1)).flatMap (wordBytes e) ++ post) w
  rw [before] at here
  rw [← here]
  congr 2
  conv_lhs => rw [cut]
  simp only [List.flatMap_append, List.flatMap_cons, List.append_assoc]

/-- A memory that answers at least wherever another one does, with the same byte. -/
def Mem.Extends (big small : Mem) : Prop := ∀ off b, small off = some b → big off = some b

theorem Mem.Extends.word {big small : Mem} (h : big.Extends small) {e : Endian} {off w : Nat}
    (read : small.word e off = some w) : big.word e off = some w := by
  simp only [Mem.word, Option.bind_eq_bind, Option.bind_eq_some_iff] at read ⊢
  obtain ⟨a, ha, b, hb, c, hc, d, hd, hw⟩ := read
  exact ⟨a, h _ _ ha, b, h _ _ hb, c, h _ _ hc, d, h _ _ hd, hw⟩

def Mem.Total (mem : Mem) : Prop := ∀ off, ∃ b, mem off = some b

theorem Mem.Total.word {mem : Mem} (h : mem.Total) (e : Endian) (off : Nat) :
    ∃ w, mem.word e off = some w := by
  obtain ⟨a, ha⟩ := h off
  obtain ⟨b, hb⟩ := h (off + 1)
  obtain ⟨c, hc⟩ := h (off + 2)
  obtain ⟨d, hd⟩ := h (off + 3)
  exact ⟨wordOf e a b c d, by simp [Mem.word, ha, hb, hc, hd]⟩

end Rebpf.Lib
