import Rebpf.Lib.Bytes

namespace Rebpf.Lib

def halfBytes : Endian → Nat → List UInt8
  | .little, n => [.ofNat n, .ofNat (n / 256)]
  | .big, n => [.ofNat (n / 256), .ofNat n]

def halfOf : Endian → UInt8 → UInt8 → Nat
  | .little, a, b => a.toNat + 256 * b.toNat
  | .big, a, b => b.toNat + 256 * a.toNat

theorem halfBytes_eq (e : Endian) (n : Nat) :
    ∃ a b, halfBytes e n = [a, b] ∧ halfOf e a b = n % 2 ^ 16 := by
  cases e with
  | little =>
    refine ⟨_, _, rfl, ?_⟩
    simp only [halfOf, UInt8.toNat_ofNat']
    omega
  | big =>
    refine ⟨_, _, rfl, ?_⟩
    simp only [halfOf, UInt8.toNat_ofNat']
    omega

/-- An attribute: its type, whether the flag of nested ones is set, its payload, and
the bytes that pad it to whole words. -/
structure Tlv where
  type : Nat
  nested : Bool
  payload : List UInt8
  pad : List UInt8

namespace Tlv

/-- The length and the type with its flag. -/
def header (e : Endian) (a : Tlv) : List UInt8 :=
  halfBytes e (4 + a.payload.length) ++ halfBytes e (a.type + if a.nested then 2 ^ 15 else 0)

def encode (e : Endian) (a : Tlv) : List UInt8 := a.header e ++ a.payload ++ a.pad

def size (a : Tlv) : Nat := 4 + a.payload.length + a.pad.length

/-- The type leaves the two flags free, and the length fits its field. -/
def Sized (a : Tlv) : Prop := a.type < 2 ^ 14 ∧ 4 + a.payload.length < 2 ^ 16

def Padded (a : Tlv) : Prop := a.pad.length < 4 ∧ 4 ∣ a.size

/-- Attributes one after the other; the last one may end with its payload. -/
def WellFormed : List Tlv → Prop
  | [] => True
  | [a] => a.Sized ∧ (a.pad = [] ∨ a.Padded)
  | a :: b :: rest => a.Sized ∧ a.Padded ∧ WellFormed (b :: rest)

def encodeAll (e : Endian) (attrs : List Tlv) : List UInt8 := attrs.flatMap (encode e)

/-- What a reader of the top level sees of an attribute: its type, where its payload
starts, and the payload. -/
structure Chunk where
  type : Nat
  start : Nat
  bytes : List UInt8
deriving DecidableEq, Repr

def chunksAt : Nat → List Tlv → List Chunk
  | _, [] => []
  | start, a :: rest => ⟨a.type, start + 4, a.payload⟩ :: chunksAt (start + a.size) rest

/-- The first attribute of a type with another payload. -/
def setFirst (type : Nat) (payload : List UInt8) : List Tlv → List Tlv
  | [] => []
  | a :: rest =>
    if a.type = type then { a with payload } :: rest else a :: setFirst type payload rest

section

variable {e : Endian} {a : Tlv} {attrs : List Tlv} {type : Nat}

@[simp] theorem header_length (e : Endian) (a : Tlv) : (a.header e).length = 4 := by
  cases e <;> rfl

@[simp] theorem encode_length (e : Endian) (a : Tlv) : (a.encode e).length = a.size := by
  simp only [encode, List.length_append, header_length, size]

theorem length_le_encodeAll (e : Endian) (attrs : List Tlv) :
    attrs.length ≤ (encodeAll e attrs).length := by
  induction attrs with
  | nil => exact Nat.zero_le _
  | cons a attrs ih =>
    rw [encodeAll, List.flatMap_cons, ← encodeAll, List.length_append, encode_length,
      List.length_cons, size]
    omega

/-- The encoding around the payload of the first attribute of a type; another payload
of the same length changes nothing else. -/
theorem encodeAll_split (h : attrs.find? (·.type == type) = some a) (start : Nat) :
    ∃ left right, encodeAll e attrs = left ++ a.payload ++ right ∧
      (chunksAt start attrs).find? (·.type == type) =
        some ⟨a.type, start + left.length, a.payload⟩ ∧
      ∀ payload, payload.length = a.payload.length →
        encodeAll e (setFirst type payload attrs) = left ++ payload ++ right := by
  induction attrs generalizing start with
  | nil => cases h
  | cons b attrs ih =>
    by_cases hb : b.type = type
    · rw [List.find?_cons_of_pos (by simpa using hb)] at h
      cases Option.some.inj h
      refine ⟨a.header e, a.pad ++ encodeAll e attrs, ?_, ?_, fun payload hlength => ?_⟩
      · simp [encodeAll, encode]
      · rw [chunksAt, List.find?_cons_of_pos (by simpa using hb), header_length]
      · have hheader : header e { a with payload } = a.header e := by
          simp only [header, hlength]
        rw [setFirst, if_pos hb, encodeAll, List.flatMap_cons, encode, hheader]
        simp [encodeAll]
    · rw [List.find?_cons_of_neg (by simpa using hb)] at h
      obtain ⟨left, right, hencode, hfind, hset⟩ := ih h (start + b.size)
      refine ⟨b.encode e ++ left, right, ?_, ?_, fun payload hlength => ?_⟩
      · rw [encodeAll, List.flatMap_cons, ← encodeAll, hencode]
        simp only [List.append_assoc]
      · rw [chunksAt, List.find?_cons_of_neg (by simpa using hb), hfind, List.length_append,
          encode_length, Nat.add_assoc]
      · rw [setFirst, if_neg hb, encodeAll, List.flatMap_cons, ← encodeAll, hset payload hlength]
        simp only [List.append_assoc]

theorem find?_chunksAt (start : Nat) :
    ((chunksAt start attrs).find? (·.type == type)).map (·.bytes) =
      (attrs.find? (·.type == type)).map (·.payload) := by
  induction attrs generalizing start with
  | nil => rfl
  | cons a attrs ih =>
    rw [chunksAt, List.find?_cons, List.find?_cons]
    by_cases ha : a.type = type
    · simp [ha]
    · simp only [beq_eq_false_iff_ne.mpr ha, ih]

end

/-- Reads the attributes from the front of a buffer; `fuel` bounds their number. -/
def parse (e : Endian) : Nat → Nat → List UInt8 → List Chunk
  | fuel + 1, start, l₀ :: l₁ :: t₀ :: t₁ :: rest =>
    let len := halfOf e l₀ l₁
    if len < 4 ∨ rest.length + 4 < len then []
    else
      let size := (len + 3) / 4 * 4
      ⟨halfOf e t₀ t₁ % 2 ^ 14, start + 4, rest.take (len - 4)⟩ ::
        parse e fuel (start + size) (rest.drop (size - 4))
  | _, _, _ => []

theorem parse_nil (e : Endian) (fuel start : Nat) : parse e fuel start [] = [] := by
  cases fuel <;> rfl

/-- One turn of the reader, at an attribute and whatever follows it. -/
theorem parse_encode {e : Endian} {a : Tlv} (sized : a.Sized) (fuel start : Nat)
    (more : List UInt8) :
    parse e (fuel + 1) start (a.encode e ++ more) = ⟨a.type, start + 4, a.payload⟩ ::
      parse e fuel (start + (4 + a.payload.length + 3) / 4 * 4)
        ((a.payload ++ (a.pad ++ more)).drop ((4 + a.payload.length + 3) / 4 * 4 - 4)) := by
  obtain ⟨l₀, l₁, hlen, hlenOf⟩ := halfBytes_eq e (4 + a.payload.length)
  obtain ⟨t₀, t₁, htype, htypeOf⟩ :=
    halfBytes_eq e (a.type + if a.nested then 2 ^ 15 else 0)
  rw [Nat.mod_eq_of_lt sized.2] at hlenOf
  have hflag : halfOf e t₀ t₁ % 2 ^ 14 = a.type := by
    have hsmall := sized.1
    rw [htypeOf]
    split <;> omega
  have hbuf : a.encode e ++ more = l₀ :: l₁ :: t₀ :: t₁ :: (a.payload ++ (a.pad ++ more)) := by
    simp only [encode, header, hlen, htype, List.cons_append, List.nil_append, List.append_assoc]
  have hfits : ¬(4 + a.payload.length < 4 ∨
      (a.payload ++ (a.pad ++ more)).length + 4 < 4 + a.payload.length) := by
    rw [List.length_append]
    omega
  rw [hbuf, parse, hlenOf, hflag, if_neg hfits, Nat.add_sub_cancel_left, List.take_left]

theorem parse_encodeAll {e : Endian} {attrs : List Tlv} (wf : WellFormed attrs) (start : Nat)
    {fuel : Nat} (enough : attrs.length ≤ fuel) :
    parse e fuel start (encodeAll e attrs) = chunksAt start attrs := by
  induction attrs generalizing start fuel with
  | nil => exact parse_nil e fuel start
  | cons a attrs ih =>
    obtain ⟨fuel, rfl⟩ : ∃ n, fuel = n + 1 := Nat.exists_eq_succ_of_ne_zero (by
      rw [List.length_cons] at enough
      omega)
    have sized : a.Sized := by
      cases attrs with
      | nil => exact wf.1
      | cons b attrs => exact wf.1
    rw [encodeAll, List.flatMap_cons, parse_encode sized, chunksAt]
    congr 1
    have hpadded : a.Padded → (4 + a.payload.length + 3) / 4 * 4 = a.size := by
      rintro ⟨hpad, hwords⟩
      rw [size] at hwords ⊢
      omega
    cases attrs with
    | nil =>
      have hlength : (a.payload ++ (a.pad ++ [])).length ≤ (4 + a.payload.length + 3) / 4 * 4 - 4 := by
        rw [List.append_nil, List.length_append]
        rcases wf.2 with hpad | hpad
        · rw [hpad, List.length_nil]
          omega
        · rw [hpadded hpad, size]
          omega
      rw [List.flatMap_nil, List.drop_eq_nil_of_le hlength, parse_nil]
      rfl
    | cons b attrs =>
      have hpad := wf.2.1
      have hdrop : (a.payload ++ (a.pad ++ encodeAll e (b :: attrs))).drop (a.size - 4) =
          encodeAll e (b :: attrs) := by
        rw [← List.append_assoc]
        refine List.drop_left' ?_
        rw [List.length_append, size]
        omega
      rw [← encodeAll, hpadded hpad, hdrop]
      exact ih wf.2.2 _ (Nat.le_of_succ_le_succ enough)

end Tlv

end Rebpf.Lib
