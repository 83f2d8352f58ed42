import Rebpf.Encode
import Rebpf.ExtractTable

namespace Rebpf

open Lib

/-- The pieces of an encoded arena in the order they lie in it. -/
structure Layout where
  before : List UInt8
  dfa : Dfa
  gap : List UInt8
  entries : List (Nat × Match)

namespace Layout

variable (e : Endian) (L : Layout)

def sliceWords : List Nat := slices 0 L.dfa.pats

def uidWords : List Nat := L.entries.map (·.2.uid.toNat)

def codes : List UInt8 := L.entries.map (·.2.direction.code)

def head : List UInt8 := L.before ++ L.dfa.ecTable

def states : List UInt8 := L.head ++ L.dfa.trans.flatMap (wordBytes e)

def toSlices : List UInt8 := L.states e ++ L.gap

def toRedirect : List UInt8 := L.toSlices e ++ L.sliceWords.flatMap (wordBytes e)

def toUids : List UInt8 := L.toRedirect e ++ L.codes

def toIds : List UInt8 := L.toUids e ++ L.uidWords.flatMap (wordBytes e)

def bytes : List UInt8 := L.toIds e ++ (L.entries.map (·.1)).flatMap (wordBytes e)

def bpf : BpfDfa where
  dfaOff := u32 L.before.length
  start := L.dfa.start
  eoi := L.dfa.eoiClass
  finMin := L.dfa.finMin
  finMax := L.dfa.finMax
  matchSlicesOff := u32 (L.toSlices e).length
  redirectTableOff := u32 (L.toRedirect e).length
  uidTableOff := u32 (L.toUids e).length
  matchIdTableOff := u32 (L.toIds e).length

end Layout

/-- What a successful `encode_dfa` leaves behind: the pieces, in order, after
the padded prior content, each pattern resolved to its rule. -/
theorem encodeDfa_layout {c : Crates} {e : Endian} (aligned : c.PadsToWord) {pats : List String}
    {arena out : List UInt8} {patIdMap : List Nat} {ms : List Match} {b : BpfDfa}
    (h : encodeDfa c e pats arena patIdMap ms = .ok (b, out)) :
    ∃ L : Layout, extractDfa c pats = .ok L.dfa ∧
      List.Forall₂ (Resolves patIdMap ms) L.dfa.pats.flatten L.entries ∧
      (∃ pad, L.before = arena ++ pad ∧ pad.length < 4 ∧ 4 ∣ L.before.length) ∧
      (L.gap.length < 4 ∧ 4 ∣ (L.toSlices e).length) ∧
      L.dfa.ecTable.length = 256 ∧ out = L.bytes e ∧ b = L.bpf e := by
  obtain ⟨x, hx, h⟩ := bind_eq_ok.mp h
  obtain ⟨_, hec, h⟩ := bind_eq_ok.mp h
  obtain ⟨y, hy, h⟩ := bind_eq_ok.mp h
  obtain ⟨pad, hpad, hwhole, hpadlt⟩ := aligned arena
  obtain ⟨gap, hgap, hwhole', hgaplt⟩ := aligned
    (arena ++ pad ++ x.ecTable ++ x.trans.flatMap (wordBytes e))
  obtain ⟨rs, hrs, harena, hred, huid, hids⟩ := encodePats_fold_ok hy
  have hec' : x.ecTable.length = 256 := by simpa using hec
  refine ⟨⟨arena ++ pad, x, gap, rs⟩, hx, hrs, ⟨pad, rfl, hpadlt, hwhole⟩, ⟨hgaplt, hwhole'⟩, hec', ?_⟩
  have h := pure_eq_ok.mp h
  rw [harena, hred, huid, hids] at h
  simp only [hpad, hgap] at h
  obtain ⟨rfl, rfl⟩ := Prod.mk.inj h
  have huids : (rs.map (·.2.uid)).map UInt32.toNat = rs.map (·.2.uid.toNat) := by
    rw [List.map_map]; rfl
  constructor <;> simp [Layout.bytes, Layout.bpf, Layout.toIds, Layout.toUids, Layout.toRedirect,
    Layout.toSlices, Layout.states, Layout.head, Layout.sliceWords, Layout.uidWords,
    Layout.codes, huids]

namespace Layout

variable {e : Endian} {L : Layout}

theorem length_chain (e : Endian) (L : Layout) :
    L.before.length + L.dfa.ecTable.length + 4 * L.dfa.trans.length = (L.states e).length ∧
    (L.states e).length + L.gap.length = (L.toSlices e).length ∧
    (L.toSlices e).length + 4 * L.sliceWords.length = (L.toRedirect e).length ∧
    (L.toRedirect e).length + L.entries.length = (L.toUids e).length ∧
    (L.toUids e).length + 4 * L.entries.length = (L.toIds e).length ∧
    (L.toIds e).length + 4 * L.entries.length = (L.bytes e).length := by
  simp only [states, head, toSlices, toRedirect, toUids, toIds, bytes, List.length_append,
    words_length, codes, uidWords, List.length_map, and_self]

section

variable (small : (L.bytes e).length < 2 ^ 32)

include small

theorem read_class (full : L.dfa.ecTable.length = 256) (b : UInt8) :
    memOf (L.bytes e) ((L.bpf e).dfaOff + b.toNat) = L.dfa.ecTable[b.toNat]? := by
  have chain := length_chain e L
  have hb := b.toNat_lt
  have hoff : (L.bpf e).dfaOff = L.before.length := u32_of_lt (by omega)
  have split : L.bytes e = L.before ++ (L.dfa.ecTable ++ (L.dfa.trans.flatMap (wordBytes e) ++
      (L.gap ++ (L.sliceWords.flatMap (wordBytes e) ++ (L.codes ++
      (L.uidWords.flatMap (wordBytes e) ++ (L.entries.map (·.1)).flatMap (wordBytes e))))))) := by
    simp only [bytes, toIds, toUids, toRedirect, toSlices, states, head, List.append_assoc]
  rw [hoff, split, memOf_append_right, List.getElem?_append_left (by omega)]

theorem read_state (full : L.dfa.ecTable.length = 256) {k w : Nat}
    (h : L.dfa.trans[k]? = some w) :
    (memOf (L.bytes e)).word e ((L.bpf e).dfaOff + 256 + 4 * k) = some (u32 w) := by
  have chain := length_chain e L
  have hoff : (L.bpf e).dfaOff + 256 = L.head.length := by
    have : (L.bpf e).dfaOff = L.before.length := u32_of_lt (by omega)
    rw [this, head, List.length_append, full]
  have split : L.bytes e = L.head ++ L.dfa.trans.flatMap (wordBytes e) ++
      (L.gap ++ (L.sliceWords.flatMap (wordBytes e) ++ (L.codes ++
      (L.uidWords.flatMap (wordBytes e) ++ (L.entries.map (·.1)).flatMap (wordBytes e))))) := by
    simp only [bytes, toIds, toUids, toRedirect, toSlices, states, List.append_assoc]
  rw [hoff, split]
  exact memOf_word e _ _ h

theorem read_slice {k w : Nat} (h : L.sliceWords[k]? = some w) :
    (memOf (L.bytes e)).word e ((L.bpf e).matchSlicesOff + 4 * k) = some (u32 w) := by
  have chain := length_chain e L
  have hoff : (L.bpf e).matchSlicesOff = (L.toSlices e).length := u32_of_lt (by omega)
  have split : L.bytes e = L.toSlices e ++ L.sliceWords.flatMap (wordBytes e) ++ (L.codes ++
      (L.uidWords.flatMap (wordBytes e) ++ (L.entries.map (·.1)).flatMap (wordBytes e))) := by
    simp only [bytes, toIds, toUids, toRedirect, List.append_assoc]
  rw [hoff, split]
  exact memOf_word e _ _ h

theorem read_redirect {k : Nat} {r : Nat × Match} (h : L.entries[k]? = some r) :
    memOf (L.bytes e) ((L.bpf e).redirectTableOff + k) = some r.2.direction.code := by
  have chain := length_chain e L
  obtain ⟨hk, _⟩ := List.getElem?_eq_some_iff.mp h
  have hoff : (L.bpf e).redirectTableOff = (L.toRedirect e).length := u32_of_lt (by omega)
  have split : L.bytes e = L.toRedirect e ++ (L.codes ++
      (L.uidWords.flatMap (wordBytes e) ++ (L.entries.map (·.1)).flatMap (wordBytes e))) := by
    simp only [bytes, toIds, toUids, List.append_assoc]
  rw [hoff, split, memOf_append_right,
    List.getElem?_append_left (by simpa only [codes, List.length_map] using hk)]
  simp [codes, h]

theorem read_uid {k : Nat} {r : Nat × Match} (h : L.entries[k]? = some r) :
    (memOf (L.bytes e)).word e ((L.bpf e).uidTableOff + 4 * k) = some r.2.uid.toNat := by
  have chain := length_chain e L
  have hoff : (L.bpf e).uidTableOff = (L.toUids e).length := u32_of_lt (by omega)
  have split : L.bytes e = L.toUids e ++ L.uidWords.flatMap (wordBytes e) ++
      (L.entries.map (·.1)).flatMap (wordBytes e) := by
    simp only [bytes, toIds, List.append_assoc]
  have hk : L.uidWords[k]? = some r.2.uid.toNat := by simp [uidWords, h]
  rw [hoff, split, memOf_word e _ _ hk, Nat.mod_eq_of_lt r.2.uid.toNat_lt]

end

end Layout

end Rebpf
