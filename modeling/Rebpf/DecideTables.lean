import Rebpf.Decide
import Rebpf.WalkRefines

namespace Rebpf

open Lib

theorem slices_at {off k : Nat} {lists : List (List Nat)} {ids : List Nat}
    (h : lists[k]? = some ids) :
    (slices off lists)[k * 2]? = some (off + (lists.take k).flatten.length) ∧
      (slices off lists)[k * 2 + 1]? = some ids.length := by
  induction lists generalizing off k with
  | nil => simp at h
  | cons pats lists ih =>
    cases k with
    | zero =>
      obtain rfl := Option.some.inj h
      exact ⟨rfl, rfl⟩
    | succ k =>
      obtain ⟨ho, hl⟩ := @ih (off + pats.length) k h
      have h2 : (k + 1) * 2 = k * 2 + 2 := by omega
      rw [h2]
      refine ⟨?_, hl⟩
      show (slices (off + pats.length) lists)[k * 2]? = _
      rw [ho]
      simp [Nat.add_assoc]

theorem flatten_at {k i : Nat} {lists : List (List Nat)} {ids : List Nat}
    (h : lists[k]? = some ids) (hi : i < ids.length) :
    lists.flatten[(lists.take k).flatten.length + i]? = ids[i]? := by
  obtain ⟨hk, rfl⟩ := List.getElem?_eq_some_iff.mp h
  have cut : lists.flatten = (lists.take k).flatten ++ (lists[k] ++ (lists.drop (k + 1)).flatten) := by
    conv_lhs => rw [← List.take_append_drop k lists]
    rw [List.flatten_append, List.drop_eq_getElem_cons hk, List.flatten_cons]
  rw [cut, List.getElem?_append_right (by omega), Nat.add_sub_cancel_left,
    List.getElem?_append_left hi]

theorem slices_length (off : Nat) (lists : List (List Nat)) :
    (slices off lists).length = 2 * lists.length := by
  induction lists generalizing off with
  | nil => rfl
  | cons pats lists ih =>
    simp only [slices, List.length_cons, ih]
    omega

def Layout.sliceOff (L : Layout) (off : Nat) : Nat := (L.dfa.pats.take off).flatten.length

/-- The rules an offset of the match range lists, in their order. -/
def Layout.ruleSlice (L : Layout) (off : Nat) : List (Nat × Match) :=
  (L.entries.drop (L.sliceOff off)).take ((L.dfa.pats[off]?.getD []).length)

namespace Layout

variable {e : Endian} {L : Layout} {patIdMap : List Nat} {ms : List Match}

theorem slice_fits (resolved : List.Forall₂ (Resolves patIdMap ms) L.dfa.pats.flatten L.entries)
    {off : Nat} {ids : List Nat} (hids : L.dfa.pats[off]? = some ids) :
    L.sliceOff off + ids.length ≤ L.entries.length := by
  obtain ⟨hk, rfl⟩ := List.getElem?_eq_some_iff.mp hids
  rw [← resolved.length_eq, sliceOff]
  conv_rhs => rw [← List.take_append_drop off L.dfa.pats]
  rw [List.flatten_append, List.length_append, List.drop_eq_getElem_cons hk, List.flatten_cons,
    List.length_append]
  omega

theorem ruleSlice_length
    (resolved : List.Forall₂ (Resolves patIdMap ms) L.dfa.pats.flatten L.entries)
    {off : Nat} {ids : List Nat} (hids : L.dfa.pats[off]? = some ids) :
    (L.ruleSlice off).length = ids.length := by
  have hfit := slice_fits resolved hids
  rw [ruleSlice, hids, Option.getD_some, List.length_take, List.length_drop]
  omega

theorem ruleSlice_at {off k : Nat} {q : Nat × Match} (h : (L.ruleSlice off)[k]? = some q) :
    L.entries[L.sliceOff off + k]? = some q := by
  obtain ⟨hk, _⟩ := List.getElem?_eq_some_iff.mp h
  rw [ruleSlice, List.length_take] at hk
  rwa [ruleSlice, List.getElem?_take_of_lt (by omega), List.getElem?_drop] at h

/-- The two words of a match state: where its slice begins, and how long it is. -/
theorem read_slices (small : (L.bytes e).length < 2 ^ 32)
    (resolved : List.Forall₂ (Resolves patIdMap ms) L.dfa.pats.flatten L.entries) {off : Nat}
    {ids : List Nat} (hids : L.dfa.pats[off]? = some ids) :
    (memOf (L.bytes e)).word e ((L.bpf e).matchSlicesOff + 4 * u32 (off * 2)) =
        some (L.sliceOff off) ∧
      (memOf (L.bytes e)).word e ((L.bpf e).matchSlicesOff + 4 * u32 (off * 2 + 1)) =
        some ids.length := by
  have chain := L.length_chain e
  have hcount : L.sliceWords.length = 2 * L.dfa.pats.length := slices_length 0 _
  have hfit := slice_fits resolved hids
  obtain ⟨hk, _⟩ := List.getElem?_eq_some_iff.mp hids
  obtain ⟨hslice, hnum⟩ := @slices_at 0 off _ _ hids
  rw [Nat.zero_add, ← sliceOff] at hslice
  have hread := L.read_slice small hslice
  have hread' := L.read_slice small hnum
  rw [u32_of_lt (by omega)] at hread
  rw [u32_of_lt (by omega)] at hread'
  have hw : u32 (off * 2) = off * 2 := u32_of_lt (by omega)
  have hw' : u32 (off * 2 + 1) = off * 2 + 1 := u32_of_lt (by omega)
  rw [hw, hw']
  exact ⟨hread, hread'⟩

/-- What the kernel decides in a match state, read off the encoded tables: the
uid test runs over the state's own slice of rules, the direction is the one at
the state's offset in the direction table. -/
theorem readDecision (small : (L.bytes e).length < 2 ^ 32)
    (resolved : List.Forall₂ (Resolves patIdMap ms) L.dfa.pats.flatten L.entries)
    {m : MatchCtx} {off : Nat} (hm : m.dfa = { L.bpf e with start := L.dfa.finMin + off })
    (hin : L.dfa.finMin + off ≤ L.dfa.finMax) {ids : List Nat}
    (hids : L.dfa.pats[off]? = some ids) {r : Nat × Match} (hr : L.entries[off]? = some r) :
    Rebpf.readDecision e (memOf (L.bytes e)) m =
      some (if (L.ruleSlice off).any (fun q => uidApplies q.2.uid m.uid)
          then (r.2.direction.code.toNat : Int) else -1,
        { m with res := ⟨r.2.direction.code.toNat, L.sliceOff off, ids.length⟩ }) := by
  have chain := L.length_chain e
  have hfit := slice_fits resolved hids
  have hlen := ruleSlice_length resolved hids
  obtain ⟨hread, hread'⟩ := L.read_slices small resolved hids
  have huids : ∀ k uid, ((L.ruleSlice off).map (·.2.uid))[k]? = some uid →
      (memOf (L.bytes e)).word e ((L.bpf e).uidTableOff + 4 * u32 (L.sliceOff off + (0 + k))) =
        some uid.toNat := by
    intro k uid hk
    rw [List.getElem?_map, Option.map_eq_some_iff] at hk
    obtain ⟨q, hq, rfl⟩ := hk
    obtain ⟨hklt, _⟩ := List.getElem?_eq_some_iff.mp hq
    rw [Nat.zero_add, u32_of_lt (by omega)]
    exact L.read_uid small (ruleSlice_at hq)
  have hstart : m.dfa.start = m.dfa.finMin + off := by rw [hm]; rfl
  have hmax : m.dfa.start ≤ m.dfa.finMax := by rw [hm]; exact hin
  have hoff : (memOf (L.bytes e)).word e (m.dfa.matchSlicesOff + 4 * u32 (off * 2)) =
      some (L.sliceOff off) := by
    rw [hm]
    exact hread
  have hcnt : (memOf (L.bytes e)).word e (m.dfa.matchSlicesOff + 4 * u32 (off * 2 + 1)) =
      some ((L.ruleSlice off).map (·.2.uid)).length := by
    rw [hm, List.length_map, hlen]
    exact hread'
  have hdir : memOf (L.bytes e) (m.dfa.redirectTableOff + off) = some r.2.direction.code := by
    rw [hm]
    exact L.read_redirect small hr
  have key := readDecision_eq hstart hmax hoff hcnt hdir (by rw [hm]; exact huids)
  rw [key, List.any_map, List.length_map, hlen]
  rfl

end Layout

end Rebpf
