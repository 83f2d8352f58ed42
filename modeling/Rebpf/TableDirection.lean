import Rebpf.ArenaSize

namespace Rebpf

open Lib

/-- The loop over the uids of a state stops at the `i`-th entry of its slice,
which starts at `tableOff`. -/
structure StopsAt (e : Endian) (mem : Mem) (m : MatchCtx) (tableOff i : Nat) : Prop where
  slice : mem.word e (m.dfa.matchSlicesOff + 4 * u32 ((m.dfa.start - m.dfa.finMin) * 2)) =
    some tableOff
  inside : ∃ tableLen, mem.word e (m.dfa.matchSlicesOff +
    4 * u32 ((m.dfa.start - m.dfa.finMin) * 2 + 1)) = some tableLen ∧ i < tableLen
  passed : ∀ j < i, ∃ uid, mem.word e (m.dfa.uidTableOff + 4 * u32 (tableOff + j)) = some uid ∧
    ¬(uid = 0 ∨ uid = m.uid.toNat)
  stops : ∃ uid, mem.word e (m.dfa.uidTableOff + 4 * u32 (tableOff + i)) = some uid ∧
    (uid = 0 ∨ uid = m.uid.toNat)

/-- The direction of the match a place in the concatenated lists of pattern ids is about. -/
def directionAt (patIdMap : List Nat) (ms : List Match) (lists : List (List Nat)) (k : Nat) :
    Option Direction := do
  let patId ← lists.flatten[k]?
  let r ← resolve patIdMap ms patId
  return r.2.direction

theorem Direction.code_inj {a b : Direction} : a.code = b.code ↔ a = b := by
  cases a <;> cases b <;> decide

theorem length_le_flatten {α : Type} {lists : List (List α)} (filled : ∀ l ∈ lists, l ≠ []) :
    lists.length ≤ lists.flatten.length := by
  induction lists with
  | nil => exact Nat.le_refl 0
  | cons l lists ih =>
    have hl := List.length_pos_iff.mpr (filled l List.mem_cons_self)
    have hrest := ih fun l' hl' => filled l' (List.mem_cons_of_mem l hl')
    rw [List.length_cons, List.flatten_cons, List.length_append]
    omega

namespace Layout

variable {e : Endian} {L : Layout} {patIdMap : List Nat} {ms : List Match}

theorem read_id (small : (L.bytes e).length < 2 ^ 32) {k : Nat} {r : Nat × Match}
    (h : L.entries[k]? = some r) :
    (memOf (L.bytes e)).word e ((L.bpf e).matchIdTableOff + 4 * k) = some (u32 r.1) := by
  have chain := length_chain e L
  have hoff : (L.bpf e).matchIdTableOff = (L.toIds e).length := u32_of_lt (by omega)
  have hk : (L.entries.map (·.1))[k]? = some r.1 := by simp [h]
  have split : L.bytes e = L.toIds e ++ (L.entries.map (·.1)).flatMap (wordBytes e) ++ [] := by
    rw [bytes, List.append_nil]
  rw [hoff, split]
  exact memOf_word e _ _ hk

theorem entry_resolves
    (resolved : List.Forall₂ (Resolves patIdMap ms) L.dfa.pats.flatten L.entries) {k : Nat}
    {r : Nat × Match} (h : L.entries[k]? = some r) :
    ∃ id, L.dfa.pats.flatten[k]? = some id ∧ resolve patIdMap ms id = some r := by
  obtain ⟨hk, _⟩ := List.getElem?_eq_some_iff.mp h
  obtain ⟨id, hid⟩ : ∃ id, L.dfa.pats.flatten[k]? = some id :=
    ⟨_, List.getElem?_eq_getElem (resolved.length_eq ▸ hk)⟩
  obtain ⟨r', hr', hres⟩ := forall₂_at resolved hid
  cases Option.some.inj (h.symm.trans hr')
  exact ⟨id, hid, hres⟩

theorem directionAt_eq
    (resolved : List.Forall₂ (Resolves patIdMap ms) L.dfa.pats.flatten L.entries) {k : Nat}
    {r : Nat × Match} (h : L.entries[k]? = some r) :
    directionAt patIdMap ms L.dfa.pats k = some r.2.direction := by
  obtain ⟨id, hid, hres⟩ := entry_resolves resolved h
  simp [directionAt, hid, hres]

theorem entry_named
    (resolved : List.Forall₂ (Resolves patIdMap ms) L.dfa.pats.flatten L.entries) {k : Nat}
    {r : Nat × Match} (h : L.entries[k]? = some r) : ms[r.1]? = some r.2 := by
  obtain ⟨id, _, hres⟩ := entry_resolves resolved h
  obtain ⟨mId, _, hres⟩ := Option.bind_eq_some_iff.mp hres
  obtain ⟨m, hm, hres⟩ := Option.bind_eq_some_iff.mp hres
  cases Option.some.inj hres
  exact hm

/-- The entry the loop stops at is one of the state's own rules, and it applies to the task. -/
theorem stopsAt_entry (small : (L.bytes e).length < 2 ^ 32)
    (resolved : List.Forall₂ (Resolves patIdMap ms) L.dfa.pats.flatten L.entries) {off i : Nat}
    {ids : List Nat} (hids : L.dfa.pats[off]? = some ids) {m : MatchCtx} {tableOff : Nat}
    (hm : m.dfa = { L.bpf e with start := L.dfa.finMin + off })
    (stops : StopsAt e (memOf (L.bytes e)) m tableOff i) :
    tableOff = L.sliceOff off ∧ ∃ q, L.entries[tableOff + i]? = some q ∧
      (L.ruleSlice off)[i]? = some q ∧ uidApplies q.2.uid m.uid = true := by
  have chain := length_chain e L
  have hfit := slice_fits resolved hids
  obtain ⟨hread, hread'⟩ := L.read_slices small resolved hids
  have hstate : m.dfa.start - m.dfa.finMin = off := by
    rw [hm]
    exact Nat.add_sub_cancel_left _ _
  obtain ⟨hoff, ⟨tableLen, hlen, hi⟩, _, uid, huid, happlies⟩ := stops
  rw [hstate] at hoff hlen
  have hsliceAt : m.dfa.matchSlicesOff = (L.bpf e).matchSlicesOff := by rw [hm]
  have huidAt : m.dfa.uidTableOff = (L.bpf e).uidTableOff := by rw [hm]
  rw [hsliceAt] at hoff hlen
  obtain rfl : tableOff = L.sliceOff off := Option.some.inj (hoff.symm.trans hread)
  obtain rfl : tableLen = ids.length := Option.some.inj (hlen.symm.trans hread')
  obtain ⟨q, hq⟩ : ∃ q, L.entries[L.sliceOff off + i]? = some q :=
    ⟨_, List.getElem?_eq_getElem (by omega)⟩
  refine ⟨rfl, q, hq, ?_, ?_⟩
  · rw [ruleSlice, hids, Option.getD_some, List.getElem?_take_of_lt hi, List.getElem?_drop, hq]
  · have hword := L.read_uid small hq
    rw [huidAt, u32_of_lt (by omega), hword] at huid
    cases Option.some.inj huid
    simpa [uidApplies, ← UInt32.toNat_inj] using happlies

end Layout

variable {c : Crates} {e : Endian}

/-- With a list of patterns for every match state, a state of the match range
has its slice in the tables, and the place of the state is one of them too. -/
theorem slice_of_state {d : DenseDfa} {x : Dfa} (h : Extracted d x) (filled : d.Filled)
    {s : Nat} (hlo : x.finMin ≤ s) (hhi : s ≤ x.finMax) :
    ∃ ids, x.pats[s - x.finMin]? = some ids ∧ s - x.finMin < x.pats.flatten.length := by
  have hlt := h.finMax_lt
  have hmatch := (h.fin_iff s (by omega)).mp ⟨hlo, hhi⟩
  have hids := h.pats_at filled (by omega) hmatch
  obtain ⟨hk, _⟩ := List.getElem?_eq_some_iff.mp hids
  have hnonempty : ∀ l ∈ x.pats, l ≠ [] := by
    intro l hl
    rw [h.pats_eq filled] at hl
    obtain ⟨t, ht, rfl⟩ := List.mem_map.mp hl
    have ht := List.mem_range'_1.mp ht
    have hm := (h.fin_iff t (by omega)).mp (by omega)
    intro hnil
    exact filled t hm (hnil ▸ h.lists t (by omega) hm)
  have hle := length_le_flatten hnonempty
  exact ⟨_, hids, by omega⟩

/-- The direction that comes back is the one at the state's own place in the
direction table, not the one at the entry the uid test stopped at. -/
theorem readDecision_direction_iff (aligned : c.PadsToWord) {pats : List String} {d : DenseDfa}
    {x : Dfa} {arena out : List UInt8} {patIdMap : List Nat} {ms : List Match} {b : BpfDfa}
    (hd : buildDfa c pats true = .ok d) (hx : extract d = .ok x) (filled : d.Filled)
    (h : encodeDfa c e pats arena patIdMap ms = .ok (b, out)) (small : out.length < 2 ^ 32)
    {s : Nat} (hlo : b.finMin ≤ s) (hhi : s ≤ b.finMax) (uid : UInt32) (res : MatchRes)
    {tableOff i : Nat} (stops : StopsAt e (memOf out) ⟨uid, { b with start := s }, res⟩ tableOff i) :
    ∃ ret m mId named,
      readDecision e (memOf out) ⟨uid, { b with start := s }, res⟩ = some (ret, m) ∧
      (memOf out).word e (b.matchIdTableOff + 4 * (tableOff + i)) = some (u32 mId) ∧
      ms[mId]? = some named ∧
      (memOf out).word e (b.uidTableOff + 4 * (tableOff + i)) = some named.uid.toNat ∧
      (ret = named.direction.code.toNat ↔
        directionAt patIdMap ms x.pats (s - x.finMin) =
          directionAt patIdMap ms x.pats ((x.pats.take (s - x.finMin)).flatten.length + i)) := by
  obtain ⟨L, hL, resolved, _, _, _, rfl, rfl⟩ := encodeDfa_layout aligned h
  rw [extractDfa, hd] at hL
  obtain rfl : x = L.dfa := Except.ok.inj (hx.symm.trans hL)
  have hlo : L.dfa.finMin ≤ s := hlo
  have hhi : s ≤ L.dfa.finMax := hhi
  obtain ⟨ids, hids, hplace⟩ := slice_of_state (extract_extracted hx) filled hlo hhi
  have hstate : L.dfa.finMin + (s - L.dfa.finMin) = s := by omega
  have hm : ({ L.bpf e with start := s } : BpfDfa) =
      { L.bpf e with start := L.dfa.finMin + (s - L.dfa.finMin) } := by rw [hstate]
  obtain ⟨r, hr⟩ : ∃ r, L.entries[s - L.dfa.finMin]? = some r :=
    ⟨_, List.getElem?_eq_getElem (by rw [← resolved.length_eq]; exact hplace)⟩
  obtain ⟨rfl, q, hq, hslice, happlies⟩ := L.stopsAt_entry small resolved hids hm stops
  have hany : (L.ruleSlice (s - L.dfa.finMin)).any (fun q => uidApplies q.2.uid uid) = true :=
    List.any_eq_true.mpr ⟨q, List.mem_of_getElem? hslice, happlies⟩
  have hdecide := L.readDecision (m := ⟨uid, { L.bpf e with start := s }, res⟩) small resolved hm
    (by omega) hids hr
  rw [hany, if_pos rfl] at hdecide
  refine ⟨_, _, q.1, q.2, hdecide, L.read_id small hq, L.entry_named resolved hq, L.read_uid small hq, ?_⟩
  have htable : directionAt patIdMap ms L.dfa.pats
      ((L.dfa.pats.take (s - L.dfa.finMin)).flatten.length + i) = some q.2.direction :=
    L.directionAt_eq resolved hq
  rw [L.directionAt_eq resolved hr, htable, Option.some.injEq, ← Direction.code_inj]
  rw [Int.natCast_inj, UInt8.toNat_inj]

/-- The automaton of `^/a$` with two patterns in its match state. -/
def pairedDfa : DenseDfa := { slashADfa with pats := [[0, 1]] }

def pairedCrates : Crates := { slashACrates with buildMany := fun _ _ => .ok pairedDfa }

/-- User 7's bypass rule and everybody's redirect rule. -/
def pairedRules : List Match := [slashARule .bypass 7, slashARule .redirect 0]

def pairedBpf : BpfDfa where
  dfaOff := 0
  start := 24
  eoi := 5
  finMin := 16
  finMax := 16
  matchSlicesOff := 480
  redirectTableOff := 488
  uidTableOff := 490
  matchIdTableOff := 498

def pairedArena : List UInt8 :=
  ((List.range 256).map fun b => pairedDfa.byteClass (.ofNat b)) ++
    pairedDfa.table.flatMap (wordBytes .little) ++ [0, 0, 0, 0, 2, 0, 0, 0] ++ [0, 1] ++
    [7, 0, 0, 0, 0, 0, 0, 0] ++ [0, 0, 0, 0, 1, 0, 0, 0]

set_option maxRecDepth 4000 in
theorem paired_encodes : encodeDfa pairedCrates .little ["^/a$", "^/a$"] [] [0, 1] pairedRules =
    .ok (pairedBpf, pairedArena) := by
  rfl

theorem pairedDfa_filled : pairedDfa.Filled := by
  intro s hs hnone
  obtain ⟨-, hlo, hhi⟩ := DenseDfa.isMatchState_iff.mp hs
  obtain rfl : s = 16 := Nat.le_antisymm hhi hlo
  cases hnone

theorem paired_stops_first : StopsAt .little (memOf pairedArena)
    ⟨7, { pairedBpf with start := 16 }, ⟨0, 0, 0⟩⟩ 0 0 where
  slice := by decide +kernel
  inside := ⟨2, by decide +kernel⟩
  passed j hj := absurd hj (Nat.not_lt_zero j)
  stops := ⟨7, by decide +kernel⟩

theorem paired_stops_second : StopsAt .little (memOf pairedArena)
    ⟨9, { pairedBpf with start := 16 }, ⟨0, 0, 0⟩⟩ 0 1 where
  slice := by decide +kernel
  inside := ⟨2, by decide +kernel⟩
  passed j hj := by
    obtain rfl := Nat.lt_one_iff.mp hj
    exact ⟨7, by decide +kernel⟩
  stops := ⟨0, by decide +kernel⟩

theorem paired_extracts : ∃ x, extract pairedDfa = .ok x := ⟨_, rfl⟩

theorem pairedCrates_padsToWord : pairedCrates.PadsToWord := slashACrates_padsToWord

theorem paired_builds : buildDfa pairedCrates ["^/a$", "^/a$"] true = .ok pairedDfa := rfl

theorem paired_small : pairedArena.length < 2 ^ 32 := by decide +kernel

theorem readDecision_direction_iff_paired : ∃ x : Dfa, extract pairedDfa = .ok x ∧
    ∃ ret m mId, ∃ named : Match,
      readDecision .little (memOf pairedArena) ⟨7, { pairedBpf with start := 16 }, ⟨0, 0, 0⟩⟩ =
        some (ret, m) ∧
      (memOf pairedArena).word .little (pairedBpf.matchIdTableOff + 4 * (0 + 0)) = some (u32 mId) ∧
      pairedRules[mId]? = some named ∧
      (memOf pairedArena).word .little (pairedBpf.uidTableOff + 4 * (0 + 0)) =
        some named.uid.toNat ∧
      (ret = named.direction.code.toNat ↔
        directionAt [0, 1] pairedRules x.pats (16 - x.finMin) =
          directionAt [0, 1] pairedRules x.pats ((x.pats.take (16 - x.finMin)).flatten.length + 0)) := by
  obtain ⟨x, hx⟩ := paired_extracts
  exact ⟨x, hx, readDecision_direction_iff pairedCrates_padsToWord paired_builds hx pairedDfa_filled
    paired_encodes paired_small (by decide) (by decide) 7 ⟨0, 0, 0⟩ paired_stops_first⟩

/-- The loop passes user 7's bypass rule and stops at the redirect rule behind
it, and the task is told the direction of the first. -/
theorem readDecision_not_direction :
    ¬∀ {c : Crates} {e : Endian}, c.PadsToWord → ∀ {pats : List String} {d : DenseDfa} {x : Dfa}
      {arena out : List UInt8} {patIdMap : List Nat} {ms : List Match} {b : BpfDfa},
      buildDfa c pats true = .ok d → extract d = .ok x → d.Filled →
      encodeDfa c e pats arena patIdMap ms = .ok (b, out) → out.length < 2 ^ 32 →
      ∀ {s : Nat}, b.finMin ≤ s → s ≤ b.finMax → ∀ (uid : UInt32) (res : MatchRes)
        {tableOff i : Nat},
        StopsAt e (memOf out) ⟨uid, { b with start := s }, res⟩ tableOff i →
        ∃ ret m mId named,
          readDecision e (memOf out) ⟨uid, { b with start := s }, res⟩ = some (ret, m) ∧
          (memOf out).word e (b.matchIdTableOff + 4 * (tableOff + i)) = some (u32 mId) ∧
          ms[mId]? = some named ∧
          (memOf out).word e (b.uidTableOff + 4 * (tableOff + i)) = some named.uid.toNat ∧
          ret = named.direction.code.toNat := by
  intro h
  obtain ⟨x, hx⟩ := paired_extracts
  obtain ⟨ret, m, mId, named, hret, hid, hnamed, _, hdir⟩ :=
    h pairedCrates_padsToWord paired_builds hx pairedDfa_filled paired_encodes paired_small
      (by decide) (by decide) 9 ⟨0, 0, 0⟩ paired_stops_second
  have hfirst : (readDecision .little (memOf pairedArena)
      ⟨9, { pairedBpf with start := 16 }, ⟨0, 0, 0⟩⟩).map Prod.fst = some 0 := by
    decide +kernel
  have hsecond : (memOf pairedArena).word .little (pairedBpf.matchIdTableOff + 4 * (0 + 1)) =
      some 1 := by
    decide +kernel
  rw [hret] at hfirst
  have hzero : ret = 0 := Option.some.inj hfirst
  obtain ⟨hlt, _⟩ := List.getElem?_eq_some_iff.mp hnamed
  have hlt : mId < 2 := hlt
  have hone : u32 mId = 1 := Option.some.inj (hid.symm.trans hsecond)
  rw [u32_of_lt (by omega)] at hone
  subst hone
  cases Option.some.inj hnamed
  rw [hzero] at hdir
  exact absurd hdir (by decide)

end Rebpf
