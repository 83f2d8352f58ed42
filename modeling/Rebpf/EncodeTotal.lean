import Rebpf.Encode
import Rebpf.ExtractLoop

namespace Rebpf

open Lib

/-- A DFA whose states are the rows of its table, the start state being the
last, and whose match rows all list their patterns. -/
structure DenseDfa.WellFormed (d : DenseDfa) (first : Nat) : Prop where
  start : d.start = .ok first
  last : first + d.stride = d.table.length
  closed : ∀ t ∈ d.table, t ≤ first
  small : d.table.length * stateSize ≤ dfaMaxSize
  matches_first : d.minMatch ≠ dead
  matches_le : d.minMatch ≤ d.maxMatch
  matches_inside : d.maxMatch < d.table.length
  listed : ∀ s, d.isMatchState s = true → (d.matchPatterns s).isSome

/-- A DFA within the size limit whose rows all lie in its table and whose match
rows all list their patterns, as the library builds them. -/
structure DenseDfa.Valid (d : DenseDfa) : Prop where
  start : ∃ first, d.start = .ok first ∧ first + d.stride ≤ d.table.length
  closed : Closed d.stride d.table
  small : d.table.length * stateSize ≤ dfaMaxSize
  listed : ∀ s, d.isMatchState s = true → (d.matchPatterns s).isSome

variable {d : DenseDfa} {first : Nat}

theorem DenseDfa.WellFormed.valid (wf : d.WellFormed first) : d.Valid where
  start := ⟨first, wf.start, Nat.le_of_eq wf.last⟩
  closed t ht := by
    have hlast := wf.last
    have hle := wf.closed t ht
    omega
  small := wf.small
  listed := wf.listed

theorem DenseDfa.Valid.bounded (valid : d.Valid) : d.Bounded where
  closed := valid.closed
  ids := by
    have hsmall := valid.small
    simp only [stateSize, dfaMaxSize] at hsmall
    simp only [stateIdMax]
    omega
  listed := valid.listed

/-- The loop of `extract` ends, with the rows it has met copied. -/
theorem extractLoop_ends (valid : d.Valid) : ∃ start y, d.start = .ok start ∧
    extractLoop d (d.table.length + 1) (.init start) = .ok y ∧ y.Gathered d start ∧
      y.i = y.max + d.stride ∧ y.dead = [dead] := by
  obtain ⟨start, hstart, hinside⟩ := valid.start
  obtain ⟨y, hy, inv, hend, hdead⟩ := valid.bounded.loop_ends hinside
  exact ⟨start, y, hstart, hy, inv, hend, hdead⟩

/-- With a match state among the rows met, `extract` succeeds. -/
theorem extract_of_match (valid : d.Valid) {start : Nat} {y : Extraction}
    (hstart : d.start = .ok start)
    (hy : extractLoop d (d.table.length + 1) (.init start) = .ok y)
    (inv : y.Gathered d start) (hend : y.i = y.max + d.stride) (hdead : y.dead = [dead])
    {s : Nat} (hs : s < y.i) (hm : d.isMatchState s = true) :
    ∃ x, extract d = .ok x ∧ x.trans = y.trans := by
  have hfin : s ∈ y.fin := by
    rw [inv.fin]
    exact List.mem_filter.mpr ⟨List.mem_range.mpr hs, hm⟩
  obtain ⟨finMin, hfinMin⟩ := Option.isSome_iff_exists.mp (List.isSome_min?_of_mem hfin)
  obtain ⟨finMax, hfinMax⟩ := Option.isSome_iff_exists.mp (List.isSome_max?_of_mem hfin)
  obtain ⟨hp, _, _⟩ := min?_filter_range (inv.fin ▸ hfinMin)
  obtain ⟨hp', _, _⟩ := max?_filter_range (inv.fin ▸ hfinMax)
  obtain ⟨hne, hlow, _⟩ := DenseDfa.isMatchState_iff.mp hp
  obtain ⟨_, _, hhigh⟩ := DenseDfa.isMatchState_iff.mp hp'
  have hlen : y.trans.length = y.i := by
    rw [inv.trans, List.length_take_of_le inv.inside]
  have hsmall : decide (y.trans.length * stateSize ≤ dfaMaxSize) = true := by
    have hinside := inv.inside
    have hlimit := valid.small
    simp only [stateSize] at hlimit ⊢
    refine decide_eq_true ?_
    omega
  have hrange : (List.range' finMin (finMax + 1 - finMin)).all d.isMatchState = true := by
    refine List.all_eq_true.mpr fun t ht => ?_
    have ht := List.mem_range'_1.mp ht
    exact DenseDfa.isMatchState_iff.mpr ⟨hne, by omega, by omega⟩
  have hrow : ((List.range d.stride).all fun i => y.trans[i]? == some 0) = true := by
    refine List.all_eq_true.mpr fun i hi => ?_
    have hi := List.mem_range.mp hi
    rw [inv.trans, List.getElem?_take_of_lt (by omega), d.dead_row i hi]
    rfl
  have hdeads : (y.dead == [dead]) = true := by
    rw [hdead]
    rfl
  unfold extract
  simp only [hstart, Except.mapError, bind, Except.bind, hy, ensure, hsmall, orErr, hfinMin,
    hfinMax, hrange, hrow, hdeads, if_true, pure, Except.pure]
  exact ⟨_, rfl, rfl⟩

/-- `extract` takes over the whole table and the whole match range of every
well-formed DFA. -/
theorem extract_succeeds (wf : d.WellFormed first) :
    ∃ x, extract d = .ok x ∧ x.trans = d.table ∧ x.finMin = d.minMatch ∧
      x.finMax = d.maxMatch := by
  obtain ⟨start, y, hstart, hy, inv, hend, hdead⟩ := extractLoop_ends wf.valid
  obtain rfl : first = start := Except.ok.inj (wf.start.symm.trans hstart)
  have hlast := wf.last
  have hle := wf.matches_le
  have hlt := wf.matches_inside
  have hfirst := inv.start_le
  have hinside := inv.inside
  have hall : y.i = d.table.length := by omega
  have hmin : d.isMatchState d.minMatch = true :=
    DenseDfa.isMatchState_iff.mpr ⟨wf.matches_first, Nat.le_refl _, hle⟩
  have hmax : d.isMatchState d.maxMatch = true :=
    DenseDfa.isMatchState_iff.mpr ⟨wf.matches_first, hle, Nat.le_refl _⟩
  obtain ⟨x, hx, htrans⟩ := extract_of_match wf.valid hstart hy inv hend hdead (by omega) hmin
  rw [inv.trans, hall, List.take_length] at htrans
  have extracted := extract_extracted hx
  have hlen : x.trans.length = d.table.length := by rw [htrans]
  have hfinMin := (extracted.fin_iff d.minMatch (by omega)).mpr hmin
  have hfinMax := (extracted.fin_iff d.maxMatch (by omega)).mpr hmax
  have hlow := (extracted.fin_iff x.finMin (by omega)).mp ⟨Nat.le_refl _, extracted.finMin_le⟩
  have hhigh := (extracted.fin_iff x.finMax extracted.finMax_lt).mp
    ⟨extracted.finMin_le, Nat.le_refl _⟩
  obtain ⟨_, hlow, _⟩ := DenseDfa.isMatchState_iff.mp hlow
  obtain ⟨_, _, hhigh⟩ := DenseDfa.isMatchState_iff.mp hhigh
  exact ⟨x, hx, htrans, by omega, by omega⟩

section

variable {c : Crates} {e : Endian} {patIdMap : List Nat} {ms : List Match}

theorem encodePat_succeeds {x : Encoding} {patId : Nat}
    (h : (resolve patIdMap ms patId).isSome) (even : x.uidTable.length = x.matchIdTable.length) :
    ∃ y, encodePat patIdMap ms x patId = .ok y ∧ y.uidTable.length = y.matchIdTable.length := by
  obtain ⟨⟨mId, m⟩, hres⟩ := Option.isSome_iff_exists.mp h
  obtain ⟨id, hid, hres⟩ := Option.bind_eq_some_iff.mp hres
  obtain ⟨m', hm, hres⟩ := Option.bind_eq_some_iff.mp hres
  refine ⟨_, bind_eq_ok.mpr ⟨id, orErr_eq_ok.mpr hid,
    bind_eq_ok.mpr ⟨m', orErr_eq_ok.mpr hm, rfl⟩⟩, ?_⟩
  simp only [List.length_append, List.length_singleton]
  omega

theorem encodePat_fold_succeeds {x : Encoding} {pats : List Nat}
    (h : ∀ k ∈ pats, (resolve patIdMap ms k).isSome)
    (even : x.uidTable.length = x.matchIdTable.length) :
    ∃ y, pats.foldlM (encodePat patIdMap ms) x = .ok y ∧
      y.uidTable.length = y.matchIdTable.length := by
  induction pats generalizing x with
  | nil => exact ⟨x, rfl, even⟩
  | cons k pats ih =>
    obtain ⟨y, hy, heven⟩ := encodePat_succeeds (h k List.mem_cons_self) even
    obtain ⟨z, hz, heven⟩ := ih (fun k hk => h k (List.mem_cons_of_mem _ hk)) heven
    exact ⟨z, foldlM_cons_ok.mpr ⟨y, hy, hz⟩, heven⟩

theorem encodePats_fold_succeeds {x : Encoding} {lists : List (List Nat)}
    (h : ∀ k ∈ lists.flatten, (resolve patIdMap ms k).isSome)
    (even : x.uidTable.length = x.matchIdTable.length) :
    ∃ y, lists.foldlM (encodePats e patIdMap ms) x = .ok y := by
  induction lists generalizing x with
  | nil => exact ⟨x, rfl⟩
  | cons pats lists ih =>
    rw [List.flatten_cons] at h
    obtain ⟨y, hy, heven⟩ := encodePat_fold_succeeds
      (fun k hk => h k (List.mem_append_left _ hk)) even
    obtain ⟨z, hz⟩ := @ih { y with
      arena := y.arena ++ wordBytes e x.uidTable.length ++ wordBytes e pats.length }
      (fun k hk => h k (List.mem_append_right _ hk)) heven
    refine ⟨z, foldlM_cons_ok.mpr ⟨_, ?_, hz⟩⟩
    exact bind_eq_ok.mpr ⟨(), ensure_eq_ok.mpr (by simpa using even), bind_eq_ok.mpr ⟨y, hy, rfl⟩⟩

theorem encodeDfa_succeeds {pats : List String} {arena : List UInt8} {x : Dfa}
    (hx : extractDfa c pats = .ok x) (full : x.ecTable.length = 256)
    (h : ∀ k ∈ x.pats.flatten, (resolve patIdMap ms k).isSome) :
    ∃ b out, encodeDfa c e pats arena patIdMap ms = .ok (b, out) := by
  obtain ⟨y, hy⟩ := @encodePats_fold_succeeds e patIdMap ms
    { arena := c.align (c.align arena ++ x.ecTable ++ x.trans.flatMap (wordBytes e))
      redirectTable := [], uidTable := [], matchIdTable := [] } x.pats h rfl
  exact ⟨_, _, bind_eq_ok.mpr ⟨x, hx, bind_eq_ok.mpr
    ⟨(), ensure_eq_ok.mpr (by simpa using full), bind_eq_ok.mpr ⟨y, hy, rfl⟩⟩⟩⟩

end

end Rebpf
