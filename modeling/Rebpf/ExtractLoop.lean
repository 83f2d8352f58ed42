import Rebpf.ExtractTable

namespace Rebpf

open Lib

/-- A DFA whose rows all lie in its table, whose offsets all are state ids, and whose
match rows all list their patterns. -/
structure DenseDfa.Bounded (d : DenseDfa) : Prop where
  closed : Closed d.stride d.table
  ids : d.table.length ≤ stateIdMax + 1
  listed : ∀ s, d.isMatchState s = true → (d.matchPatterns s).isSome

variable {d : DenseDfa}

theorem readPatterns_succeeds (bounded : d.Bounded) (s : Nat) :
    ∃ listed, readPatterns d s = .ok listed := by
  unfold readPatterns
  split
  next hm =>
    obtain ⟨ids, hids⟩ := Option.isSome_iff_exists.mp (bounded.listed s hm)
    refine ⟨some ids, ?_⟩
    rw [hids]
    rfl
  next => exact ⟨none, rfl⟩

theorem extractStep_succeeds (bounded : d.Bounded) {x : Extraction}
    (hi : x.i < d.table.length) : ∃ y, extractStep d x = .ok y := by
  obtain ⟨listed, hlisted⟩ := readPatterns_succeeds bounded x.i
  have hids := bounded.ids
  have hid : decide (x.i ≤ stateIdMax) = true := decide_eq_true (by omega)
  have hnext : d.nextState x.i 0 = some d.table[x.i] := by
    simp [DenseDfa.nextState, d.class_zero, hi]
  cases hstep : extractStep d x with
  | ok y => exact ⟨y, rfl⟩
  | error f =>
    simp [extractStep, ensure, orErr, hid, hnext, hlisted, bind, Except.bind, pure,
      Except.pure] at hstep

/-- As no entry leads out of the table, the loop does not run beyond it. -/
theorem extractLoop_succeeds (bounded : d.Bounded) {fuel : Nat} {x : Extraction}
    (hmax : x.max + d.stride ≤ d.table.length) (hi : x.i ≤ d.table.length)
    (hdead : x.dead = if x.i = dead then [] else [dead]) (enough : d.table.length < x.i + fuel) :
    ∃ y, extractLoop d fuel x = .ok y ∧ y.dead = if y.i = dead then [] else [dead] := by
  induction fuel generalizing x with
  | zero => omega
  | succ fuel ih =>
    unfold extractLoop
    split
    next bound =>
      have hlt : x.i < d.table.length := by omega
      obtain ⟨y, hy⟩ := extractStep_succeeds bounded hlt
      obtain ⟨next, listed, hnext, _, rfl⟩ := extractStep_ok hy
      have hle := bounded.closed next (List.mem_of_getElem? hnext)
      rw [hy]
      refine ih ?_ hlt ?_ (by dsimp only; omega)
      · show max next x.max + d.stride ≤ d.table.length
        omega
      · have hnext : ¬x.i + 1 = dead := Nat.succ_ne_zero x.i
        dsimp only
        rw [if_neg hnext, hdead]
        by_cases hfirst : x.i = dead
        · rw [if_pos hfirst, if_pos hfirst, hfirst, List.nil_append]
        · rw [if_neg hfirst, if_neg hfirst]
    next bound => exact ⟨x, rfl, hdead⟩

/-- The loop of `extract` ends, with the rows it has met copied. -/
theorem DenseDfa.Bounded.loop_ends (bounded : d.Bounded) {start : Nat}
    (inside : start + d.stride ≤ d.table.length) :
    ∃ y, extractLoop d (d.table.length + 1) (.init start) = .ok y ∧ y.Gathered d start ∧
      y.i = y.max + d.stride ∧ y.dead = [dead] := by
  have hstride := d.stride_pos
  have hfuel : d.table.length < (Extraction.init start).i + (d.table.length + 1) := by
    simp only [Extraction.init]
    omega
  obtain ⟨y, hy, hdead⟩ := extractLoop_succeeds bounded inside (Nat.zero_le _) rfl hfuel
  obtain ⟨inv, hend⟩ := extractLoop_gathered (gathered_init d start) hy
  have hi : ¬y.i = dead := by
    simp only [dead]
    omega
  rw [if_neg hi] at hdead
  exact ⟨y, hy, inv, hend, hdead⟩

theorem aligned_inside {s n : Nat} (hs : d.stride ∣ s) (hn : d.stride ∣ n) (hlt : s < n) :
    s + d.stride ≤ n := by
  have hle := Nat.le_of_dvd (by omega) (Nat.dvd_sub hn hs)
  omega

/-- An offset in the match range has the patterns of its row. -/
theorem matchPatterns_row {s : Nat} (hm : d.isMatchState s = true) :
    ∃ row, d.stride ∣ row ∧ d.isMatchState row = true ∧
      d.matchPatterns s = d.matchPatterns row := by
  obtain ⟨hne, hlow, hhigh⟩ := DenseDfa.isMatchState_iff.mp hm
  have hrow := Nat.mul_div_le (s - d.minMatch) d.stride
  refine ⟨d.minMatch + d.stride * ((s - d.minMatch) / d.stride), ?_, ?_, ?_⟩
  · exact Nat.dvd_add d.match_aligned.1 (Nat.dvd_mul_right _ _)
  · exact DenseDfa.isMatchState_iff.mpr ⟨hne, by omega, by omega⟩
  · simp only [DenseDfa.matchPatterns, Nat.add_sub_cancel_left, Nat.mul_div_cancel_left _ d.stride_pos]

theorem bounded_of_rows (rows : d.stride ∣ d.table.length)
    (entries : ∀ t ∈ d.table, t < d.table.length) (ids : d.table.length ≤ stateIdMax + 1)
    (listing : ∀ s, d.isMatchState s = true → ∃ listed ≠ [], d.matchPatterns s = some listed) :
    d.Bounded where
  closed t ht := aligned_inside (d.aligned t ht) rows (entries t ht)
  ids := ids
  listed s hm := by
    obtain ⟨listed, _, hlisted⟩ := listing s hm
    rw [hlisted]
    rfl

/-- The match offsets met are those from the first to the last, as match states are
contiguous. -/
theorem fin_between {n finMin finMax : Nat}
    (hmin : ((List.range n).filter d.isMatchState).min? = some finMin)
    (hmax : ((List.range n).filter d.isMatchState).max? = some finMax) :
    finMin ≤ finMax ∧ finMax < n ∧
      ∀ s, s < n → ((finMin ≤ s ∧ s ≤ finMax) ↔ d.isMatchState s = true) := by
  obtain ⟨hpmin, hltmin, hle⟩ := min?_filter_range hmin
  obtain ⟨hpmax, hltmax, hge⟩ := max?_filter_range hmax
  obtain ⟨hne, hlow, _⟩ := DenseDfa.isMatchState_iff.mp hpmin
  obtain ⟨_, _, hhigh⟩ := DenseDfa.isMatchState_iff.mp hpmax
  refine ⟨hge _ hltmin hpmin, hltmax, fun s hs => ⟨fun hbetween => ?_, fun hm => ?_⟩⟩
  · exact DenseDfa.isMatchState_iff.mpr ⟨hne, by omega, by omega⟩
  · exact ⟨hle s hs hm, hge s hs hm⟩

/-- With a match offset met, the lists kept are those from the first to the last. -/
theorem Extraction.Gathered.trimmed {start s : Nat} {y : Extraction} (inv : y.Gathered d start)
    (filled : ∀ s, d.isMatchState s = true → d.matchPatterns s ≠ some []) (hs : s < y.i)
    (hm : d.isMatchState s = true) :
    ∃ finMin finMax, y.fin.min? = some finMin ∧ y.fin.max? = some finMax ∧ finMin ≤ finMax ∧
      (∀ s, s < y.i → d.isMatchState s = true → finMin ≤ s ∧ s ≤ finMax) ∧
      y.pats.rdropWhile List.isEmpty =
        (List.range' finMin (finMax + 1 - finMin)).map d.listed := by
  have hfin : s ∈ y.fin := by
    rw [inv.fin]
    exact List.mem_filter.mpr ⟨List.mem_range.mpr hs, hm⟩
  obtain ⟨finMin, hmin⟩ := Option.isSome_iff_exists.mp (List.isSome_min?_of_mem hfin)
  obtain ⟨finMax, hmax⟩ := Option.isSome_iff_exists.mp (List.isSome_max?_of_mem hfin)
  obtain ⟨hle, hlt, fin_iff⟩ := fin_between (inv.fin ▸ hmin) (inv.fin ▸ hmax)
  have hlast := (fin_iff finMax hlt).mp ⟨hle, le_rfl⟩
  have hne : d.listed finMax ≠ [] := fun he =>
    filled _ hlast (he ▸ inv.lists _ hlt hlast)
  refine ⟨finMin, finMax, hmin, hmax, hle, fun s hs hm => (fin_iff s hs).mpr hm, ?_⟩
  rw [inv.pats]
  exact listed_pats hle hlt fin_iff hne

/-- The loop of `extract` ends with a part of the table that holds the start state's row,
that its greatest entry's row ends and that no entry leads out of, and keeps the lists of
the match states in it. -/
theorem extractLoop_closed {start : Nat} (hstart : d.start = .ok start)
    (inside : start < d.table.length) (rows : d.stride ∣ d.table.length)
    (entries : ∀ t ∈ d.table, t < d.table.length) (ids : d.table.length ≤ stateIdMax + 1)
    (listing : ∀ s, d.stride ∣ s → d.isMatchState s = true →
      ∃ listed ≠ [], d.matchPatterns s = some listed) :
    ∃ y, extractLoop d (d.table.length + 1) (.init start) = .ok y ∧ y.trans <+: d.table ∧
      start + d.stride ≤ y.trans.length ∧ y.trans.length = y.max + d.stride ∧
      (∀ t ∈ y.trans, t + d.stride ≤ y.trans.length) ∧
      ((∃ s < y.trans.length, d.isMatchState s = true) →
        ∃ finMin finMax, y.fin.min? = some finMin ∧ y.fin.max? = some finMax ∧
          (y.pats.rdropWhile List.isEmpty).length = finMax - finMin + 1 ∧
          ∀ s < y.trans.length, d.stride ∣ s → d.isMatchState s = true →
            (y.pats.rdropWhile List.isEmpty)[s - finMin]? = d.matchPatterns s) := by
  have listing' : ∀ s, d.isMatchState s = true → ∃ listed ≠ [], d.matchPatterns s = some listed := by
    intro s hm
    obtain ⟨row, haligned, hrow, hsame⟩ := matchPatterns_row hm
    exact hsame ▸ listing row haligned hrow
  have filled : ∀ s, d.isMatchState s = true → d.matchPatterns s ≠ some [] := by
    intro s hm hnil
    obtain ⟨listed, hne, hlisted⟩ := listing' s hm
    exact hne (Option.some.inj (hlisted.symm.trans hnil))
  obtain ⟨y, hy, inv, hend, _⟩ := (bounded_of_rows rows entries ids listing').loop_ends
    (aligned_inside (d.start_aligned start hstart) rows inside)
  have hlength : y.trans.length = y.i := by rw [inv.trans, List.length_take_of_le inv.inside]
  have htotal : y.trans.length = y.max + d.stride := hlength.trans hend
  refine ⟨y, hy, inv.trans ▸ List.take_prefix _ _, ?_, htotal, fun t ht => ?_, ?_⟩
  · rw [htotal]
    exact Nat.add_le_add_right inv.start_le _
  · rw [htotal]
    exact Nat.add_le_add_right (inv.below t ht) _
  · rintro ⟨s, hs, hm⟩
    obtain ⟨finMin, finMax, hmin, hmax, hle, between, hpats⟩ := inv.trimmed filled (hlength ▸ hs) hm
    refine ⟨finMin, finMax, hmin, hmax, ?_, fun s hs _ hm => ?_⟩
    · rw [hpats, List.length_map, List.length_range']
      omega
    · obtain ⟨hlow, hhigh⟩ := between s (hlength ▸ hs) hm
      rw [hpats, listed_at hlow hhigh, inv.lists s (hlength ▸ hs) hm]

theorem extractLoop_closed_slashADfa :
    ∃ y, extractLoop slashADfa 57 (.init 24) = .ok y ∧ y.trans <+: slashADfa.table ∧
      24 + 8 ≤ y.trans.length ∧ y.trans.length = y.max + 8 ∧
      (∀ t ∈ y.trans, t + 8 ≤ y.trans.length) ∧
      ((∃ s < y.trans.length, slashADfa.isMatchState s = true) →
        ∃ finMin finMax, y.fin.min? = some finMin ∧ y.fin.max? = some finMax ∧
          (y.pats.rdropWhile List.isEmpty).length = finMax - finMin + 1 ∧
          ∀ s < y.trans.length, 8 ∣ s → slashADfa.isMatchState s = true →
            (y.pats.rdropWhile List.isEmpty)[s - finMin]? = slashADfa.matchPatterns s) :=
  extractLoop_closed rfl (by decide) (by decide) (by decide) (by decide) fun s _ hm => by
    obtain ⟨_, hlow, hhigh⟩ := DenseDfa.isMatchState_iff.mp hm
    have hs : s = 16 := Nat.le_antisymm hhigh hlow
    exact ⟨[0], by decide, hs ▸ rfl⟩

end Rebpf
