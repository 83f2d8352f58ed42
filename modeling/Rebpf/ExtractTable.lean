import Rebpf.Extract

namespace Rebpf

open Lib

def DenseDfa.listed (d : DenseDfa) (s : Nat) : List Nat :=
  if d.isMatchState s then (d.matchPatterns s).getD [] else []

/-- What the loop of `extract` has gathered when it stands at `i`. -/
structure Extraction.Gathered (d : DenseDfa) (start : Nat) (x : Extraction) : Prop where
  reach : x.i ≤ x.max + d.stride
  start_le : start ≤ x.max
  inside : x.i ≤ d.table.length
  trans : x.trans = d.table.take x.i
  below : ∀ t ∈ x.trans, t ≤ x.max
  fin : x.fin = (List.range x.i).filter d.isMatchState
  pats : x.pats = ((List.range x.i).dropWhile (!d.isMatchState ·)).map d.listed
  lists : ∀ s, s < x.i → d.isMatchState s = true → d.matchPatterns s = some (d.listed s)

theorem gathered_init (d : DenseDfa) (start : Nat) :
    (Extraction.init start).Gathered d start where
  reach := by simp [Extraction.init]
  start_le := le_rfl
  inside := Nat.zero_le _
  trans := rfl
  below := by simp [Extraction.init]
  fin := rfl
  pats := rfl
  lists := by simp [Extraction.init]

theorem readPatterns_ok {d : DenseDfa} {s : Nat} {listed : Option (List Nat)}
    (h : readPatterns d s = .ok listed) :
    (listed = if d.isMatchState s then some (d.listed s) else none) ∧
      (d.isMatchState s = true → d.matchPatterns s = some (d.listed s)) := by
  unfold readPatterns at h
  by_cases hm : d.isMatchState s = true
  · simp only [hm, if_true] at h ⊢
    cases hp : d.matchPatterns s with
    | none => simp [hp, orErr, Except.map] at h
    | some ids => simpa [hp, orErr, Except.map, DenseDfa.listed, hm] using h.symm
  · simpa [hm] using h.symm

theorem extractStep_ok {d : DenseDfa} {x y : Extraction} (h : extractStep d x = .ok y) :
    ∃ next listed, d.table[x.i]? = some next ∧
      readPatterns d x.i = .ok listed ∧
      y = { i := x.i + 1
            max := Nat.max next x.max
            trans := x.trans ++ [next]
            dead := if x.i = dead then x.dead ++ [x.i] else x.dead
            fin := if listed.isSome then x.fin ++ [x.i] else x.fin
            pats := match listed with
              | some ids => x.pats ++ [ids]
              | none => if x.pats.isEmpty then x.pats else x.pats ++ [[]] } := by
  obtain ⟨_, _, h⟩ := bind_eq_ok.mp h
  obtain ⟨next, hn, h⟩ := bind_eq_ok.mp h
  obtain ⟨listed, hl, h⟩ := bind_eq_ok.mp h
  refine ⟨next, listed, ?_, hl, (pure_eq_ok.mp h).symm⟩
  simpa [DenseDfa.nextState, d.class_zero] using hn

theorem dropWhile_range_succ (d : DenseDfa) (i : Nat) :
    (List.range (i + 1)).dropWhile (!d.isMatchState ·) =
      if (List.range i).dropWhile (!d.isMatchState ·) = [] then
        (if d.isMatchState i then [i] else [])
      else (List.range i).dropWhile (!d.isMatchState ·) ++ [i] := by
  rw [List.range_succ, List.dropWhile_append]
  by_cases hi : d.isMatchState i <;> simp [hi, List.isEmpty_iff]

theorem gathered_step {d : DenseDfa} {start : Nat} {x y : Extraction}
    (inv : x.Gathered d start) (bound : x.i < x.max + d.stride)
    (h : extractStep d x = .ok y) : y.Gathered d start := by
  obtain ⟨next, listed, hn, hl, rfl⟩ := extractStep_ok h
  obtain ⟨hi, hni⟩ := List.getElem?_eq_some_iff.mp hn
  have htake : x.trans ++ [next] = d.table.take (x.i + 1) := by
    rw [inv.trans, ← hni, List.take_append_getElem]
  obtain ⟨hlisted, hread⟩ := readPatterns_ok hl
  refine ⟨?_, ?_, hi, htake, ?_, ?_, ?_, ?_⟩
  · show x.i + 1 ≤ max next x.max + d.stride
    omega
  · exact inv.start_le.trans (Nat.le_max_right _ _)
  · intro t ht
    rcases List.mem_append.mp ht with ht | ht
    · exact (inv.below t ht).trans (Nat.le_max_right _ _)
    · rw [List.mem_singleton.mp ht]
      exact Nat.le_max_left _ _
  · by_cases hm : d.isMatchState x.i = true <;>
      simp [hlisted, hm, inv.fin, List.range_succ, List.filter_append]
  · show _ = List.map _ _
    rw [dropWhile_range_succ]
    have hpats := inv.pats
    have hempty : d.isMatchState x.i ≠ true → d.listed x.i = [] := fun hm => by
      simp [DenseDfa.listed, hm]
    by_cases hm : d.isMatchState x.i = true <;>
    by_cases he : (List.range x.i).dropWhile (!d.isMatchState ·) = []
    · simp [hlisted, hpats, he, hm]
    · simp [hlisted, hpats, he, hm]
    · simp [hlisted, hpats, he, hm]
    · simp [hlisted, hpats, he, hm, hempty hm]
  · intro s hs hm
    rcases Nat.lt_succ_iff_lt_or_eq.mp hs with hs | rfl
    · exact inv.lists s hs hm
    · exact hread hm

theorem extractLoop_gathered {d : DenseDfa} {start fuel : Nat} {x y : Extraction}
    (inv : x.Gathered d start) (h : extractLoop d fuel x = .ok y) :
    y.Gathered d start ∧ y.i = y.max + d.stride := by
  induction fuel generalizing x with
  | zero => simp [extractLoop] at h
  | succ fuel ih =>
    unfold extractLoop at h
    split at h
    next bound =>
      obtain ⟨mid, hm, h⟩ := bind_eq_ok.mp h
      exact ih (gathered_step inv bound hm) h
    next bound =>
      cases h
      exact ⟨inv, by have := inv.reach; omega⟩

/-- A table of transitions that no state of it leads out of. -/
def Closed (stride : Nat) (trans : List Nat) : Prop :=
  ∀ t ∈ trans, t + stride ≤ trans.length

/-- What a successful `extract` has copied out of the library's DFA. -/
structure Extracted (d : DenseDfa) (x : Dfa) : Prop where
  start : d.start = .ok x.start
  eoi : x.eoiClass = d.eoi.val
  ecTable : x.ecTable = (List.range 256).map fun b => d.byteClass (.ofNat b)
  stride : x.stride = d.stride
  taken : x.trans = d.table.take x.trans.length
  closed : Closed d.stride x.trans
  start_inside : x.start + d.stride ≤ x.trans.length
  small : x.trans.length * stateSize ≤ dfaMaxSize
  finMin_le : x.finMin ≤ x.finMax
  finMax_lt : x.finMax < x.trans.length
  fin_iff : ∀ s, s < x.trans.length →
    ((x.finMin ≤ s ∧ s ≤ x.finMax) ↔ d.isMatchState s = true)
  pats : x.pats = (((List.range x.trans.length).dropWhile (!d.isMatchState ·)).map
    d.listed).rdropWhile List.isEmpty
  lists : ∀ s, s < x.trans.length → d.isMatchState s = true →
    d.matchPatterns s = some (d.listed s)

theorem min?_filter_range {p : Nat → Bool} {n m : Nat}
    (h : ((List.range n).filter p).min? = some m) :
    p m = true ∧ m < n ∧ ∀ s, s < n → p s = true → m ≤ s := by
  obtain ⟨hm, hle⟩ := List.min?_eq_some_iff.mp h
  obtain ⟨hr, hp⟩ := List.mem_filter.mp hm
  exact ⟨hp, List.mem_range.mp hr,
    fun s hs hps => hle s (List.mem_filter.mpr ⟨List.mem_range.mpr hs, hps⟩)⟩

theorem max?_filter_range {p : Nat → Bool} {n m : Nat}
    (h : ((List.range n).filter p).max? = some m) :
    p m = true ∧ m < n ∧ ∀ s, s < n → p s = true → s ≤ m := by
  obtain ⟨hm, hle⟩ := List.max?_eq_some_iff.mp h
  obtain ⟨hr, hp⟩ := List.mem_filter.mp hm
  exact ⟨hp, List.mem_range.mp hr,
    fun s hs hps => hle s (List.mem_filter.mpr ⟨List.mem_range.mpr hs, hps⟩)⟩

theorem extract_extracted {d : DenseDfa} {x : Dfa} (h : extract d = .ok x) : Extracted d x := by
  obtain ⟨start, hs, h⟩ := bind_eq_ok.mp h
  obtain ⟨y, hy, h⟩ := bind_eq_ok.mp h
  obtain ⟨_, hsmall, h⟩ := bind_eq_ok.mp h
  obtain ⟨finMin, hmin, h⟩ := bind_eq_ok.mp h
  obtain ⟨finMax, hmax, h⟩ := bind_eq_ok.mp h
  obtain ⟨_, hall, h⟩ := bind_eq_ok.mp h
  obtain ⟨_, _, h⟩ := bind_eq_ok.mp h
  obtain ⟨_, _, h⟩ := bind_eq_ok.mp h
  obtain rfl := pure_eq_ok.mp h
  obtain ⟨inv, hend⟩ := extractLoop_gathered (gathered_init d start) hy
  have hlen : y.trans.length = y.i := by
    rw [inv.trans, List.length_take_of_le inv.inside]
  have hstart : d.start = .ok start := mapError_eq_ok.mp hs
  rw [orErr_eq_ok, inv.fin] at hmin hmax
  obtain ⟨hpmin, _, hmin_le⟩ := min?_filter_range hmin
  obtain ⟨_, hlt, hmax_le⟩ := max?_filter_range hmax
  rw [ensure_eq_ok] at hall
  refine ⟨hstart, ?_, rfl, rfl, ?_, ?_, ?_, by simpa using hsmall, hmax_le _ ?_ hpmin, ?_, ?_, ?_, ?_⟩
  · exact Nat.mod_eq_of_lt (by have := d.eoi.isLt; omega)
  · show y.trans = d.table.take y.trans.length
    rw [hlen]
    exact inv.trans
  · intro t ht
    have := inv.below t ht
    show t + d.stride ≤ y.trans.length
    omega
  · show start + d.stride ≤ y.trans.length
    have := inv.start_le
    omega
  · omega
  · show finMax < y.trans.length
    omega
  · intro s hs
    have hsi : s < y.i := hlen ▸ hs
    constructor
    · rintro ⟨hlo, hhi⟩
      have hlo' : finMin ≤ s := hlo
      have hhi' : s ≤ finMax := hhi
      exact List.all_eq_true.mp hall s (List.mem_range'_1.mpr ⟨hlo', by omega⟩)
    · exact fun hm => ⟨hmin_le s hsi hm, hmax_le s hsi hm⟩
  · show y.pats.rdropWhile _ = _
    rw [inv.pats]
    show _ = (List.map _ (List.dropWhile _ (List.range y.trans.length))).rdropWhile _
    rw [hlen]
  · intro s hs hm
    exact inv.lists s (hlen ▸ hs) hm

theorem rdropWhile_append_all {α : Type} {p : α → Bool} {xs ys : List α}
    (h : ∀ y ∈ ys, p y = true) : (xs ++ ys).rdropWhile p = xs.rdropWhile p := by
  unfold List.rdropWhile
  rw [List.reverse_append, List.dropWhile_append_of_pos]
  exact fun y hy => h y (List.mem_reverse.mp hy)

theorem range'_split {a m b : Nat} (ham : a ≤ m) (hmb : m ≤ b) :
    List.range' a (b - a) = List.range' a (m - a) ++ List.range' m (b - m) := by
  have h := List.range'_append_1 (s := a) (m := m - a) (n := b - m)
  rw [show a + (m - a) = m by omega, show m - a + (b - m) = b - a by omega] at h
  exact h.symm

/-- With a pattern in the last list, the lists kept are those of the offsets from the
first match offset to the last. -/
theorem listed_pats {d : DenseDfa} {n finMin finMax : Nat} (hle : finMin ≤ finMax) (hlt : finMax < n)
    (fin_iff : ∀ s, s < n → ((finMin ≤ s ∧ s ≤ finMax) ↔ d.isMatchState s = true))
    (filled : d.listed finMax ≠ []) :
    (((List.range n).dropWhile (!d.isMatchState ·)).map d.listed).rdropWhile List.isEmpty =
      (List.range' finMin (finMax + 1 - finMin)).map d.listed := by
  have hmin : d.isMatchState finMin = true := (fin_iff _ (by omega)).mp ⟨le_rfl, hle⟩
  have front : List.range n = List.range finMin ++ List.range' finMin (n - finMin) := by
    simpa only [List.range_eq_range', Nat.sub_zero] using
      range'_split (Nat.zero_le finMin) (show finMin ≤ n by omega)
  have back := range'_split (a := finMin) (m := finMax + 1) (b := n) (by omega) (by omega)
  have hdrop : (List.range n).dropWhile (!d.isMatchState ·) = List.range' finMin (n - finMin) := by
    rw [front, List.dropWhile_append_of_pos]
    · obtain ⟨k, hk⟩ : ∃ k, n - finMin = k + 1 := ⟨n - finMin - 1, by omega⟩
      rw [hk, List.range'_succ, List.dropWhile_cons_of_neg (by simp [hmin])]
    · intro s hs
      have hs := List.mem_range.mp hs
      have hno := (fin_iff s (by omega)).not.mp (by omega)
      simpa using hno
  rw [hdrop, back, List.map_append, rdropWhile_append_all]
  · have hlast : List.range' finMin (finMax + 1 - finMin) =
        List.range' finMin (finMax - finMin) ++ [finMax] := by
      rw [show finMax + 1 - finMin = finMax - finMin + 1 by omega, List.range'_1_concat]
      congr 2
      omega
    rw [hlast, List.map_append, List.map_singleton, List.rdropWhile_concat_neg]
    simpa using filled
  · intro ids hids
    obtain ⟨s, hs, rfl⟩ := List.mem_map.mp hids
    have hs := List.mem_range'_1.mp hs
    have hno := (fin_iff s (by omega)).not.mp (by omega)
    simp [DenseDfa.listed, hno]

theorem listed_at {d : DenseDfa} {finMin finMax s : Nat} (hlow : finMin ≤ s) (hhigh : s ≤ finMax) :
    ((List.range' finMin (finMax + 1 - finMin)).map d.listed)[s - finMin]? = some (d.listed s) := by
  rw [List.getElem?_map, List.getElem?_range' (by omega), Option.map_some]
  congr 2
  omega

theorem Extracted.pats_eq {d : DenseDfa} {x : Dfa} (h : Extracted d x)
    (filled : ∀ s, d.isMatchState s = true → d.matchPatterns s ≠ some []) :
    x.pats = (List.range' x.finMin (x.finMax + 1 - x.finMin)).map d.listed := by
  have hlt := h.finMax_lt
  have hmax : d.isMatchState x.finMax = true := (h.fin_iff _ hlt).mp ⟨h.finMin_le, le_rfl⟩
  have hne : d.listed x.finMax ≠ [] := fun he => filled _ hmax (he ▸ h.lists _ hlt hmax)
  rw [h.pats]
  exact listed_pats h.finMin_le hlt h.fin_iff hne

theorem Extracted.pats_at {d : DenseDfa} {x : Dfa} (h : Extracted d x)
    (filled : ∀ s, d.isMatchState s = true → d.matchPatterns s ≠ some []) {s : Nat}
    (hs : s < x.trans.length) (hm : d.isMatchState s = true) :
    x.pats[s - x.finMin]? = some (d.listed s) := by
  obtain ⟨hlo, hhi⟩ := (h.fin_iff s hs).mpr hm
  rw [h.pats_eq filled]
  exact listed_at hlo hhi

end Rebpf
