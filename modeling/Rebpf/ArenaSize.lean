import Rebpf.BpfReload
import Rebpf.DecideTables
import Rebpf.Edits
import Rebpf.EncodeTotal
import Rebpf.FirstReport

namespace Rebpf

open Lib

/-- The bytes of an encoded arena: the classes, the transitions, a slice for each
offset from the first match offset to the last, and three tables with an entry
for each pattern listed at such an offset. -/
def Dfa.arenaBytes (x : Dfa) : Nat :=
  256 + 4 * x.trans.length + 8 * (x.finMax + 1 - x.finMin) + 9 * x.pats.flatten.length

/-- No match state without a pattern. -/
def DenseDfa.Filled (d : DenseDfa) : Prop :=
  ∀ s, d.isMatchState s = true → d.matchPatterns s ≠ some []

def Crates.BuildsFilled (c : Crates) : Prop :=
  ∀ config pats d, c.buildMany config pats = .ok d → d.Filled

variable {c : Crates} {e : Endian}

theorem buildDfa_filled (filled : c.BuildsFilled) {pats : List String} {reverse : Bool}
    {d : DenseDfa} (h : buildDfa c pats reverse = .ok d) : d.Filled :=
  filled _ _ d (mapError_eq_ok.mp h)

theorem extractDfa_pats_length (filled : c.BuildsFilled) {pats : List String} {x : Dfa}
    (h : extractDfa c pats = .ok x) : x.pats.length = x.finMax + 1 - x.finMin := by
  obtain ⟨d, hd, hx⟩ := bind_eq_ok.mp h
  rw [(extract_extracted hx).pats_eq (buildDfa_filled filled hd), List.length_map,
    List.length_range']

/-- Into an empty arena a DFA is encoded without padding. -/
theorem encodeDfa_length (aligned : c.PadsToWord) (filled : c.BuildsFilled) {pats : List String}
    {out : List UInt8} {patIdMap : List Nat} {ms : List Match} {b : BpfDfa}
    (h : encodeDfa c e pats [] patIdMap ms = .ok (b, out)) :
    ∃ x, extractDfa c pats = .ok x ∧ out.length = x.arenaBytes := by
  obtain ⟨L, hx, resolved, ⟨pad, hbefore, hpad, hwhole⟩, ⟨hgap, hwhole'⟩, full, rfl, _⟩ :=
    encodeDfa_layout aligned h
  refine ⟨L.dfa, hx, ?_⟩
  have chain := L.length_chain e
  have hslices : L.sliceWords.length = 2 * L.dfa.pats.length := slices_length 0 L.dfa.pats
  have hpats := extractDfa_pats_length filled hx
  have hentries := resolved.length_eq
  rw [List.nil_append] at hbefore
  rw [hbefore] at hwhole chain
  rw [Dfa.arenaBytes]
  omega

/-- The arena is small enough for the loader: so few pages can be allocated, and
the size check never ends the process. -/
structure Loadable (out : List UInt8) : Prop where
  fits : out.length ≤ arenaSize
  pages : ∀ conf : BpfConfig, conf.arenaBuf = out →
    1 ≤ conf.arenaNpages ∧ conf.arenaNpages ≤ arenaSize / pageSize
  copies : ∀ (k : Kernel) (conf : BpfConfig), conf.arenaBuf = out → (k.copyArena conf).isSome

theorem loadable_iff {out : List UInt8} (pos : 0 < out.length) :
    Loadable out ↔ out.length ≤ arenaSize := by
  refine ⟨Loadable.fits, fun fits => ⟨fits, ?_, ?_⟩⟩
  · rintro conf rfl
    have hpages := (arenaNpages_spec fits).2
    simp only [arenaSize, pageSize] at fits ⊢
    omega
  · rintro k conf rfl
    have hlen := (arenaNpages_spec fits).1
    unfold Kernel.copyArena
    split
    next => rfl
    next =>
      rw [if_neg (by omega), if_pos (by omega)]
      rfl

/-- An accepted rule fits the arena with the others exactly if their DFA, counted
with its slices and tables, does. -/
theorem tryParse_loadable_iff (aligned : c.PadsToWord) (filled : c.BuildsFilled) {ms : Matches}
    {m : Match} (process : m.isPerProcess = true) (accepted : (ms.tryParse c e m).1 = .ok ()) :
    ∃ b out x, (ms.pushed m).buildPathDfa c e [] = .ok (b, out) ∧
      extractDfa c ((pathPatterns c (ms.pushed m).entries).map (·.1)) = .ok x ∧
      (Loadable out ↔ x.arenaBytes ≤ arenaSize) := by
  obtain ⟨⟨b, out⟩, hbuild⟩ := (Matches.tryParse_path_ok c e ms process).mp accepted
  obtain ⟨x, hx, hlen⟩ := encodeDfa_length aligned filled hbuild
  refine ⟨b, out, x, hbuild, hx, ?_⟩
  rw [loadable_iff (buildPathDfa_pos aligned hbuild), hlen]

theorem slashACrates_buildsFilled : slashACrates.BuildsFilled := by
  intro config pats d hd s hs hnone
  have hd : d = slashADfa := by
    simp only [slashACrates] at hd
    split at hd
    next => exact (Except.ok.inj hd).symm
    next => cases hd
  subst hd
  obtain ⟨-, hlo, hhi⟩ := DenseDfa.isMatchState_iff.mp hs
  obtain rfl : s = 16 := Nat.le_antisymm hhi hlo
  cases hnone

set_option maxRecDepth 4000 in
theorem tryParse_loadable_iff_slashA :
    ∃ b out x, (Matches.default.pushed (slashARule .redirect 7)).buildPathDfa slashACrates
        .little [] = .ok (b, out) ∧
      extractDfa slashACrates ((pathPatterns slashACrates
        (Matches.default.pushed (slashARule .redirect 7)).entries).map (·.1)) = .ok x ∧
      (Loadable out ↔ x.arenaBytes ≤ arenaSize) :=
  tryParse_loadable_iff slashACrates_padsToWord slashACrates_buildsFilled rfl rfl

/-- The place of a byte class among the digits, the capital and the small letters. -/
def alphanumeric (c : Nat) : Option Nat :=
  if 2 ≤ c ∧ c < 12 then some (c - 2)
  else if 13 ≤ c ∧ c < 39 then some (c - 3)
  else if 40 ≤ c ∧ c < 66 then some (c - 4)
  else none

def crowdedClass (b : Nat) : Nat :=
  if b < 47 then 0
  else if b < 58 then b - 46
  else if b < 65 then 12
  else if b < 91 then b - 52
  else if b < 97 then 39
  else if b < 123 then b - 57
  else 66

theorem crowdedClass_lt (b : Nat) : crowdedClass b < 67 := by
  unfold crowdedClass
  split_ifs <;> omega

/-- The rows of the reverse DFA of the paths `/xy`, `x` a digit and `y` one of the
first `n` letters and digits: dead, quit, the match rows, the start row of a search inside a
text, those that have read the slash, both characters and `y`, and the start row. The builder
makes as many of each, in another order behind the match rows. -/
def crowdedNext (n row c : Nat) : Nat :=
  if row < 3 + 10 * n then dead
  else if row < 3 + 20 * n then if c = 67 then row - (1 + 10 * n) else dead
  else if row < 3 + 30 * n then if c = 1 then row - 10 * n else dead
  else match alphanumeric c with
    | none => dead
    | some k =>
      if row < 3 + 31 * n then
        if k < 10 then 3 + 20 * n + 10 * (row - (3 + 30 * n)) + k else dead
      else if k < n then 3 + 30 * n + k else dead

theorem crowdedNext_le {n row : Nat} (h : row ≤ 3 + 31 * n) (c : Nat) :
    crowdedNext n row c ≤ 3 + 31 * n := by
  unfold crowdedNext
  simp only [dead]
  cases alphanumeric c with
  | none =>
    dsimp only
    split_ifs <;> omega
  | some k =>
    dsimp only
    split_ifs <;> omega

def crowdedDfa (n : Nat) : DenseDfa where
  byteClass b := .ofNat (crowdedClass b.toNat)
  eoi := ⟨67, by decide⟩
  stride := 128
  table := (List.range (128 * (4 + 31 * n))).map fun k => 128 * crowdedNext n (k / 128) (k % 128)
  start := .ok (128 * (3 + 31 * n))
  minMatch := 128 * 2
  maxMatch := 128 * (1 + 10 * n)
  pats := (List.range (10 * n)).map fun i => [i]
  aligned := by
    intro t ht
    obtain ⟨k, _, rfl⟩ := List.mem_map.mp ht
    exact Nat.dvd_mul_right _ _
  start_aligned := by
    rintro s ⟨⟩
    exact Nat.dvd_mul_right _ _
  match_aligned := ⟨Nat.dvd_mul_right _ _, Nat.dvd_mul_right _ _⟩
  dead_row := by
    intro c hc
    have hrange : (List.range (128 * (4 + 31 * n)))[c]? = some c :=
      List.getElem?_range (by omega)
    have hrow : c / 128 = 0 := Nat.div_eq_of_lt hc
    have hdead : crowdedNext n 0 (c % 128) = dead := if_pos (by omega)
    rw [List.getElem?_map, hrange, Option.map_some, hrow, hdead]
    rfl
  class_zero := rfl
  class_lt b := by
    have hlt := crowdedClass_lt b.toNat
    rw [UInt8.toNat_ofNat']
    omega
  eoi_lt := by decide

variable {n : Nat}

theorem crowdedDfa_patterns {s : Nat} (h : (crowdedDfa n).isMatchState s = true) :
    ∃ k, k < 10 * n ∧ (crowdedDfa n).matchPatterns s = some [k] := by
  obtain ⟨_, hlo, hhi⟩ := DenseDfa.isMatchState_iff.mp h
  simp only [crowdedDfa] at hlo hhi
  have hk : (s - 128 * 2) / 128 < 10 * n := by omega
  refine ⟨_, hk, ?_⟩
  simp only [DenseDfa.matchPatterns, crowdedDfa, List.getElem?_map, List.getElem?_range hk,
    Option.map_some]

theorem crowdedDfa_filled : (crowdedDfa n).Filled := by
  intro s hs hnone
  obtain ⟨k, _, hk⟩ := crowdedDfa_patterns hs
  rw [hk] at hnone
  cases hnone

theorem crowdedDfa_wellFormed (pos : 0 < n) (le : n ≤ 62) :
    (crowdedDfa n).WellFormed (128 * (3 + 31 * n)) where
  start := rfl
  last := by
    simp only [crowdedDfa, List.length_map, List.length_range]
    omega
  closed := by
    intro t ht
    obtain ⟨k, hk, rfl⟩ := List.mem_map.mp ht
    have hk := List.mem_range.mp hk
    have hle := crowdedNext_le (show k / 128 ≤ 3 + 31 * n by omega) (k % 128)
    omega
  small := by
    simp only [crowdedDfa, List.length_map, List.length_range, stateSize, dfaMaxSize]
    omega
  matches_first := by
    simp only [crowdedDfa, dead]
    decide
  matches_le := by
    simp only [crowdedDfa]
    omega
  matches_inside := by
    simp only [crowdedDfa, List.length_map, List.length_range]
    omega
  listed := by
    intro s hs
    obtain ⟨k, _, hk⟩ := crowdedDfa_patterns hs
    rw [hk]
    rfl

/-- The paths in the order of the match rows. -/
def crowdedRule (i : Nat) : Match where
  pattern := .ofList ['/', .ofNat (48 + i % 10),
    .ofNat (if i / 10 < 10 then 48 + i / 10 else if i / 10 < 36 then 55 + i / 10 else 61 + i / 10)]
  kind := .path
  method := .full
  direction := .redirect
  uid := 0

def crowded (n : Nat) : Matches where
  entries := (List.range n).map crowdedRule
  generation := .ofNat n
  dnsCount := 0

def crowdedCrates (n : Nat) : Crates where
  escape := id
  buildMany _ pats := if pats = (List.range (10 * n)).map fun i =>
      "^" ++ (crowdedRule i).pattern ++ "$" then .ok (crowdedDfa n) else .error "unsupported"
  align := slashACrates.align
  parseIpNet _ := .error "invalid IP address syntax"
  parseIpv4Net _ := .error "invalid IP address syntax"

theorem crowdedRule_pattern (n i : Nat) :
    pathPattern (crowdedCrates n) (crowdedRule i) =
      some ("^" ++ (crowdedRule i).pattern ++ "$") := by
  simp [pathPattern, methodRegex, crowdedRule, crowdedCrates]

theorem pathPatterns_all {c : Crates} {ms : List Match} {f : Match → String}
    (h : ∀ m ∈ ms, pathPattern c m = some (f m)) :
    (pathPatterns c ms).map (·.1) = ms.map f ∧
      (pathPatterns c ms).map (·.2) = List.range ms.length := by
  have hall : pathPatterns c ms = ms.zipIdx.map fun r => (f r.1, r.2) := by
    refine List.filterMap_eq_map_iff_forall_eq_some.mpr fun r hr => ?_
    obtain ⟨m, i⟩ := r
    dsimp only
    rw [h m (List.fst_mem_of_mem_zipIdx hr), Option.map_some]
  constructor
  · rw [hall, List.map_map]
    show ms.zipIdx.map (f ∘ Prod.fst) = _
    rw [← List.map_map, List.zipIdx_map_fst]
  · rw [hall, List.map_map]
    show ms.zipIdx.map Prod.snd = _
    rw [List.zipIdx_map_snd, List.range_eq_range']

theorem crowdedCrates_buildMany {config : BuilderConfig} {pats : List String} {d : DenseDfa}
    (h : (crowdedCrates n).buildMany config pats = .ok d) : d = crowdedDfa n := by
  simp only [crowdedCrates] at h
  split at h
  next => exact (Except.ok.inj h).symm
  next => cases h

theorem crowdedCrates_buildsFilled : (crowdedCrates n).BuildsFilled := by
  intro config pats d h
  rw [crowdedCrates_buildMany h]
  exact crowdedDfa_filled

theorem crowdedCrates_padsToWord : (crowdedCrates n).PadsToWord := slashACrates_padsToWord

theorem crowded_extracts (pos : 0 < n) (le : n ≤ 62) :
    ∃ x, extractDfa (crowdedCrates n)
        ((pathPatterns (crowdedCrates n) (crowded (10 * n)).entries).map (·.1)) = .ok x ∧
      x.ecTable.length = 256 ∧ x.trans.length = 128 * (4 + 31 * n) ∧
      x.finMax + 1 - x.finMin = 128 * (10 * n - 1) + 1 ∧
      (∀ ids ∈ x.pats, ids.length = 1) ∧ ∀ k ∈ x.pats.flatten, k < 10 * n := by
  have wf := crowdedDfa_wellFormed pos le
  obtain ⟨x, hx, htrans, hmin, hmax⟩ := extract_succeeds wf
  have ex := extract_extracted hx
  have hpats := ex.pats_eq crowdedDfa_filled
  have hlisted : ∀ ids ∈ x.pats, ∃ k, k < 10 * n ∧ ids = [k] := by
    intro ids hids
    rw [hpats] at hids
    obtain ⟨s, hs, rfl⟩ := List.mem_map.mp hids
    have hs := List.mem_range'_1.mp hs
    have hlt := ex.finMax_lt
    have hm := (ex.fin_iff s (by omega)).mp ⟨hs.1, by omega⟩
    obtain ⟨k, hk, hids⟩ := crowdedDfa_patterns hm
    refine ⟨k, hk, ?_⟩
    rw [DenseDfa.listed, if_pos hm, hids, Option.getD_some]
  refine ⟨x, ?_, ?_, ?_, ?_, ?_, ?_⟩
  · have hbuilt : (crowdedCrates n).buildMany
        { reverse := true, shrink := true, startKind := .anchored
          dfaSizeLimit := some dfaMaxSize, accelerate := false }
        ((pathPatterns (crowdedCrates n) (crowded (10 * n)).entries).map (·.1)) =
          .ok (crowdedDfa n) := by
      rw [(pathPatterns_all (f := fun m => "^" ++ m.pattern ++ "$") ?_).1]
      · simp only [crowdedCrates, crowded, List.map_map]
        exact if_pos rfl
      · intro m hm
        obtain ⟨i, _, rfl⟩ := List.mem_map.mp hm
        exact crowdedRule_pattern n i
    exact bind_eq_ok.mpr ⟨crowdedDfa n, mapError_eq_ok.mpr hbuilt, hx⟩
  · rw [ex.ecTable, List.length_map, List.length_range]
  · rw [htrans]
    simp only [crowdedDfa, List.length_map, List.length_range]
  · rw [hmin, hmax]
    simp only [crowdedDfa]
    omega
  · intro ids hids
    obtain ⟨k, _, rfl⟩ := hlisted ids hids
    rfl
  · intro k hk
    obtain ⟨ids, hids, hk⟩ := List.mem_flatten.mp hk
    obtain ⟨j, hj, rfl⟩ := hlisted ids hids
    rw [List.mem_singleton.mp hk]
    exact hj

theorem crowded_builds (pos : 0 < n) (le : n ≤ 62) (e : Endian) :
    ∃ b out, (crowded (10 * n)).buildPathDfa (crowdedCrates n) e [] = .ok (b, out) ∧
      out.length = 256 + 4 * (128 * (4 + 31 * n)) + 17 * (128 * (10 * n - 1) + 1) := by
  obtain ⟨x, hx, full, htrans, hrange, hsingle, hlt⟩ := crowded_extracts pos le
  have hids : (pathPatterns (crowdedCrates n) (crowded (10 * n)).entries).map (·.2) =
      List.range (10 * n) := by
    rw [(pathPatterns_all (f := fun m => "^" ++ m.pattern ++ "$") ?_).2]
    · simp only [crowded, List.length_map, List.length_range]
    · intro m hm
      obtain ⟨i, _, rfl⟩ := List.mem_map.mp hm
      exact crowdedRule_pattern n i
  obtain ⟨b, out, hbuild⟩ := @encodeDfa_succeeds _ e
    ((pathPatterns (crowdedCrates n) (crowded (10 * n)).entries).map (·.2))
    (crowded (10 * n)).entries _ [] x hx full (by
      intro k hk
      have hk := hlt k hk
      rw [hids, resolve, List.getElem?_range hk]
      simp [crowded, hk])
  refine ⟨b, out, hbuild, ?_⟩
  obtain ⟨x', hx', hlen⟩ := encodeDfa_length crowdedCrates_padsToWord crowdedCrates_buildsFilled hbuild
  obtain rfl := Except.ok.inj (hx.symm.trans hx')
  have hpats := extractDfa_pats_length crowdedCrates_buildsFilled hx
  have hflat := flatten_length_single hsingle
  rw [Dfa.arenaBytes] at hlen
  omega

theorem crowded_pushed (pos : 0 < n) : ((crowded (n - 1)).pushed (crowdedRule (n - 1))).entries =
    (crowded n).entries := by
  obtain ⟨k, rfl⟩ : ∃ k, n = k + 1 := ⟨n - 1, by omega⟩
  simp only [Nat.add_sub_cancel, Matches.pushed, crowded, List.range_succ, List.map_append,
    List.map_singleton]

/-- The 620 rules are accepted one by one, the extracted table being well below
its bound, and their arena is a tenth too large. -/
theorem tryParse_not_loadable :
    ¬∀ {c : Crates} {e : Endian}, c.PadsToWord → c.BuildsFilled → ∀ {ms : Matches} {m : Match},
      m.isPerProcess = true → (ms.tryParse c e m).1 = .ok () →
        ∃ b out, (ms.pushed m).buildPathDfa c e [] = .ok (b, out) ∧ Loadable out := by
  intro h
  obtain ⟨n, hn⟩ : ∃ n, n = 62 := ⟨62, rfl⟩
  obtain ⟨b, out, hbuild, hlen⟩ := @crowded_builds n (by omega) (by omega) .little
  have hpushed : ((crowded (10 * n - 1)).pushed (crowdedRule (10 * n - 1))).buildPathDfa
      (crowdedCrates n) .little [] = .ok (b, out) := by
    unfold Matches.buildPathDfa
    rw [crowded_pushed (by omega)]
    exact hbuild
  have haccepted : ((crowded (10 * n - 1)).tryParse (crowdedCrates n) .little
      (crowdedRule (10 * n - 1))).1 = .ok () := by
    have hbuild : Matches.buildPathDfa (crowdedCrates n) .little
        { crowded (10 * n - 1) with
          entries := (crowded (10 * n - 1)).entries ++ [crowdedRule (10 * n - 1)] } [] =
        .ok (b, out) := hpushed
    simp only [Matches.tryParse, crowdedRule, Matches.tryWith] at hbuild ⊢
    rw [hbuild]
  obtain ⟨b', out', hbuild', fits, _⟩ :=
    h crowdedCrates_padsToWord crowdedCrates_buildsFilled rfl haccepted
  obtain ⟨-, rfl⟩ := Prod.mk.inj (Except.ok.inj (hpushed.symm.trans hbuild'))
  simp only [arenaSize] at fits
  omega

end Rebpf
