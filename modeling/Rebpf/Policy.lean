import Rebpf.DecideTables
import Rebpf.FirstReport

namespace Rebpf

open Lib

def verdict : Option Match → Int
  | none => -1
  | some m => m.direction.code.toNat

/-- The decision of the list's first accepting entry, if that one applies to the uid. -/
def firstDecision (c : Crates) (accepts : Accepts) (ms : List Match) (path : List UInt8)
    (uid : UInt32) : Int :=
  verdict ((ms.find? (Match.acceptsPath c accepts path)).filter fun m => uidApplies m.uid uid)

theorem verdict_nonneg (m : Match) : 0 ≤ verdict (some m) := Int.natCast_nonneg _

theorem Layout.bytes_small {e : Endian} {L : Layout} {d : DenseDfa} {patIdMap : List Nat}
    {ms : List Match} (x : Extracted d L.dfa)
    (single : ∀ s ids, d.isMatchState s = true → d.matchPatterns s = some ids → ids.length = 1)
    (resolved : List.Forall₂ (Resolves patIdMap ms) L.dfa.pats.flatten L.entries)
    (before : L.before.length < 4) (gap : L.gap.length < 4)
    (full : L.dfa.ecTable.length = 256) : (L.bytes e).length < 2 ^ 32 := by
  have chain := L.length_chain e
  have hslices : L.sliceWords.length = 2 * L.dfa.pats.length := slices_length 0 _
  have hflat := flatten_length_single (x.pats_single single)
  have hlen := resolved.length_eq
  have hpats : L.dfa.pats.length = L.dfa.finMax + 1 - L.dfa.finMin := by
    rw [x.pats_eq (filled_of_single single), List.length_map, List.length_range']
  have hmax := x.finMax_lt
  have hsmall := x.small
  simp only [stateSize, dfaMaxSize] at hsmall
  omega

theorem Layout.ruleSlice_single {L : Layout} {patIdMap : List Nat} {ms : List Match}
    (resolved : List.Forall₂ (Resolves patIdMap ms) L.dfa.pats.flatten L.entries)
    (single : ∀ ids ∈ L.dfa.pats, ids.length = 1) {off k : Nat}
    (hk : L.dfa.pats[off]? = some [k]) :
    ∃ r, L.entries[off]? = some r ∧ Resolves patIdMap ms k r ∧ L.ruleSlice off = [r] := by
  obtain ⟨hlt, _⟩ := List.getElem?_eq_some_iff.mp hk
  have hoff : L.sliceOff off = off := by
    rw [sliceOff, flatten_length_single (fun l hl => single l (List.mem_of_mem_take hl)),
      List.length_take_of_le (Nat.le_of_lt hlt)]
  have hflat := flatten_at hk (i := 0) (by simp)
  rw [← sliceOff, hoff, Nat.add_zero] at hflat
  obtain ⟨r, hr, hres⟩ := forall₂_at resolved hflat
  refine ⟨r, hr, hres, ?_⟩
  obtain ⟨hrlt, hrv⟩ := List.getElem?_eq_some_iff.mp hr
  rw [ruleSlice, hoff, hk, List.drop_eq_getElem_cons hrlt, hrv]
  rfl

/-- The kernel's decision under a compiled rule list is that of the first entry
that accepts the path. -/
theorem needsMarkUncached_firstDecision {c : Crates} {e : Endian} {accepts : Accepts}
    (aligned : c.PadsToWord) (first : c.LeftmostFirst accepts) {ms : Matches} {b : BpfDfa}
    {out : List UInt8} (built : ms.buildPathDfa c e [] = .ok (b, out)) {exe : Dentry}
    (fit : exe.WithinLimits) (uid : UInt32) (res : MatchRes) :
    ∃ m, needsMarkUncached e (memOf out) (some exe) ⟨uid, b, res⟩ =
      some (firstDecision c accepts ms.entries exe.path uid, m) := by
  obtain ⟨L, hx, resolved, ⟨pad, hbefore, hpad, _⟩, ⟨hgap, _⟩, full, rfl, rfl⟩ :=
    encodeDfa_layout aligned built
  obtain ⟨d, hd, hx⟩ := bind_eq_ok.mp hx
  have rf := buildDfa_reportsFirst first hd
  have x := extract_extracted hx
  have small : (L.bytes e).length < 2 ^ 32 :=
    L.bytes_small x rf.single resolved (by simpa [hbefore] using hpad) hgap full
  obtain ⟨t, ret, b', hr, hin, hsearch, hret, hb⟩ := L.path_run x full small fit
  have hstride := d.stride_pos
  by_cases hm : d.isMatchState t = true
  · obtain ⟨k, p, hk, hp, hacc, hbelow⟩ := rf.reports exe.path t hsearch hm
    obtain ⟨hlo, hhi⟩ := (x.fin_iff t (by omega)).mpr hm
    have hpats := x.pats_at (filled_of_single rf.single) (show t < L.dfa.trans.length by omega) hm
    rw [Option.some.inj ((x.lists t (by omega) hm).symm.trans hk)] at hpats
    obtain ⟨r, hr', hres, hslice⟩ :=
      L.ruleSlice_single resolved (x.pats_single rf.single) hpats
    have hfound := pathPatterns_first hp hacc hbelow hres
    have hdecide := L.readDecision (e := e) (m := ⟨uid, b', res⟩) small resolved
      (by rw [hb (hret.trans hm), Nat.add_sub_cancel' hlo]) (by omega) hpats hr'
    have hpath : needsMarkUncached e (memOf (L.bytes e)) (some exe) ⟨uid, L.bpf e, res⟩ =
        readDecision e (memOf (L.bytes e)) ⟨uid, b', res⟩ := by
      simp [needsMarkUncached, hr, hret.trans hm]
    rw [hpath, hdecide, hslice, firstDecision, hfound]
    by_cases hq : uidApplies r.2.uid uid = true <;> simp [hq, Option.filter, verdict]
  · have hnone : ms.entries.find? (Match.acceptsPath c accepts exe.path) = none := by
      rw [List.find?_eq_none]
      intro m hmem hacc
      obtain ⟨s, hs, hms⟩ := rf.finds exe.path (acceptsPath_iff_pattern.mp ⟨m, hmem, hacc⟩)
      exact hm (Option.some.inj (hsearch.symm.trans hs) ▸ hms)
    have hfalse : ret = false := hret.trans (Bool.eq_false_iff.mpr hm)
    refine ⟨⟨uid, b', res⟩, ?_⟩
    simp [needsMarkUncached, hr, hfalse, firstDecision, hnone, verdict]

end Rebpf
