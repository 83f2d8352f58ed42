import Rebpf.Decide

namespace Rebpf

open Lib

section

variable {e : Endian} {small big : Mem} (ext : big.Extends small)

include ext

theorem matchRegexRevLoop_extends {dfa : BpfDfa} {bytes : List UInt8} {s t : Nat}
    (h : matchRegexRevLoop e small dfa bytes s = some t) :
    matchRegexRevLoop e big dfa bytes s = some t := by
  induction bytes generalizing s with
  | nil => exact h
  | cons b bytes ih =>
    unfold matchRegexRevLoop at h ⊢
    split
    next hd => rwa [if_pos hd] at h
    next hd =>
      rw [if_neg hd] at h
      obtain ⟨cls, hc, h⟩ := Option.bind_eq_some_iff.mp h
      obtain ⟨next, hn, h⟩ := Option.bind_eq_some_iff.mp h
      simp only [ext _ _ hc, ext.word hn, Option.bind_eq_bind, Option.bind_some]
      exact ih h

theorem matchRegexRev_extends {input : List UInt8} {dfa : BpfDfa} {r : Bool × BpfDfa}
    (h : matchRegexRev e small input dfa = some r) :
    matchRegexRev e big input dfa = some r := by
  unfold matchRegexRev at h ⊢
  split
  next hl => rwa [if_pos hl] at h
  next hl =>
    rw [if_neg hl] at h
    obtain ⟨t, ht, h⟩ := Option.bind_eq_some_iff.mp h
    simp only [matchRegexRevLoop_extends ext ht, Option.bind_eq_bind, Option.bind_some]
    exact h

theorem matchRegexRevFin_extends {dfa : BpfDfa} {r : Bool × BpfDfa}
    (h : matchRegexRevFin e small dfa = some r) : matchRegexRevFin e big dfa = some r := by
  unfold matchRegexRevFin at h ⊢
  split
  next hd => rwa [if_pos hd] at h
  next hd =>
    rw [if_neg hd] at h
    obtain ⟨t, ht, h⟩ := Option.bind_eq_some_iff.mp h
    simp only [ext.word ht, Option.bind_eq_bind, Option.bind_some]
    exact h

theorem matchRegexRevPathLoop_extends {rounds : Nat} {dent : Dentry} {dfa : BpfDfa}
    {r : Bool × BpfDfa} (h : matchRegexRevPathLoop e small rounds dent dfa = some r) :
    matchRegexRevPathLoop e big rounds dent dfa = some r := by
  induction rounds generalizing dent dfa with
  | zero => exact matchRegexRevFin_extends ext h
  | succ rounds ih =>
    unfold matchRegexRevPathLoop at h ⊢
    split
    next hn => rw [if_pos hn] at h; exact matchRegexRevFin_extends ext h
    next hn =>
      rw [if_neg hn] at h
      obtain ⟨⟨go, dfa⟩, hgo, h⟩ := Option.bind_eq_some_iff.mp h
      simp only [matchRegexRev_extends ext hgo, Option.bind_eq_bind, Option.bind_some]
      split
      next hf => simp only [if_pos hf] at h; exact h
      next hf =>
        simp only [if_neg hf] at h
        obtain ⟨⟨go, dfa⟩, hgo, h⟩ := Option.bind_eq_some_iff.mp h
        simp only [matchRegexRev_extends ext hgo, Option.bind_some]
        split
        next hf => simp only [if_pos hf] at h; exact h
        next hf =>
          simp only [if_neg hf] at h
          cases dent with
          | root name => exact matchRegexRevFin_extends ext h
          | child name parent => exact ih h

theorem uidLoop_extends {m : MatchCtx} {tableOff rounds i : Nat} {r : Bool}
    (h : uidLoop e small m tableOff rounds i = some r) :
    uidLoop e big m tableOff rounds i = some r := by
  induction rounds generalizing i with
  | zero => exact h
  | succ rounds ih =>
    unfold uidLoop at h ⊢
    obtain ⟨uid, hu, h⟩ := Option.bind_eq_some_iff.mp h
    simp only [ext.word hu, Option.bind_eq_bind, Option.bind_some]
    split
    next hf => rwa [if_pos hf] at h
    next hf =>
      rw [if_neg hf] at h
      exact ih h

theorem readDecision_extends {m : MatchCtx} {r : Int × MatchCtx}
    (h : readDecision e small m = some r) : readDecision e big m = some r := by
  unfold readDecision at h ⊢
  simp only at h ⊢
  split
  next hf => rwa [if_pos hf] at h
  next hf =>
    rw [if_neg hf] at h
    obtain ⟨tableOff, ho, h⟩ := Option.bind_eq_some_iff.mp h
    obtain ⟨tableLen, hl, h⟩ := Option.bind_eq_some_iff.mp h
    obtain ⟨redirect, hr, h⟩ := Option.bind_eq_some_iff.mp h
    obtain ⟨hit, hh, h⟩ := Option.bind_eq_some_iff.mp h
    simp only [ext.word ho, ext.word hl, ext _ _ hr, uidLoop_extends ext hh, Option.bind_eq_bind,
      Option.bind_some]
    exact h

/-- A decision that stays inside a memory is the same in any larger one. -/
theorem needsMarkUncached_extends {file : Option Dentry} {m : MatchCtx} {r : Int × MatchCtx}
    (h : needsMarkUncached e small file m = some r) :
    needsMarkUncached e big file m = some r := by
  cases file with
  | none => exact h
  | some dent =>
    obtain ⟨⟨found, dfa⟩, hf, h⟩ := Option.bind_eq_some_iff.mp h
    have hf' := matchRegexRevPathLoop_extends ext hf
    show (matchRegexRevPathLoop e big pathMax dent m.dfa).bind _ = some r
    rw [hf', Option.bind_some]
    simp only at h ⊢
    split
    next hn => rwa [if_pos hn] at h
    next hn =>
      rw [if_neg hn] at h
      exact readDecision_extends ext h

end

section

variable {e : Endian} {mem : Mem} (total : mem.Total)

include total

theorem matchRegexRevLoop_total (dfa : BpfDfa) (bytes : List UInt8) (s : Nat) :
    ∃ t, matchRegexRevLoop e mem dfa bytes s = some t := by
  induction bytes generalizing s with
  | nil => exact ⟨s, rfl⟩
  | cons b bytes ih =>
    unfold matchRegexRevLoop
    split
    next => exact ⟨s, rfl⟩
    next =>
      obtain ⟨cls, hc⟩ := total (dfa.dfaOff + b.toNat)
      obtain ⟨next, hn⟩ := total.word e (dfa.dfaOff + 256 + 4 * u32 (s + cls.toNat))
      simp only [hc, hn, Option.bind_eq_bind, Option.bind_some]
      exact ih next

theorem matchRegexRev_total (input : List UInt8) (dfa : BpfDfa) :
    ∃ r, matchRegexRev e mem input dfa = some r := by
  unfold matchRegexRev
  split
  next => exact ⟨_, rfl⟩
  next =>
    obtain ⟨t, ht⟩ := matchRegexRevLoop_total total dfa input.reverse dfa.start
    exact ⟨_, by rw [ht]; rfl⟩

theorem matchRegexRevFin_total (dfa : BpfDfa) : ∃ r, matchRegexRevFin e mem dfa = some r := by
  unfold matchRegexRevFin
  split
  next => exact ⟨_, rfl⟩
  next =>
    obtain ⟨t, ht⟩ := total.word e (dfa.dfaOff + 256 + 4 * u32 (dfa.start + dfa.eoi))
    exact ⟨_, by rw [ht]; rfl⟩

theorem matchRegexRevPathLoop_total (rounds : Nat) (dent : Dentry) (dfa : BpfDfa) :
    ∃ r, matchRegexRevPathLoop e mem rounds dent dfa = some r := by
  induction rounds generalizing dent dfa with
  | zero => exact matchRegexRevFin_total total dfa
  | succ rounds ih =>
    unfold matchRegexRevPathLoop
    split
    next => exact matchRegexRevFin_total total dfa
    next =>
      obtain ⟨⟨go, dfa⟩, hgo⟩ := matchRegexRev_total (e := e) total dent.name dfa
      simp only [hgo, Option.bind_eq_bind, Option.bind_some]
      split
      next => exact ⟨_, rfl⟩
      next =>
        obtain ⟨⟨go, dfa⟩, hgo⟩ := matchRegexRev_total (e := e) total [slash] dfa
        simp only [hgo, Option.bind_some]
        split
        next => exact ⟨_, rfl⟩
        next =>
          cases dent with
          | root name => exact matchRegexRevFin_total total dfa
          | child name parent => exact ih parent dfa

theorem uidLoop_total (m : MatchCtx) (tableOff rounds i : Nat) :
    ∃ r, uidLoop e mem m tableOff rounds i = some r := by
  induction rounds generalizing i with
  | zero => exact ⟨_, rfl⟩
  | succ rounds ih =>
    unfold uidLoop
    obtain ⟨uid, hu⟩ := total.word e (m.dfa.uidTableOff + 4 * u32 (tableOff + i))
    simp only [hu, Option.bind_eq_bind, Option.bind_some]
    split
    next => exact ⟨_, rfl⟩
    next => exact ih (i + 1)

theorem readDecision_total (m : MatchCtx) : ∃ r, readDecision e mem m = some r := by
  unfold readDecision
  simp only
  split
  next => exact ⟨_, rfl⟩
  next =>
    obtain ⟨tableOff, ho⟩ := total.word e
      (m.dfa.matchSlicesOff + 4 * u32 ((m.dfa.start - m.dfa.finMin) * 2))
    obtain ⟨tableLen, hl⟩ := total.word e
      (m.dfa.matchSlicesOff + 4 * u32 ((m.dfa.start - m.dfa.finMin) * 2 + 1))
    obtain ⟨redirect, hr⟩ := total (m.dfa.redirectTableOff + (m.dfa.start - m.dfa.finMin))
    obtain ⟨hit, hh⟩ := uidLoop_total (e := e) total
      { m with res := ⟨redirect.toNat, tableOff, tableLen⟩ } tableOff tableLen 0
    simp only [ho, hl, hr, hh, Option.bind_eq_bind, Option.bind_some]
    split <;> exact ⟨_, rfl⟩

/-- In a memory without holes there is always a decision. -/
theorem needsMarkUncached_total (file : Option Dentry) (m : MatchCtx) :
    ∃ r, needsMarkUncached e mem file m = some r := by
  cases file with
  | none => exact ⟨_, rfl⟩
  | some dent =>
    obtain ⟨⟨found, dfa⟩, hf⟩ := matchRegexRevPathLoop_total (e := e) total pathMax dent m.dfa
    show ∃ r, (matchRegexRevPathLoop e mem pathMax dent m.dfa).bind _ = some r
    rw [hf, Option.bind_some]
    simp only
    split
    next => exact ⟨_, rfl⟩
    next => exact readDecision_total total _

end

end Rebpf
