import Rebpf.Walk

namespace Rebpf

open Lib

structure MatchRes where
  /-- 0 for bypass, 1 for redirect. -/
  redirect : Nat
  tableOff : Nat
  tableLen : Nat
deriving DecidableEq, Repr

structure MatchCtx where
  uid : UInt32
  dfa : BpfDfa
  res : MatchRes
deriving DecidableEq, Repr

def uidApplies (entry task : UInt32) : Bool := entry == 0 || entry == task

section

variable (e : Endian) (mem : Mem)

def uidLoop (m : MatchCtx) (tableOff : Nat) : Nat → Nat → Option Bool
  | 0, _ => some false
  | rounds + 1, i => do
    let uid ← mem.word e (m.dfa.uidTableOff + 4 * u32 (tableOff + i))
    if uid = 0 ∨ uid = m.uid.toNat then some true
    else uidLoop m tableOff rounds (i + 1)

/-- The decision once the walk has ended in the state `m.dfa.start`. -/
def readDecision (m : MatchCtx) : Option (Int × MatchCtx) :=
  let this := m.dfa.start
  if this < m.dfa.finMin ∨ m.dfa.finMax < this then some (-1, m)
  else do
    let off := this - m.dfa.finMin
    let tableOff ← mem.word e (m.dfa.matchSlicesOff + 4 * u32 (off * 2))
    let tableLen ← mem.word e (m.dfa.matchSlicesOff + 4 * u32 (off * 2 + 1))
    let redirect ← mem (m.dfa.redirectTableOff + off)
    let m := { m with res := { redirect := redirect.toNat, tableOff, tableLen } }
    let hit ← uidLoop e mem m tableOff tableLen 0
    if hit then some ((m.res.redirect : Int), m) else some (-1, m)

/-- The decision for a task running `file`, computed from the arena: -1, or the
direction, with the context the caller passed in updated. -/
def needsMarkUncached (file : Option Dentry) (m : MatchCtx) : Option (Int × MatchCtx) :=
  match file with
  | none => some (-1, m)
  | some dent => do
    let (found, dfa) ← matchRegexRevPath e mem dent m.dfa
    let m := { m with dfa }
    if found = false then some (-1, m) else readDecision e mem m

end

theorem readDecision_ret {e : Endian} {mem : Mem} {m m' : MatchCtx} {ret : Int}
    (h : readDecision e mem m = some (ret, m')) : ret = -1 ∨ ret = m'.res.redirect := by
  unfold readDecision at h
  simp only at h
  split at h
  next =>
    cases Option.some.inj h
    exact Or.inl rfl
  next =>
    obtain ⟨tableOff, _, h⟩ := Option.bind_eq_some_iff.mp h
    obtain ⟨tableLen, _, h⟩ := Option.bind_eq_some_iff.mp h
    obtain ⟨redirect, _, h⟩ := Option.bind_eq_some_iff.mp h
    obtain ⟨hit, _, h⟩ := Option.bind_eq_some_iff.mp h
    split at h
    next =>
      cases Option.some.inj h
      exact Or.inr rfl
    next =>
      cases Option.some.inj h
      exact Or.inl rfl

theorem needsMarkUncached_ret {e : Endian} {mem : Mem} {file : Option Dentry} {m m' : MatchCtx}
    {ret : Int} (h : needsMarkUncached e mem file m = some (ret, m')) :
    ret = -1 ∨ ret = m'.res.redirect := by
  cases file with
  | none =>
    cases Option.some.inj h
    exact Or.inl rfl
  | some dent =>
    obtain ⟨⟨found, dfa⟩, _, h⟩ := Option.bind_eq_some_iff.mp h
    simp only at h
    split at h
    next =>
      cases Option.some.inj h
      exact Or.inl rfl
    next => exact readDecision_ret h

theorem uidLoop_eq {e : Endian} {mem : Mem} {m : MatchCtx} {tableOff i : Nat}
    {uids : List UInt32}
    (read : ∀ k uid, uids[k]? = some uid →
      mem.word e (m.dfa.uidTableOff + 4 * u32 (tableOff + (i + k))) = some uid.toNat) :
    uidLoop e mem m tableOff uids.length i = some (uids.any (uidApplies · m.uid)) := by
  induction uids generalizing i with
  | nil => rfl
  | cons uid uids ih =>
    have hhead : mem.word e (m.dfa.uidTableOff + 4 * u32 (tableOff + i)) = some uid.toNat :=
      read 0 uid rfl
    have htail := ih (i := i + 1) (fun k v hk => by
      rw [show i + 1 + k = i + (k + 1) by omega]
      exact read (k + 1) v hk)
    have happly : (uid.toNat = 0 ∨ uid.toNat = m.uid.toNat) ↔ uidApplies uid m.uid = true := by
      simp [uidApplies, ← UInt32.toNat_inj]
    simp only [List.length_cons, uidLoop, hhead, Option.bind_eq_bind, Option.bind_some, htail,
      List.any_cons]
    by_cases h : uidApplies uid m.uid = true
    · rw [if_pos (happly.mpr h), h, Bool.true_or]
    · rw [if_neg (happly.not.mpr h), eq_false_of_ne_true h, Bool.false_or]

theorem readDecision_eq {e : Endian} {mem : Mem} {m : MatchCtx} {off tableOff : Nat}
    {redirect : UInt8} {uids : List UInt32} (hoff : m.dfa.start = m.dfa.finMin + off)
    (hin : m.dfa.start ≤ m.dfa.finMax)
    (hslice : mem.word e (m.dfa.matchSlicesOff + 4 * u32 (off * 2)) = some tableOff)
    (hlen : mem.word e (m.dfa.matchSlicesOff + 4 * u32 (off * 2 + 1)) = some uids.length)
    (hredirect : mem (m.dfa.redirectTableOff + off) = some redirect)
    (huids : ∀ k uid, uids[k]? = some uid →
      mem.word e (m.dfa.uidTableOff + 4 * u32 (tableOff + (0 + k))) = some uid.toNat) :
    readDecision e mem m =
      some (if uids.any (uidApplies · m.uid) then (redirect.toNat : Int) else -1,
        { m with res := ⟨redirect.toNat, tableOff, uids.length⟩ }) := by
  have hsub : m.dfa.start - m.dfa.finMin = off := by omega
  have hno : ¬(m.dfa.start < m.dfa.finMin ∨ m.dfa.finMax < m.dfa.start) := by omega
  have hloop := uidLoop_eq (m := { m with res := ⟨redirect.toNat, tableOff, uids.length⟩ }) huids
  simp only [readDecision, if_neg hno, hsub, hslice, hlen, hredirect, Option.bind_eq_bind,
    Option.bind_some, hloop]
  split <;> rfl

end Rebpf
