import Rebpf.Extract
import Rebpf.Lib.Bytes
import Mathlib.Data.List.Forall2

namespace Rebpf

open Lib

/-- `struct DFA` of bpf-shared.h: where the tables lie in the arena. -/
structure BpfDfa where
  dfaOff : Nat
  start : Nat
  eoi : Nat
  finMin : Nat
  finMax : Nat
  matchSlicesOff : Nat
  redirectTableOff : Nat
  uidTableOff : Nat
  matchIdTableOff : Nat
deriving DecidableEq, Repr

/-- A value cut to 32 bits, as `as u32` and the kernel's `u32` arithmetic do. -/
def u32 (n : Nat) : Nat := n % 2 ^ 32

theorem u32_of_lt {n : Nat} (h : n < 2 ^ 32) : u32 n = n := Nat.mod_eq_of_lt h

structure Encoding where
  arena : List UInt8
  redirectTable : List UInt8
  uidTable : List UInt32
  matchIdTable : List Nat
deriving DecidableEq, Repr

def encodePat (patIdMap : List Nat) (ms : List Match) (x : Encoding) (patId : Nat) :
    Except Failure Encoding := do
  let mId ← orErr patIdMap[patId]? .panic
  let m ← orErr ms[mId]? .panic
  return { x with
    redirectTable := x.redirectTable ++ [m.direction.code]
    uidTable := x.uidTable ++ [m.uid]
    matchIdTable := x.matchIdTable ++ [mId] }

def encodePats (e : Endian) (patIdMap : List Nat) (ms : List Match) (x : Encoding)
    (pats : List Nat) : Except Failure Encoding := do
  ensure (x.uidTable.length == x.matchIdTable.length) .panic
  let y ← pats.foldlM (encodePat patIdMap ms) x
  return { y with
    arena := y.arena ++ wordBytes e x.uidTable.length ++ wordBytes e pats.length }

/-- On success the arena holds the encoded DFA after what it held before; an
error leaves the arena alone. -/
def encodeDfa (c : Crates) (e : Endian) (pats : List String) (arena : List UInt8)
    (patIdMap : List Nat) (ms : List Match) : Except Failure (BpfDfa × List UInt8) := do
  let dfa ← extractDfa c pats
  let arena := c.align arena
  let dfaOff := arena.length
  ensure (dfa.ecTable.length == 256) .panic
  let arena := c.align (arena ++ dfa.ecTable ++ dfa.trans.flatMap (wordBytes e))
  let matchSlicesOff := arena.length
  let x ← dfa.pats.foldlM (encodePats e patIdMap ms)
    { arena, redirectTable := [], uidTable := [], matchIdTable := [] }
  let redirectTableOff := x.arena.length
  let arena := x.arena ++ x.redirectTable
  let uidTableOff := arena.length
  let arena := arena ++ (x.uidTable.map (·.toNat)).flatMap (wordBytes e)
  let matchIdTableOff := arena.length
  let arena := arena ++ x.matchIdTable.flatMap (wordBytes e)
  return ({
    dfaOff := u32 dfaOff
    start := dfa.start
    eoi := dfa.eoiClass
    finMin := dfa.finMin
    finMax := dfa.finMax
    matchSlicesOff := u32 matchSlicesOff
    redirectTableOff := u32 redirectTableOff
    uidTableOff := u32 uidTableOff
    matchIdTableOff := u32 matchIdTableOff }, arena)

def resolve (patIdMap : List Nat) (ms : List Match) (patId : Nat) : Option (Nat × Match) := do
  let mId ← patIdMap[patId]?
  let m ← ms[mId]?
  return (mId, m)

def Resolves (patIdMap : List Nat) (ms : List Match) (patId : Nat) (r : Nat × Match) : Prop :=
  resolve patIdMap ms patId = some r

def slices : Nat → List (List Nat) → List Nat
  | _, [] => []
  | off, pats :: rest => off :: pats.length :: slices (off + pats.length) rest

theorem encodePat_ok {patIdMap : List Nat} {ms : List Match} {x y : Encoding} {patId : Nat}
    (h : encodePat patIdMap ms x patId = .ok y) :
    ∃ r, resolve patIdMap ms patId = some r ∧
      y = { x with redirectTable := x.redirectTable ++ [r.2.direction.code]
                   uidTable := x.uidTable ++ [r.2.uid]
                   matchIdTable := x.matchIdTable ++ [r.1] } := by
  obtain ⟨mId, hid, h⟩ := bind_eq_ok.mp h
  obtain ⟨m, hm, h⟩ := bind_eq_ok.mp h
  rw [orErr_eq_ok] at hid hm
  exact ⟨(mId, m), by simp [resolve, hid, hm], (pure_eq_ok.mp h).symm⟩

theorem encodePat_fold_ok {patIdMap : List Nat} {ms : List Match} {pats : List Nat}
    {x y : Encoding} (h : pats.foldlM (encodePat patIdMap ms) x = .ok y) :
    ∃ rs, List.Forall₂ (Resolves patIdMap ms) pats rs ∧
      y = { x with redirectTable := x.redirectTable ++ rs.map (·.2.direction.code)
                   uidTable := x.uidTable ++ rs.map (·.2.uid)
                   matchIdTable := x.matchIdTable ++ rs.map (·.1) } := by
  induction pats generalizing x with
  | nil => exact ⟨[], .nil, by simpa using (pure_eq_ok.mp h).symm⟩
  | cons p pats ih =>
    obtain ⟨mid, hm, h⟩ := foldlM_cons_ok.mp h
    obtain ⟨r, hr, rfl⟩ := encodePat_ok hm
    obtain ⟨rs, hrs, rfl⟩ := ih h
    exact ⟨r :: rs, .cons hr hrs, by simp⟩

theorem encodePats_fold_ok {e : Endian} {patIdMap : List Nat} {ms : List Match}
    {lists : List (List Nat)} {x y : Encoding}
    (h : lists.foldlM (encodePats e patIdMap ms) x = .ok y) :
    ∃ rs, List.Forall₂ (Resolves patIdMap ms) lists.flatten rs ∧
      y.arena = x.arena ++ (slices x.uidTable.length lists).flatMap (wordBytes e) ∧
      y.redirectTable = x.redirectTable ++ rs.map (·.2.direction.code) ∧
      y.uidTable = x.uidTable ++ rs.map (·.2.uid) ∧
      y.matchIdTable = x.matchIdTable ++ rs.map (·.1) := by
  induction lists generalizing x with
  | nil =>
    obtain rfl := pure_eq_ok.mp h
    exact ⟨[], .nil, by simp [slices], by simp, by simp, by simp⟩
  | cons pats lists ih =>
    obtain ⟨mid, hm, h⟩ := foldlM_cons_ok.mp h
    obtain ⟨_, _, hm⟩ := bind_eq_ok.mp hm
    obtain ⟨z, hz, hm⟩ := bind_eq_ok.mp hm
    obtain rfl := pure_eq_ok.mp hm
    obtain ⟨rs, hrs, rfl⟩ := encodePat_fold_ok hz
    obtain ⟨ss, hss, harena, hred, huid, hids⟩ := ih h
    have hlen : pats.length = rs.length := hrs.length_eq
    refine ⟨rs ++ ss, List.rel_append hrs hss, ?_, by simp [hred], by simp [huid], by simp [hids]⟩
    simp [harena, slices, hlen]

def slashAArena (direction : Direction) (uid : UInt32) : List UInt8 :=
  ((List.range 256).map fun b => slashADfa.byteClass (.ofNat b)) ++
    slashADfa.table.flatMap (wordBytes .little) ++ [0, 0, 0, 0, 1, 0, 0, 0] ++ [direction.code] ++
    wordBytes .little uid.toNat ++ [0, 0, 0, 0]

def slashABpf : BpfDfa where
  dfaOff := 0
  start := 24
  eoi := 5
  finMin := 16
  finMax := 16
  matchSlicesOff := 480
  redirectTableOff := 488
  uidTableOff := 489
  matchIdTableOff := 493

set_option maxRecDepth 4000 in
theorem slashARule_encodes {pats : List String}
    (h : buildDfa slashACrates pats true = .ok slashADfa) (direction : Direction) (uid : UInt32)
    (ids : List Nat) (ms : List Match) :
    encodeDfa slashACrates .little pats [] (0 :: ids) (slashARule direction uid :: ms) =
      .ok (slashABpf, slashAArena direction uid) := by
  rw [encodeDfa, extractDfa, h]
  rfl

end Rebpf
