import Rebpf.DecideMemory
import Mathlib.Logic.Function.Basic

namespace Rebpf

open Lib

def pageSize : Nat := 4096

def arenaSize : Nat := 2 ^ 21

def afInet : Nat := 2

def afInet6 : Nat := 10

structure TaskId where
  pid : UInt64
  time : UInt64
deriving DecidableEq, Repr

structure Task where
  id : TaskId
  exe : Option Dentry
  uid : UInt32

/-- `BpfConfig`. The buffer is `arena_buf` with its length, cut to 32 bits
where it is used. -/
structure BpfConfig where
  enable : Bool
  enableDns : Bool
  mark : UInt32
  arenaBuf : List UInt8
  hasDfa : Bool
  dfa : BpfDfa
  generation : UInt64
deriving DecidableEq, Repr

def BpfDfa.zeroed : BpfDfa := ⟨0, 0, 0, 0, 0, 0, 0, 0, 0⟩

def BpfConfig.zeroed : BpfConfig where
  enable := false
  enableDns := false
  mark := 0
  arenaBuf := []
  hasDfa := false
  dfa := .zeroed
  generation := 0

def BpfConfig.arenaBufLen (conf : BpfConfig) : Nat := u32 conf.arenaBuf.length

def BpfConfig.arenaNpages (conf : BpfConfig) : Nat :=
  u32 (conf.arenaBufLen + (pageSize - 1)) / pageSize

structure Region where
  pages : Nat
  bytes : Nat → UInt8

/-- The globals of the programs, the task cache, and the loader's `links.last_gen`. -/
structure Kernel where
  config : BpfConfig
  hasDfa : Bool
  masterDfa : BpfDfa
  base : Option Region
  basePages : Nat
  taskCache : TaskId → Option MatchRes
  lastGen : UInt64

def Kernel.init : Kernel where
  config := .zeroed
  hasDfa := false
  masterDfa := .zeroed
  base := none
  basePages := 0
  taskCache := fun _ => none
  lastGen := 0

/-- What a program reads at an offset from `BASE`: pages that are not there
read as zeros. -/
def Kernel.mem (k : Kernel) : Mem := fun a =>
  match k.base with
  | none => some 0
  | some r => some (if a < r.pages * pageSize then r.bytes a else 0)

section

/- The endianness, and the arena allocator: the pages it returns for a page
count, or no pages. -/
variable (e : Endian) (alloc : Nat → Option (Nat → UInt8))

def allocPages (pages : Nat) : Option Region := (alloc pages).map (⟨pages, ·⟩)

namespace Kernel

def getArena (k : Kernel) : Kernel :=
  if k.base.isSome then k
  else
    let basePages := if k.basePages = 0 then 1 else k.basePages
    { k with basePages, base := allocPages alloc basePages }

/-- The return value of `needs_mark_uncached` and the result it leaves in the
context. Its first read of the arena is by way of `get_arena`. -/
def needsMarkUncached (k : Kernel) (task : Task) : Int × MatchRes :=
  let m : MatchCtx := { uid := task.uid, dfa := k.masterDfa, res := ⟨0, 0, 0⟩ }
  let (ret, m) := (Rebpf.needsMarkUncached e (k.getArena alloc).mem task.exe m).getD (-1, m)
  (ret, m.res)

/-- The state `needs_mark_uncached` leaves behind: without an executable it
returns before it touches the arena. -/
def afterUncached (k : Kernel) (task : Task) : Kernel :=
  if task.exe.isSome then k.getArena alloc else k

def needsMark (k : Kernel) (task : Task) : Int × MatchRes × Kernel :=
  match k.taskCache task.id with
  | some res => (res.redirect, res, k)
  | none =>
    let (ret, res) := k.needsMarkUncached e alloc task
    let k := k.afterUncached alloc task
    if ret < 0 then (-1, res, k)
    else (res.redirect, res,
      { k with taskCache := Function.update k.taskCache task.id (some res) })

/-- The mark the hook puts on a new socket of the task, if any. -/
def cgroupSocketCreate (k : Kernel) (family : Nat) (task : Task) : Option UInt32 × Kernel :=
  if !k.config.enable then (none, k)
  else if family ≠ afInet ∧ family ≠ afInet6 then (none, k)
  else if !k.hasDfa then (none, k)
  else
    let (ret, _, k) := k.needsMark e alloc task
    if ret ≤ 0 then (none, k) else (some k.config.mark, k)

/-- Whether `refresh_sockets` reports a socket of the task to be marked. -/
def refreshSocket (k : Kernel) (family : Nat) (task : Task) : Bool × Kernel :=
  if family ≠ afInet ∧ family ≠ afInet6 then (false, k)
  else if !k.hasDfa then (false, k)
  else
    let (ret, res, k) := k.needsMark e alloc task
    if ret < 0 then (false, k) else (res.redirect != 0, k)

/-- The first half of the `reload_config` program. -/
def growArena (k : Kernel) (conf : BpfConfig) : Kernel :=
  if k.base.isNone ∨ k.basePages < conf.arenaNpages then
    { k with basePages := conf.arenaNpages, base := allocPages alloc conf.arenaNpages }
  else k

def clearCache (k : Kernel) : Kernel := { k with taskCache := fun _ => none }

/-- The end of `bpf_reload_config`: the process exits on a buffer beyond the
arena's size. -/
def copyArena (k : Kernel) (conf : BpfConfig) : Option Kernel :=
  match k.base with
  | none => some k
  | some r =>
    if conf.arenaBufLen = 0 then some k
    else if conf.arenaBufLen ≤ arenaSize then
      some { k with base := some { r with
        bytes := fun a => if a < conf.arenaBufLen then conf.arenaBuf.getD a 0 else r.bytes a } }
    else none

def bpfReloadConfig (k : Kernel) (conf : BpfConfig) : Option Kernel :=
  let k := { k with config := conf }
  let k := (k.growArena alloc conf).clearCache
  if k.lastGen = conf.generation then some k
  else
    let k := { k with lastGen := conf.generation }
    let k := { k with hasDfa := conf.hasDfa }
    let k := { k with masterDfa := conf.dfa }
    k.copyArena conf

end Kernel

end

theorem Kernel.copyArena_eq {k k' : Kernel} {conf : BpfConfig}
    (h : k.copyArena conf = some k') : ∃ base, k' = { k with base } := by
  unfold copyArena at h
  split at h
  next => cases Option.some.inj h; exact ⟨k.base, rfl⟩
  next =>
    split at h
    next => cases Option.some.inj h; exact ⟨k.base, rfl⟩
    next =>
      split at h
      next => cases Option.some.inj h; exact ⟨_, rfl⟩
      next => cases h

section

variable {alloc : Nat → Option (Nat → UInt8)} {k k' : Kernel} {conf : BpfConfig}

theorem Kernel.growArena_eq (alloc : Nat → Option (Nat → UInt8)) (k : Kernel) (conf : BpfConfig) :
    ∃ base basePages, k.growArena alloc conf = { k with base, basePages } := by
  unfold growArena
  split
  next => exact ⟨_, _, rfl⟩
  next => exact ⟨k.base, k.basePages, rfl⟩

theorem Kernel.bpfReloadConfig_same (h : k.lastGen = conf.generation) :
    k.bpfReloadConfig alloc conf =
      some (({ k with config := conf } : Kernel).growArena alloc conf).clearCache := by
  obtain ⟨base, basePages, hgrow⟩ := growArena_eq alloc { k with config := conf } conf
  unfold bpfReloadConfig
  dsimp only
  rw [hgrow]
  exact if_pos h

theorem Kernel.bpfReloadConfig_new (h : k.lastGen ≠ conf.generation) :
    k.bpfReloadConfig alloc conf =
      ({ (({ k with config := conf } : Kernel).growArena alloc conf).clearCache with
        lastGen := conf.generation
        hasDfa := conf.hasDfa
        masterDfa := conf.dfa } : Kernel).copyArena conf := by
  obtain ⟨base, basePages, hgrow⟩ := growArena_eq alloc { k with config := conf } conf
  unfold bpfReloadConfig
  dsimp only
  rw [hgrow]
  exact if_neg h

theorem Kernel.bpfReloadConfig_taskCache (h : k.bpfReloadConfig alloc conf = some k') :
    k'.taskCache = fun _ => none := by
  by_cases hgen : k.lastGen = conf.generation
  · rw [bpfReloadConfig_same hgen] at h
    cases Option.some.inj h
    rfl
  · rw [bpfReloadConfig_new hgen] at h
    obtain ⟨base, rfl⟩ := copyArena_eq h
    rfl

theorem Kernel.bpfReloadConfig_config (h : k.bpfReloadConfig alloc conf = some k') :
    k'.config = conf := by
  obtain ⟨base, basePages, hgrow⟩ := growArena_eq alloc { k with config := conf } conf
  by_cases hgen : k.lastGen = conf.generation
  · rw [bpfReloadConfig_same hgen, hgrow] at h
    cases Option.some.inj h
    rfl
  · rw [bpfReloadConfig_new hgen, hgrow] at h
    obtain ⟨base', rfl⟩ := copyArena_eq h
    rfl

end

theorem Kernel.mem_total (k : Kernel) : k.mem.Total := by
  intro a
  unfold mem
  split <;> exact ⟨_, rfl⟩

def zeroedPages (_ : Nat) : Option (Nat → UInt8) := some fun _ => 0

def slashAConf (direction : Direction) (generation : UInt64) : BpfConfig where
  enable := true
  enableDns := false
  mark := 70000
  arenaBuf := slashAArena direction 0
  hasDfa := true
  dfa := slashABpf
  generation

def slashAKernel (direction : Direction) (generation : UInt64) : Kernel where
  config := slashAConf direction generation
  hasDfa := true
  masterDfa := slashABpf
  base := some ⟨1, fun a => (slashAArena direction 0).getD a 0⟩
  basePages := 1
  taskCache := fun _ => none
  lastGen := generation

def slashATask : Task := { id := ⟨100, 5⟩, exe := some slashA, uid := 1000 }

end Rebpf
