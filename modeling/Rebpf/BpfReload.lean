import Rebpf.KernelHooks
import Rebpf.Matches
import Rebpf.ArenaLayout

namespace Rebpf

open Lib

/-- What `bpf_reload` keeps from one reload to the next. -/
structure BpfCtx where
  lastGen : UInt64
  arena : List UInt8
deriving DecidableEq, Repr

def BpfCtx.init : BpfCtx := { lastGen := 0, arena := [] }

section

variable (c : Crates) (e : Endian) (alloc : Nat → Option (Nat → UInt8))

/-- The first half of `bpf_reload`: the DFA is built again when the generation
has changed. The daemon does not survive a panic. -/
def rebuild (ctx : BpfCtx) (ms : Matches) (bpf : BpfConfig) : Option (BpfCtx × BpfConfig) :=
  if ctx.lastGen = bpf.generation then some (ctx, bpf)
  else
    let ctx := { ctx with lastGen := bpf.generation, arena := [] }
    match ms.buildPathDfa c e ctx.arena with
    | .ok (dfa, arena) => some ({ ctx with arena }, { bpf with hasDfa := true, dfa })
    | .error (.err _) => some (ctx, bpf)
    | .error .panic => none

def bpfReload (ctx : BpfCtx) (ms : Matches) (enable : Bool) (mark : UInt32) (k : Kernel) :
    Option (BpfCtx × Kernel) := do
  let bpf : BpfConfig := { BpfConfig.zeroed with
    enable
    enableDns := enable && decide (0 < ms.dnsCount)
    mark
    generation := ms.generation }
  let (ctx, bpf) ← rebuild c e ctx ms bpf
  let k ← k.bpfReloadConfig alloc { bpf with arenaBuf := ctx.arena }
  return (ctx, k)

end

/-- The bytes a buffer was copied to at `BASE`. -/
def Kernel.Holds (k : Kernel) (out : List UInt8) : Prop :=
  ∃ r, k.base = some r ∧ out.length ≤ r.pages * pageSize ∧
    ∀ i b, out[i]? = some b → r.bytes i = b

variable {c : Crates} {e : Endian} {alloc : Nat → Option (Nat → UInt8)}

section

variable {k : Kernel} {conf : BpfConfig}

theorem arenaNpages_spec (h : conf.arenaBuf.length ≤ arenaSize) :
    conf.arenaBufLen = conf.arenaBuf.length ∧
      conf.arenaNpages = (conf.arenaBuf.length + 4095) / 4096 := by
  have hlen : conf.arenaBufLen = conf.arenaBuf.length := by
    rw [BpfConfig.arenaBufLen, u32_of_lt]
    simp only [arenaSize] at h
    omega
  refine ⟨hlen, ?_⟩
  rw [BpfConfig.arenaNpages, hlen, u32_of_lt]
  · rfl
  · simp only [arenaSize, pageSize] at h ⊢
    omega

theorem growArena_pages (alloc : Nat → Option (Nat → UInt8)) (conf : BpfConfig)
    (h : ∀ r, k.base = some r → r.pages = k.basePages) :
    ∀ r, (k.growArena alloc conf).base = some r →
      r.pages = (k.growArena alloc conf).basePages := by
  unfold Kernel.growArena
  split
  next =>
    intro r hr
    obtain ⟨bytes, _, rfl⟩ := Option.map_eq_some_iff.mp hr
    rfl
  next => exact h

theorem growArena_of_fits {r : Region} (hr : k.base = some r) (h : conf.arenaNpages ≤ k.basePages) :
    k.growArena alloc conf = k := by
  have hno : ¬(k.base.isNone ∨ k.basePages < conf.arenaNpages) := by
    simp [hr]
    omega
  rw [Kernel.growArena, if_neg hno]

theorem growArena_holds (allocs : ∀ n, 1 ≤ n → n ≤ 512 → ∃ bytes, alloc n = some bytes)
    (h : ∀ r, k.base = some r → r.pages = k.basePages) (pos : 0 < conf.arenaBuf.length)
    (fits : conf.arenaBuf.length ≤ arenaSize) :
    ∃ r, (k.growArena alloc conf).base = some r ∧
      conf.arenaBuf.length ≤ r.pages * pageSize := by
  have hpages := (arenaNpages_spec fits).2
  simp only [arenaSize] at fits
  unfold Kernel.growArena
  split
  next =>
    obtain ⟨bytes, hbytes⟩ := allocs conf.arenaNpages (by omega) (by omega)
    refine ⟨⟨conf.arenaNpages, bytes⟩, by simp [allocPages, hbytes], ?_⟩
    simp only [pageSize]
    omega
  next hno =>
    obtain ⟨hsome, hle⟩ := not_or.mp hno
    obtain ⟨r, hr⟩ := Option.ne_none_iff_exists'.mp (by simpa using hsome : k.base ≠ none)
    refine ⟨r, hr, ?_⟩
    rw [h r hr]
    simp only [pageSize]
    omega

end

theorem copyArena_holds {k : Kernel} {conf : BpfConfig} {r : Region} (hr : k.base = some r)
    (fits : conf.arenaBuf.length ≤ arenaSize) (pos : 0 < conf.arenaBuf.length)
    (room : conf.arenaBuf.length ≤ r.pages * pageSize) :
    ∃ base, k.copyArena conf = some { k with base := some base } ∧ base.pages = r.pages ∧
      ({ k with base := some base } : Kernel).Holds conf.arenaBuf := by
  have hlen := (arenaNpages_spec fits).1
  let bytes := fun a => if a < conf.arenaBufLen then conf.arenaBuf.getD a 0 else r.bytes a
  refine ⟨{ r with bytes }, ?_, rfl, _, rfl, room, ?_⟩
  · unfold Kernel.copyArena
    rw [hr]
    dsimp only
    rw [if_neg (by omega), if_pos (by omega)]
  · intro i b hb
    obtain ⟨hi, _⟩ := List.getElem?_eq_some_iff.mp hb
    show (if i < conf.arenaBufLen then conf.arenaBuf.getD i 0 else r.bytes i) = b
    rw [if_pos (by omega), List.getD_eq_getElem?_getD, hb]
    rfl

theorem copyArena_empty {k : Kernel} {conf : BpfConfig} (h : conf.arenaBuf = []) :
    k.copyArena conf = some k := by
  unfold Kernel.copyArena
  split
  next => rfl
  next => rw [if_pos (by simp [BpfConfig.arenaBufLen, h, u32])]

/-- What a reload at another generation leaves in the kernel. -/
structure Kernel.Took (k : Kernel) (conf : BpfConfig) : Prop where
  lastGen : k.lastGen = conf.generation
  hasDfa : k.hasDfa = conf.hasDfa
  masterDfa : k.masterDfa = conf.dfa
  pages : ∀ r, k.base = some r → r.pages = k.basePages

theorem Kernel.bpfReloadConfig_empty {k k' : Kernel} {conf : BpfConfig}
    (hnew : k.lastGen ≠ conf.generation) (pages : ∀ r, k.base = some r → r.pages = k.basePages)
    (hbuf : conf.arenaBuf = []) (h : k.bpfReloadConfig alloc conf = some k') : k'.Took conf := by
  have hpages := growArena_pages alloc conf (k := { k with config := conf }) pages
  obtain ⟨base, basePages, hgrow⟩ := Kernel.growArena_eq alloc { k with config := conf } conf
  rw [Kernel.bpfReloadConfig_new hnew, copyArena_empty hbuf, hgrow] at h
  rw [hgrow] at hpages
  cases Option.some.inj h
  exact ⟨rfl, rfl, rfl, hpages⟩

theorem Kernel.bpfReloadConfig_holds (allocs : ∀ n, 1 ≤ n → n ≤ 512 → ∃ bytes, alloc n = some bytes)
    {k k' : Kernel} {conf : BpfConfig} (hnew : k.lastGen ≠ conf.generation)
    (pages : ∀ r, k.base = some r → r.pages = k.basePages) (pos : 0 < conf.arenaBuf.length)
    (fits : conf.arenaBuf.length ≤ arenaSize) (h : k.bpfReloadConfig alloc conf = some k') :
    k'.Took conf ∧ k'.Holds conf.arenaBuf := by
  have hpages := growArena_pages alloc conf (k := { k with config := conf }) pages
  obtain ⟨region, hregion, hroom⟩ :=
    growArena_holds allocs (k := { k with config := conf }) pages pos fits
  obtain ⟨base, basePages, hgrow⟩ := Kernel.growArena_eq alloc { k with config := conf } conf
  rw [Kernel.bpfReloadConfig_new hnew, hgrow] at h
  rw [hgrow] at hregion hpages
  obtain ⟨base', hcopy, hsize, hholds⟩ := copyArena_holds (k := { k with
    config := conf, base, basePages, taskCache := fun _ => none, lastGen := conf.generation,
    hasDfa := conf.hasDfa, masterDfa := conf.dfa }) hregion fits pos hroom
  cases Option.some.inj (hcopy.symm.trans h)
  refine ⟨⟨rfl, rfl, rfl, fun r hr => ?_⟩, hholds⟩
  cases Option.some.inj hr
  exact hsize.trans (hpages region hregion)

/-- What a reload hands to the loader, and what it has built for it. -/
structure Reloaded (c : Crates) (e : Endian) (ms : Matches) (enable : Bool) (mark : UInt32)
    (ctx ctx' : BpfCtx) (conf : BpfConfig) : Prop where
  enable : conf.enable = enable
  enableDns : conf.enableDns = (conf.enable && decide (0 < ms.dnsCount))
  mark : conf.mark = mark
  generation : conf.generation = ms.generation
  arenaBuf : conf.arenaBuf = ctx'.arena
  built : (ctx.lastGen = ms.generation ∧ ctx' = ctx) ∨
    (ctx.lastGen ≠ ms.generation ∧ ctx'.lastGen = ms.generation ∧
      ((ms.buildPathDfa c e [] = .ok (conf.dfa, ctx'.arena) ∧ conf.hasDfa = true) ∨
        (∃ msg, ms.buildPathDfa c e [] = .error (.err msg)) ∧ ctx'.arena = [] ∧
          conf.hasDfa = false))

theorem bpfReload_some {ctx ctx' : BpfCtx} {ms : Matches} {enable : Bool} {mark : UInt32}
    {k k' : Kernel} (h : bpfReload c e alloc ctx ms enable mark k = some (ctx', k')) :
    ∃ conf, Reloaded c e ms enable mark ctx ctx' conf ∧
      k.bpfReloadConfig alloc conf = some k' := by
  obtain ⟨⟨ctx₁, bpf⟩, hbuild, h⟩ := Option.bind_eq_some_iff.mp h
  obtain ⟨k₁, hk, h⟩ := Option.bind_eq_some_iff.mp h
  cases Option.some.inj h
  refine ⟨_, ?_, hk⟩
  unfold rebuild at hbuild
  split at hbuild
  next hgen =>
    cases Option.some.inj hbuild
    exact ⟨rfl, rfl, rfl, rfl, rfl, Or.inl ⟨hgen, rfl⟩⟩
  next hgen =>
    dsimp only at hbuild
    split at hbuild
    next dfa arena hb =>
      cases Option.some.inj hbuild
      exact ⟨rfl, rfl, rfl, rfl, rfl, Or.inr ⟨hgen, rfl, Or.inl ⟨hb, rfl⟩⟩⟩
    next msg hb =>
      cases Option.some.inj hbuild
      exact ⟨rfl, rfl, rfl, rfl, rfl, Or.inr ⟨hgen, rfl, Or.inr ⟨⟨msg, hb⟩, rfl, rfl⟩⟩⟩
    next => cases hbuild

theorem buildPathDfa_pos (aligned : c.PadsToWord) {ms : Matches} {b : BpfDfa} {out : List UInt8}
    (h : ms.buildPathDfa c e [] = .ok (b, out)) : 0 < out.length := by
  obtain ⟨L, _, _, _, _, full, rfl, _⟩ := encodeDfa_layout aligned h
  have chain := L.length_chain e
  omega

end Rebpf
