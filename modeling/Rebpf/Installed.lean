import Rebpf.BpfReload
import Rebpf.Edits
import Rebpf.Lib.Run

namespace Rebpf

open Lib

/-- The DFA of no patterns accepts nothing, so it has no match states. -/
def Crates.NothingFromNone (c : Crates) : Prop :=
  ∀ config d, c.buildMany config [] = .ok d → ∀ s, d.isMatchState s = false

section

variable (c : Crates) (e : Endian) (alloc : Nat → Option (Nat → UInt8))

structure Service where
  ms : Matches
  ctx : BpfCtx
  kernel : Kernel

inductive Edit
  | add (new : Match)
  | replace (old new : Match)
  | del (m : Match)
deriving DecidableEq, Repr

def Edit.apply (ms : Matches) : Edit → Outcome
  | .add new => ms.add c e new
  | .replace old new => ms.replace c e old new
  | .del m => ms.del c e m

/-- Whatever else of the configuration changes reaches a reload as its arguments. -/
inductive ServiceEvent
  | edit (edit : Edit)
  | reload (enable : Bool) (mark : UInt32)
  | socket (family : Nat) (task : Task)

def Service.step (s : Service) : ServiceEvent → Option Service
  | .edit edit =>
    match edit.apply c e s.ms with
    | (.error .panic, _) => none
    | (_, ms) => some { s with ms }
  | .reload enable mark => do
    let (ctx, kernel) ← bpfReload c e alloc s.ctx s.ms enable mark s.kernel
    return { s with ctx, kernel }
  | .socket family task =>
    some { s with kernel := (s.kernel.cgroupSocketCreate e alloc family task).2 }

def Service.Room (s : Service) : ServiceEvent → Prop
  | .reload _ _ => ∀ b out, s.ms.buildPathDfa c e [] = .ok (b, out) → out.length ≤ arenaSize
  | _ => True

/-- Neither that, nor does an edit wrap the generation. -/
def Service.Fits (s : Service) (event : ServiceEvent) : Prop :=
  s.Room c e event ∧ ∀ edit, event = .edit edit → (edit.apply c e s.ms).1 = .ok () →
    s.ms.generation.toNat + 1 < 2 ^ 64

end

structure Service.Started (s : Service) : Prop where
  generation : s.ms.generation = 0 → s.ms.entries = []
  ctx : s.ctx = .init
  kernel : s.kernel = .init

/-- The kernel runs what the list compiles to, or nothing if it does not compile. -/
inductive Service.Installed (c : Crates) (e : Endian) (s : Service) : Prop
  | built {b out} : s.ms.buildPathDfa c e [] = .ok (b, out) → s.kernel.hasDfa = true →
      s.kernel.masterDfa = b → s.kernel.Holds out → s.ctx.arena = out →
      out.length ≤ arenaSize → Service.Installed c e s
  | failed {f} : s.ms.buildPathDfa c e [] = .error f → s.kernel.hasDfa = false →
      Service.Installed c e s

structure Service.Inv (c : Crates) (e : Endian) (s : Service) : Prop where
  sameGen : s.ctx.lastGen = s.kernel.lastGen
  notAhead : s.ctx.lastGen.toNat ≤ s.ms.generation.toNat
  pages : ∀ r, s.kernel.base = some r → r.pages = s.kernel.basePages
  installed : s.ctx.lastGen = s.ms.generation → s.Installed c e

variable {c : Crates} {e : Endian} {alloc : Nat → Option (Nat → UInt8)}

theorem Edit.apply_cases (edit : Edit) (ms : Matches) :
    (∃ msg, edit.apply c e ms = (.error (.err msg), ms)) ∨
      (∃ ms', edit.apply c e ms = (.error .panic, ms')) ∨
      ∃ ms', edit.apply c e ms = (.ok (), ms') ∧ ms'.generation = ms.generation + 1 := by
  cases edit with
  | add new =>
    obtain ⟨msg, h⟩ | ⟨_, h⟩ | ⟨_, h⟩ := Matches.add_cases c e ms new
    · exact Or.inl ⟨msg, h⟩
    · exact Or.inr (Or.inl ⟨_, h⟩)
    · exact Or.inr (Or.inr ⟨_, h, rfl⟩)
  | replace old new =>
    obtain ⟨msg, h⟩ | ⟨_, _, _, h⟩ | ⟨_, _, _, h⟩ := Matches.replace_cases c e ms old new
    · exact Or.inl ⟨msg, h⟩
    · exact Or.inr (Or.inl ⟨_, h⟩)
    · exact Or.inr (Or.inr ⟨_, h, rfl⟩)
  | del m =>
    obtain ⟨msg, h⟩ | ⟨_, h⟩ | ⟨_, _, _, _, h⟩ := Matches.del_cases c e ms m
    · exact Or.inl ⟨msg, h⟩
    · exact Or.inr (Or.inl ⟨_, h⟩)
    · exact Or.inr (Or.inr ⟨_, h, rfl⟩)

theorem buildPathDfa_empty (nothing : c.NothingFromNone) {ms : Matches} (h : ms.entries = []) :
    ∃ f, ms.buildPathDfa c e [] = .error f := by
  cases hb : ms.buildPathDfa c e [] with
  | error f => exact ⟨f, rfl⟩
  | ok r =>
    rw [Matches.buildPathDfa, h] at hb
    obtain ⟨x, hx, _⟩ := bind_eq_ok.mp hb
    obtain ⟨d, hd, hx⟩ := bind_eq_ok.mp hx
    have ex := extract_extracted hx
    have hm := (ex.fin_iff x.finMin (Nat.lt_of_le_of_lt ex.finMin_le ex.finMax_lt)).mp
      ⟨Nat.le_refl _, ex.finMin_le⟩
    rw [nothing _ d (mapError_eq_ok.mp hd)] at hm
    cases hm

variable {s t : Service}

theorem Service.Installed.reload_same {conf : BpfConfig} {k' : Kernel} (h : s.Installed c e)
    (hpages : ∀ r, s.kernel.base = some r → r.pages = s.kernel.basePages)
    (hbuf : conf.arenaBuf = s.ctx.arena) (hgen : s.kernel.lastGen = conf.generation)
    (hk : s.kernel.bpfReloadConfig alloc conf = some k') :
    Service.Installed c e { s with kernel := k' } := by
  rw [Kernel.bpfReloadConfig_same hgen] at hk
  cases Option.some.inj hk
  cases h with
  | built hb hd hm hholds harena hfits =>
    obtain ⟨r, hr, hlen, hbytes⟩ := hholds
    have hsame : ({ s.kernel with config := conf } : Kernel).growArena alloc conf =
        { s.kernel with config := conf } := by
      refine growArena_of_fits hr ?_
      rw [← harena, ← hbuf] at hlen hfits
      rw [(arenaNpages_spec hfits).2]
      have hp := hpages r hr
      simp only [pageSize] at hlen
      show _ ≤ s.kernel.basePages
      omega
    rw [hsame]
    exact .built hb hd hm ⟨r, hr, hlen, hbytes⟩ harena hfits
  | failed hb hd =>
    obtain ⟨base, basePages, hgrow⟩ :=
      Kernel.growArena_eq alloc { s.kernel with config := conf } conf
    rw [hgrow]
    exact .failed hb hd

theorem Service.Inv.reload (aligned : c.PadsToWord)
    (allocs : ∀ n, 1 ≤ n → n ≤ 512 → ∃ bytes, alloc n = some bytes) {enable : Bool}
    {mark : UInt32} (h : s.Inv c e) (ok : s.Room c e (.reload enable mark))
    (step : s.step c e alloc (.reload enable mark) = some t) :
    t.Inv c e ∧ t.Installed c e := by
  obtain ⟨⟨ctx', k'⟩, hreload, hstep⟩ := Option.bind_eq_some_iff.mp step
  cases Option.some.inj hstep
  obtain ⟨conf, r, hk⟩ := bpfReload_some hreload
  obtain ⟨hgen, rfl⟩ | ⟨hgen, hgen', hbuilt⟩ := r.built
  · have hsame : s.kernel.lastGen = conf.generation :=
      h.sameGen.symm.trans (hgen.trans r.generation.symm)
    have hinst := (h.installed hgen).reload_same h.pages r.arenaBuf hsame hk
    have hpages := growArena_pages alloc conf (k := { s.kernel with config := conf }) h.pages
    obtain ⟨base, basePages, hgrow⟩ :=
      Kernel.growArena_eq alloc { s.kernel with config := conf } conf
    rw [Kernel.bpfReloadConfig_same hsame] at hk
    cases Option.some.inj hk
    refine ⟨⟨?_, h.notAhead, hpages, fun _ => hinst⟩, hinst⟩
    rw [hgrow]
    exact h.sameGen
  · have hnew : s.kernel.lastGen ≠ conf.generation := by
      rw [← h.sameGen, r.generation]
      exact hgen
    have notAhead : ctx'.lastGen.toNat ≤ s.ms.generation.toNat := by rw [hgen']
    obtain ⟨hb, hd⟩ | ⟨⟨msg, hb⟩, harena, hd⟩ := hbuilt
    · have hpos := buildPathDfa_pos aligned hb
      have hfits := ok _ _ hb
      rw [← r.arenaBuf] at hpos hfits
      obtain ⟨took, hholds⟩ := Kernel.bpfReloadConfig_holds allocs hnew h.pages hpos hfits hk
      rw [r.arenaBuf] at hholds hfits
      have hinst : Service.Installed c e { s with ctx := ctx', kernel := k' } :=
        .built hb (took.hasDfa.trans hd) took.masterDfa hholds rfl hfits
      exact ⟨⟨hgen'.trans (r.generation.symm.trans took.lastGen.symm), notAhead, took.pages,
        fun _ => hinst⟩, hinst⟩
    · have took := Kernel.bpfReloadConfig_empty hnew h.pages (r.arenaBuf.trans harena) hk
      have hinst : Service.Installed c e { s with ctx := ctx', kernel := k' } :=
        .failed hb (took.hasDfa.trans hd)
      exact ⟨⟨hgen'.trans (r.generation.symm.trans took.lastGen.symm), notAhead, took.pages,
        fun _ => hinst⟩, hinst⟩

theorem Service.Started.inv (nothing : c.NothingFromNone) (h : s.Started) : s.Inv c e := by
  refine ⟨by rw [h.ctx, h.kernel]; rfl, by rw [h.ctx]; exact Nat.zero_le _, ?_, fun hgen => ?_⟩
  · intro r hr
    rw [h.kernel] at hr
    cases hr
  · rw [h.ctx] at hgen
    obtain ⟨f, hf⟩ := buildPathDfa_empty (e := e) nothing (h.generation hgen.symm)
    exact .failed hf (by rw [h.kernel]; rfl)

theorem Service.inv_step (aligned : c.PadsToWord)
    (allocs : ∀ n, 1 ≤ n → n ≤ 512 → ∃ bytes, alloc n = some bytes) {event : ServiceEvent}
    (h : s.Inv c e) (ok : s.Fits c e event) (step : s.step c e alloc event = some t) :
    t.Inv c e := by
  cases event with
  | edit edit =>
    obtain ⟨msg, hedit⟩ | ⟨ms', hedit⟩ | ⟨ms', hedit, hgen⟩ :=
      edit.apply_cases (c := c) (e := e) s.ms
    · simp only [Service.step, hedit] at step
      cases Option.some.inj step
      exact h
    · simp only [Service.step, hedit] at step
      cases step
    · simp only [Service.step, hedit] at step
      cases Option.some.inj step
      have hnext : ms'.generation.toNat = s.ms.generation.toNat + 1 := by
        have hroom := ok.2 edit rfl (by rw [hedit])
        rw [hgen, UInt64.toNat_add]
        exact Nat.mod_eq_of_lt hroom
      have hbelow : s.ctx.lastGen.toNat < ms'.generation.toNat := by
        rw [hnext]
        exact Nat.lt_succ_of_le h.notAhead
      refine ⟨h.sameGen, Nat.le_of_lt hbelow, h.pages, fun heq => ?_⟩
      exact absurd (congrArg UInt64.toNat heq) (Nat.ne_of_lt hbelow)
  | reload enable mark => exact (h.reload aligned allocs ok.1 step).1
  | socket family task =>
    cases Option.some.inj step
    have hook := Kernel.cgroupSocketCreate_hooked e alloc s.kernel family task
    refine ⟨h.sameGen.trans hook.lastGen.symm, h.notAhead, ?_, fun hgen => ?_⟩
    · obtain ⟨hbase, hpages⟩ | ⟨_, _, hpages⟩ := hook.arena
      · intro r hr
        rw [hpages]
        exact h.pages r (hbase ▸ hr)
      · exact hpages
    · cases h.installed hgen with
      | built hb hd hm hholds harena hfits =>
        obtain ⟨r, hr, hlen, hbytes⟩ := hholds
        obtain ⟨hbase, _⟩ | ⟨_, hnone, _⟩ := hook.arena
        · exact .built hb (hook.hasDfa.trans hd) (hook.alike.masterDfa.trans hm)
            ⟨r, hbase.trans hr, hlen, hbytes⟩ harena hfits
        · rw [hr] at hnone
          cases hnone
      | failed hb hd => exact .failed hb (hook.hasDfa.trans hd)

/-- After every reload the kernel runs the current list: it has a DFA exactly if
the list compiles, and then it is the compiled one. -/
theorem Service.reload_installs (aligned : c.PadsToWord) (nothing : c.NothingFromNone)
    (allocs : ∀ n, 1 ≤ n → n ≤ 512 → ∃ bytes, alloc n = some bytes) {s₀ : Service}
    (started : s₀.Started) {events : List ServiceEvent}
    (run : Run (Service.step c e alloc) (Service.Fits c e) s₀ events s) {enable : Bool}
    {mark : UInt32} (ok : s.Room c e (.reload enable mark))
    (step : s.step c e alloc (.reload enable mark) = some t) :
    (t.kernel.hasDfa = true ↔ ∃ r, t.ms.buildPathDfa c e [] = .ok r) ∧
      ∀ b out, t.ms.buildPathDfa c e [] = .ok (b, out) →
        t.kernel.masterDfa = b ∧ t.kernel.Holds out := by
  have inv := run.invariant (fun _ _ _ => Service.inv_step aligned allocs) (started.inv nothing)
  cases (inv.reload aligned allocs ok step).2 with
  | built hb hd hm hholds harena _ =>
    refine ⟨iff_of_true hd ⟨_, hb⟩, fun b out hout => ?_⟩
    obtain ⟨rfl, rfl⟩ := Prod.mk.inj (Except.ok.inj (hb.symm.trans hout))
    exact ⟨hm, hholds⟩
  | failed hb hd =>
    refine ⟨iff_of_false (by simp [hd]) ?_, fun b out hout => ?_⟩
    · rintro ⟨r, hr⟩
      rw [hb] at hr
      cases hr
    · rw [hb] at hout
      cases hout

theorem slashACrates_nothingFromNone : slashACrates.NothingFromNone := by
  intro config d hd
  cases hd

theorem zeroedPages_allocs : ∀ n, 1 ≤ n → n ≤ 512 → ∃ bytes, zeroedPages n = some bytes :=
  fun _ _ _ => ⟨_, rfl⟩

def emptyService (generation : UInt64) : Service :=
  { ms := ⟨[], generation, 0⟩, ctx := .init, kernel := .init }

theorem emptyService_started (generation : UInt64) : (emptyService generation).Started :=
  ⟨fun _ => rfl, rfl, rfl⟩

theorem slashARule_fits {ms : Matches} (h : ms.entries = [slashARule .redirect 7]) (b : BpfDfa)
    (out : List UInt8) (hb : ms.buildPathDfa slashACrates .little [] = .ok (b, out)) :
    out.length ≤ arenaSize := by
  have built : ms.buildPathDfa slashACrates .little [] =
      .ok (slashABpf, slashAArena .redirect 7) :=
    Matches.buildPathDfa_slashARule h (by rw [h]; rfl)
  obtain ⟨_, rfl⟩ := Prod.mk.inj (Except.ok.inj (built.symm.trans hb))
  decide +kernel

set_option maxRecDepth 4000 in
theorem Service.reload_installs_slashA :
    ∃ s t, Run (Service.step slashACrates .little zeroedPages)
        (Service.Fits slashACrates .little) (emptyService 0) [.edit (.add (slashARule .redirect 7))] s ∧
      s.step slashACrates .little zeroedPages (.reload true 70000) = some t ∧
      (t.kernel.hasDfa = true ↔ ∃ r, t.ms.buildPathDfa slashACrates .little [] = .ok r) ∧
      ∀ b out, t.ms.buildPathDfa slashACrates .little [] = .ok (b, out) →
        t.kernel.masterDfa = b ∧ t.kernel.Holds out := by
  have run : ∃ s t, Run (Service.step slashACrates .little zeroedPages)
      (Service.Fits slashACrates .little) (emptyService 0) [.edit (.add (slashARule .redirect 7))] s ∧
      s.step slashACrates .little zeroedPages (.reload true 70000) = some t ∧
      s.ms.entries = [slashARule .redirect 7] :=
    ⟨_, _, .single ⟨trivial, fun _ _ _ => by decide⟩ rfl, rfl, rfl⟩
  obtain ⟨s, t, run, step, hms⟩ := run
  exact ⟨s, t, run, step, Service.reload_installs slashACrates_padsToWord
    slashACrates_nothingFromNone zeroedPages_allocs (emptyService_started 0) run
    (slashARule_fits hms) step⟩

set_option maxRecDepth 4000 in
theorem Service.reload_not_installs :
    ¬∀ {c : Crates} {e : Endian} {alloc : Nat → Option (Nat → UInt8)}, c.PadsToWord →
      c.NothingFromNone → (∀ n, 1 ≤ n → n ≤ 512 → ∃ bytes, alloc n = some bytes) →
      ∀ {s₀ s t : Service}, s₀.Started → ∀ {events : List ServiceEvent},
      Run (Service.step c e alloc) (Service.Room c e) s₀ events s →
      ∀ {enable : Bool} {mark : UInt32}, s.Room c e (.reload enable mark) →
        s.step c e alloc (.reload enable mark) = some t →
        (t.kernel.hasDfa = true ↔ ∃ r, t.ms.buildPathDfa c e [] = .ok r) := by
  intro h
  have run : ∃ s t, Run (Service.step slashACrates .little zeroedPages)
      (Service.Room slashACrates .little) (emptyService (2 ^ 64 - 1))
      [.edit (.add (slashARule .redirect 7))] s ∧
      s.step slashACrates .little zeroedPages (.reload true 70000) = some t ∧
      s.ms.entries = [slashARule .redirect 7] ∧ t.kernel.hasDfa = false ∧
      ∃ r, t.ms.buildPathDfa slashACrates .little [] = .ok r :=
    ⟨_, _, .single trivial rfl, rfl, rfl, rfl, _, rfl⟩
  obtain ⟨s, t, run, step, hms, hd, hb⟩ := run
  have hiff := h slashACrates_padsToWord slashACrates_nothingFromNone zeroedPages_allocs
    (emptyService_started _) run (slashARule_fits hms) step
  rw [hiff.mpr hb] at hd
  cases hd

end Rebpf
