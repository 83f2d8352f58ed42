import Rebpf.CrashSafety
import Rebpf.MatchStore
import Rebpf.SystemSteps

namespace Rebpf

open Lib

structure CliArgs where
  enable : Bool
  disable : Bool
deriving DecidableEq, Repr

/-- The task `save_state`: what it writes next, the last send it has seen, and whether
it is in its `sleep`. -/
structure SaveTask where
  saver : Saver
  rx : Nat
  sleeping : Bool

structure Running where
  system : System
  save : SaveTask

/-- The slots of a machine and the daemon, while it runs. -/
structure Persisted where
  files : Slots
  daemon : Option Running

inductive PersistedEvent
  /-- The daemon starts, the rest of it as in `system`. -/
  | start (args : CliArgs) (system : System)
  | system (event : SystemEvent)
  /-- `save_state` wakes up and goes to sleep. -/
  | changed
  /-- It has slept, and saves. -/
  | save
  /-- The daemon ends, wherever its tasks wait. -/
  | stop

/-- One round of the loop of `load_state`. -/
def loadNext (json : StateJson) (files : Slots) (loaded : Watch State × Loaded) (i : Fin 2) :
    Except Failure (Watch State × Loaded) := do
  let buf ← orErr (readToString (files i)) (.err "stream did not contain valid UTF-8")
  match json.fromStr buf with
  | some next =>
    if loaded.2.lastGen ≤ next.generation then
      let next := next.refreshed
      return (loaded.1.send next, ⟨next, i, next.generation⟩)
    else return loaded
  | none => return loaded

/-- The state's channel as `load_state` returns it, and what a save starts from. -/
def loadWatch (json : StateJson) (files : Slots) : Except Failure (Watch State × Loaded) :=
  (List.finRange 2).foldlM (loadNext json files) (.new .default, .first)

/-- What the switches make of the loaded state; both together are refused. -/
def CliArgs.apply (args : CliArgs) (conf : Watch State) : Option (Watch State) :=
  if args.enable ∧ args.disable then none
  else if (args.enable ∨ args.disable) ∧ conf.value.enable ≠ args.enable then
    some (conf.send { conf.value with enable := args.enable })
  else some conf

namespace Persisted

variable (json : StateJson) (c : Crates) (e : Endian) (dc : DnsCrates)
  (alloc : Nat → Option (Nat → UInt8)) (lookup : Net → List Link → UInt32 → Option FibResult)

/-- A machine that has never saved anything. -/
def init : Persisted := ⟨fun _ => [], none⟩

def start (args : CliArgs) (system : System) (m : Persisted) : Option Persisted :=
  match loadWatch json m.files with
  | .error _ => some m
  | .ok (conf, l) =>
    match args.apply conf with
    | none => some m
    | some conf' =>
      if system.conf = conf' then
        some { m with daemon := some ⟨system, ⟨l.saver, conf.markUnchanged, false⟩⟩ }
      else none

def changed (m : Persisted) : Option Persisted := do
  let d ← m.daemon
  if d.save.sleeping = false ∧ d.system.conf.hasChanged d.save.rx then
    let rx := d.system.conf.markUnchanged
    return { m with daemon := some { d with save := { d.save with rx, sleeping := true } } }
  else none

def save (m : Persisted) : Option Persisted := do
  let d ← m.daemon
  if d.save.sleeping = true then
    let (files, saver) := saveState json m.files d.save.saver d.system.conf.value
    let rx := d.system.conf.markUnchanged
    return ⟨files, some { d with save := ⟨saver, rx, false⟩ }⟩
  else none

def step (m : Persisted) : PersistedEvent → Option Persisted
  | .start args system => if m.daemon.isNone then m.start json args system else none
  | .system event => do
    let d ← m.daemon
    let system ← d.system.step c e dc alloc lookup event
    return { m with daemon := some { d with system } }
  | .changed => m.changed
  | .save => m.save json
  | .stop => do
    let _ ← m.daemon
    return { m with daemon := none }

/-- The number of a save fits its 64 bits. -/
def Fits (m : Persisted) : PersistedEvent → Prop
  | .save => ∀ d, m.daemon = some d → d.save.saver.generation.toNat + 1 < 2 ^ 64
  | _ => True

/-- The daemon runs, and `save_state` waits for a change and has none to see. -/
def Saved (m : Persisted) (state : State) : Prop :=
  ∃ d, m.daemon = some d ∧ d.system.conf.value = state ∧ d.save.sleeping = false ∧
    d.system.conf.hasChanged d.save.rx = false

end Persisted

/-- A state less the number of its save. -/
def State.unnumbered (s : State) : State := { s with generation := 0 }

/-- What the switches ask for. -/
def CliArgs.on (args : CliArgs) (s : State) : State :=
  if args.enable ∨ args.disable then { s with enable := args.enable } else s

/-- A daemon started from these slots has this state, whatever the number of its save,
and enabled or disabled if it is told to be. -/
def Slots.Restore (json : StateJson) (files : Slots) (state : State) : Prop :=
  ∀ args : CliArgs, ¬(args.enable ∧ args.disable) →
    ∃ conf l conf', loadWatch json files = .ok (conf, l) ∧ args.apply conf = some conf' ∧
      conf'.value.unnumbered = (args.on state).unnumbered

theorem loadNext_ok {json : StateJson} {files : Slots} {conf : Watch State} {l l' : Loaded}
    {i : Fin 2} (h : loadSlot json files l i = .ok l') (same : conf.value = l.state) :
    ∃ conf', loadNext json files (conf, l) i = .ok (conf', l') ∧ conf'.value = l'.state := by
  obtain ⟨buf, hbuf, h⟩ := bind_eq_ok.mp h
  cases Except.ok.inj h
  simp only [loadNext, bind_eq_ok]
  cases hnext : json.fromStr buf with
  | none => exact ⟨conf, ⟨buf, hbuf, by rw [hnext]; rfl⟩, same⟩
  | some next =>
    by_cases hle : l.lastGen ≤ next.generation
    · refine ⟨conf.send next.refreshed, ⟨buf, hbuf, ?_⟩, ?_⟩
      · simp only [hnext, if_pos hle, Loaded.next]
        rfl
      · rw [Loaded.next, if_pos hle]
        rfl
    · refine ⟨conf, ⟨buf, hbuf, ?_⟩, ?_⟩
      · simp only [hnext, if_neg hle, Loaded.next]
        rfl
      · rw [Loaded.next, if_neg hle]
        exact same

theorem loadWatch_ok {json : StateJson} {files : Slots} {l : Loaded}
    (h : loadState json files = .ok l) :
    ∃ conf, loadWatch json files = .ok (conf, l) ∧ conf.value = l.state := by
  obtain ⟨l₀, h₀, h⟩ := foldlM_cons_ok.mp h
  obtain ⟨l₁, h₁, h⟩ := foldlM_cons_ok.mp h
  cases Except.ok.inj h
  obtain ⟨conf₀, hnext₀, same₀⟩ := loadNext_ok h₀ (rfl : (Watch.new State.default).value = _)
  obtain ⟨conf₁, hnext₁, same₁⟩ := loadNext_ok h₁ same₀
  exact ⟨conf₁, foldlM_cons_ok.mpr ⟨_, hnext₀, foldlM_cons_ok.mpr ⟨_, hnext₁, rfl⟩⟩, same₁⟩

theorem State.refreshed_of_counted {s : State} (h : s.ms.Counted) : s.refreshed = s := by
  have hcount : Int32.ofNat (s.ms.entries.filter Match.isDns).length = s.ms.dnsCount := h.symm
  rw [State.refreshed, Matches.update, hcount]

theorem CliArgs.apply_on (args : CliArgs) {conf : Watch State} {s : State}
    (one : ¬(args.enable ∧ args.disable)) (same : conf.value.unnumbered = s.unnumbered) :
    ∃ conf', args.apply conf = some conf' ∧
      conf'.value.unnumbered = (args.on s).unnumbered := by
  obtain ⟨henable, hdev, hconfig, hms, _⟩ := State.mk.inj same
  rw [apply, if_neg one, on]
  by_cases hswitch : args.enable ∨ args.disable
  · by_cases hne : conf.value.enable = args.enable
    · rw [if_neg fun h => h.2 hne, if_pos hswitch]
      refine ⟨conf, rfl, ?_⟩
      rw [State.unnumbered, State.unnumbered, ← hne, hdev, hconfig, hms]
    · rw [if_pos ⟨hswitch, hne⟩, if_pos hswitch]
      refine ⟨_, rfl, ?_⟩
      simp only [Watch.send, State.unnumbered, hdev, hconfig, hms]
  · rw [if_neg fun h => hswitch h.1, if_neg hswitch]
    exact ⟨conf, rfl, same⟩

namespace System

variable {c : Crates} {e : Endian} {dc : DnsCrates} {alloc : Nat → Option (Nat → UInt8)}
  {lookup : Net → List Link → UInt32 → Option FibResult} {s t : System}

/-- No call of a client changes what `dns_count` stands for. -/
theorem applyChange_counted {change : Change} (h : s.applyChange c e change = some t)
    (counted : s.conf.value.ms.Counted) : t.conf.value.ms.Counted := by
  cases change with
  | edit edit =>
    have keeps := (edit.apply_keeps (c := c) (e := e) s.conf.value.ms).counted counted
    simp only [applyChange] at h
    split at h
    next ms heq =>
      cases Option.some.inj h
      rw [heq] at keeps
      exact keeps
    next ms heq =>
      cases Option.some.inj h
      rw [heq] at keeps
      exact keeps
    next => cases h
  | _ =>
    cases Option.some.inj h
    exact counted

end System

theorem CliArgs.apply_later {args : CliArgs} {conf conf' : Watch State}
    (h : args.apply conf = some conf') :
    conf.Later conf' ∧ conf'.value.ms = conf.value.ms := by
  unfold apply at h
  split at h
  · cases h
  · split at h
    · cases Option.some.inj h
      exact ⟨Watch.later_send _ _, rfl⟩
    · cases Option.some.inj h
      exact ⟨.refl _, rfl⟩

/-- Where `save_state` is behind the state, it has a change to see. -/
structure Running.Tracks (d : Running) (saved : Option State) : Prop where
  counted : d.system.conf.value.ms.Counted
  rx_le : d.save.rx ≤ d.system.conf.version
  latest : d.save.sleeping = false → d.save.rx = d.system.conf.version →
    (found saved).unnumbered = d.system.conf.value.unnumbered

namespace Persisted

/-- Starts, saves and ends alone. -/
def machine (m : Persisted) (saved : Option State) : Machine :=
  ⟨m.files, m.daemon.map (·.save.saver), saved, none⟩

structure Inv (json : StateJson) (m : Persisted) (saved : Option State) : Prop where
  machine : (m.machine saved).Inv json
  counted : ∀ a, saved = some a → a.ms.Counted
  daemon : ∀ d, m.daemon = some d → d.Tracks saved

variable {json : StateJson} {c : Crates} {e : Endian} {dc : DnsCrates}
  {alloc : Nat → Option (Nat → UInt8)} {lookup : Net → List Link → UInt32 → Option FibResult}
  {m m' : Persisted} {saved : Option State}

theorem inv_init (lawful : json.Lawful) : Inv json init none where
  machine := Machine.inv_init lawful
  counted _ h := by cases h
  daemon _ h := by cases h

theorem Inv.found_counted (_ : m.Inv json saved) : (found saved).ms.Counted := by
  cases saved with
  | none => rfl
  | some a => exact Matches.update_counted _

theorem Inv.loads (h : m.Inv json saved) :
    ∃ conf l, loadWatch json m.files = .ok (conf, l) ∧ loadState json m.files = .ok l ∧
      conf.value = found saved := by
  obtain ⟨l, hl, hstate, _⟩ := loadState_newest h.machine.readable h.machine.newest
  obtain ⟨conf, hconf, hvalue⟩ := loadWatch_ok hl
  exact ⟨conf, l, hconf, hl, hvalue.trans hstate⟩

theorem Inv.restores {state : State} (h : m.Inv json saved)
    (same : (found saved).unnumbered = state.unnumbered) : m.files.Restore json state := by
  intro args one
  obtain ⟨conf, l, hload, _, hvalue⟩ := h.loads
  obtain ⟨conf', happly, hon⟩ := args.apply_on one (hvalue ▸ same)
  exact ⟨conf, l, conf', hload, happly, hon⟩

theorem changed_some (h : m.changed = some m') :
    ∃ d, m.daemon = some d ∧ d.save.sleeping = false ∧
      d.system.conf.hasChanged d.save.rx = true ∧
      m' = { m with daemon := some { d with
        save := { d.save with rx := d.system.conf.version, sleeping := true } } } := by
  obtain ⟨d, hd, h⟩ := Option.bind_eq_some_iff.mp h
  dsimp only at h
  split at h
  next hready =>
    cases Option.some.inj h
    exact ⟨d, hd, hready.1, hready.2, rfl⟩
  next => cases h

theorem save_some (h : m.save json = some m') :
    ∃ d, m.daemon = some d ∧ d.save.sleeping = true ∧
      m' = ⟨(saveState json m.files d.save.saver d.system.conf.value).1,
        some { d with save :=
          ⟨(saveState json m.files d.save.saver d.system.conf.value).2,
            d.system.conf.version, false⟩ }⟩ := by
  obtain ⟨d, hd, h⟩ := Option.bind_eq_some_iff.mp h
  dsimp only at h
  split at h
  next hsleep =>
    cases Option.some.inj h
    exact ⟨d, hd, hsleep, rfl⟩
  next => cases h

/-- A save is one of the machine's, and leaves nothing to see. -/
theorem Inv.save (lawful : json.Lawful) (h : m.Inv json saved) (fits : m.Fits .save)
    (step : m.save json = some m') :
    ∃ d a, m.daemon = some d ∧ a = d.save.saver.stamp d.system.conf.value ∧
      m'.Inv json (some a) := by
  obtain ⟨d, hd, _, rfl⟩ := save_some step
  have hsaver : (m.machine saved).saver = some d.save.saver :=
    congrArg (Option.map fun d : Running => d.save.saver) hd
  have hstep : (m.machine saved).step json (.save d.system.conf.value) =
      some (Persisted.machine ⟨(saveState json m.files d.save.saver d.system.conf.value).1,
        some { d with save :=
          ⟨(saveState json m.files d.save.saver d.system.conf.value).2,
            d.system.conf.version, false⟩ }⟩
        (some (d.save.saver.stamp d.system.conf.value))) := by
    simp only [Machine.step, hsaver, Option.bind_eq_bind, Option.bind_some]
    rfl
  have hfits : (m.machine saved).Harmless json (.save d.system.conf.value) := by
    intro saver running
    cases Option.some.inj (hsaver.symm.trans running)
    exact fits d hd
  have tracks := h.daemon d hd
  refine ⟨d, _, hd, rfl, Machine.inv_step lawful h.machine hfits hstep, ?_, ?_⟩
  · intro a ha
    cases Option.some.inj ha
    exact tracks.counted
  · intro d' hd'
    cases Option.some.inj hd'
    refine ⟨tracks.counted, Nat.le_refl _, fun _ _ => ?_⟩
    have hcounted : (d.save.saver.stamp d.system.conf.value).ms.Counted := tracks.counted
    show (State.refreshed _).unnumbered = _
    rw [State.refreshed_of_counted hcounted]
    rfl

theorem Inv.start {args : CliArgs} {system : System} (lawful : json.Lawful)
    (h : m.Inv json saved) (down : m.daemon = none)
    (step : m.start json args system = some m') : m'.Inv json saved := by
  obtain ⟨conf, l, hload, hstate, hvalue⟩ := h.loads
  simp only [Persisted.start, hload] at step
  split at step
  next =>
    cases Option.some.inj step
    exact h
  next conf' happly =>
    split at step
    next hconf =>
      cases Option.some.inj step
      obtain ⟨later, hms⟩ := CliArgs.apply_later happly
      have hdown : (m.machine saved).saver = none :=
        congrArg (Option.map fun d : Running => d.save.saver) down
      have hok : (m.machine saved).Harmless json .start := trivial
      refine ⟨Machine.inv_step lawful h.machine hok (step_start hdown hstate), h.counted, ?_⟩
      intro d hd
      cases Option.some.inj hd
      refine ⟨?_, ?_, fun _ hseen => ?_⟩
      · show system.conf.value.ms.Counted
        rw [hconf, hms, hvalue]
        exact h.found_counted
      · show conf.version ≤ system.conf.version
        rw [hconf]
        exact later.le
      · have hsame : conf'.value = conf.value := later.same (hseen.trans (congrArg _ hconf))
        show _ = system.conf.value.unnumbered
        rw [hconf, hsame, hvalue]
    next => cases step

theorem Inv.system {d : Running} {t : System} {event : SystemEvent} (h : m.Inv json saved)
    (up : m.daemon = some d) (step : d.system.step c e dc alloc lookup event = some t) :
    (Persisted.mk m.files (some { d with system := t })).Inv json saved := by
  have hmachine : Persisted.machine ⟨m.files, some { d with system := t }⟩ saved =
      m.machine saved := by
    rw [Persisted.machine, Persisted.machine, up]
    rfl
  have tracks := h.daemon d up
  refine ⟨hmachine ▸ h.machine, h.counted, fun d' hd' => ?_⟩
  cases Option.some.inj hd'
  rcases System.step_conf step with hconf | ⟨change, rfl, happly⟩
  · refine ⟨?_, ?_, ?_⟩
    · exact hconf ▸ tracks.counted
    · exact hconf ▸ tracks.rx_le
    · intro hsleep hseen
      show _ = t.conf.value.unnumbered
      rw [hconf]
      exact tracks.latest hsleep (hseen.trans (congrArg _ hconf))
  · obtain ⟨conf, later, rfl⟩ := System.applyChange_some happly
    refine ⟨System.applyChange_counted happly tracks.counted,
      Nat.le_trans tracks.rx_le later.le, fun hsleep hseen => ?_⟩
    have hle := tracks.rx_le
    have hle' := later.le
    have hseen' : d.save.rx = conf.version := hseen
    have hsame : conf.value = d.system.conf.value := later.same (by omega)
    show _ = conf.value.unnumbered
    rw [hsame]
    exact tracks.latest hsleep (by omega)

/-- Whatever is saved stays so until the next save. -/
theorem inv_step {event : PersistedEvent} (lawful : json.Lawful) (h : m.Inv json saved)
    (fits : m.Fits event) (step : m.step json c e dc alloc lookup event = some m') :
    ∃ saved', m'.Inv json saved' ∧ (event ≠ .save → saved' = saved) := by
  cases event with
  | start args system =>
    simp only [Persisted.step, Option.isNone_iff_eq_none] at step
    split at step
    next down => exact ⟨saved, h.start lawful down step, fun _ => rfl⟩
    next => cases step
  | system event =>
    obtain ⟨d, hd, step⟩ := Option.bind_eq_some_iff.mp step
    obtain ⟨t, ht, step⟩ := Option.bind_eq_some_iff.mp step
    cases Option.some.inj step
    exact ⟨saved, h.system hd ht, fun _ => rfl⟩
  | changed =>
    obtain ⟨d, hd, _, _, rfl⟩ := changed_some step
    have tracks := h.daemon d hd
    refine ⟨saved, ⟨?_, h.counted, fun d' hd' => ?_⟩, fun _ => rfl⟩
    · have hmachine := h.machine
      rw [machine, hd] at hmachine
      exact hmachine
    · cases Option.some.inj hd'
      exact ⟨tracks.counted, Nat.le_refl _, by simp⟩
  | save =>
    obtain ⟨d, a, _, _, hinv⟩ := h.save lawful fits step
    exact ⟨some a, hinv, fun hne => absurd rfl hne⟩
  | stop =>
    obtain ⟨d, hd, step⟩ := Option.bind_eq_some_iff.mp step
    cases Option.some.inj step
    have hok : (m.machine saved).Harmless json .crash := trivial
    refine ⟨saved, ⟨Machine.inv_step lawful h.machine hok rfl, h.counted, ?_⟩, fun _ => rfl⟩
    intro d' hd'
    cases hd'

variable (json) in
theorem save_saved {d : Running} (up : m.daemon = some d) (sleeps : d.save.sleeping = true) :
    ∃ t, m.save json = some t ∧ t.Saved d.system.conf.value := by
  let files := saveState json m.files d.save.saver d.system.conf.value
  refine ⟨⟨files.1, some { d with save := ⟨files.2, d.system.conf.version, false⟩ }⟩, ?_, _, rfl,
    rfl, rfl, Watch.hasChanged_eq_false.mpr rfl⟩
  rw [Persisted.save, up, Option.bind_eq_bind, Option.bind_some, if_pos sleeps]
  rfl

/-- At most the two steps of its loop, and everything is saved. -/
theorem saves {d : Running} (up : m.daemon = some d) (fits : m.Fits .save) :
    ∃ rest t, (∀ event ∈ rest, event = .changed ∨ event = .save) ∧
      Run (Persisted.step json c e dc alloc lookup) Fits m rest t ∧
      t.Saved d.system.conf.value := by
  cases hsleep : d.save.sleeping with
  | true =>
    obtain ⟨t, ht, hsaved⟩ := save_saved json up hsleep
    exact ⟨[.save], t, by simp, .single fits ht, hsaved⟩
  | false =>
    cases hseen : d.system.conf.hasChanged d.save.rx with
    | false => exact ⟨[], m, by simp, .nil, d, up, rfl, hsleep, hseen⟩
    | true =>
      let woken : Persisted := { m with daemon := some { d with
        save := { d.save with rx := d.system.conf.version, sleeping := true } } }
      have hwake : m.changed = some woken := by
        rw [Persisted.changed, up, Option.bind_eq_bind, Option.bind_some, if_pos ⟨hsleep, hseen⟩]
        rfl
      have hfits : woken.Fits .save := by
        intro d' hd'
        cases Option.some.inj hd'
        exact fits d up
      obtain ⟨t, ht, hsaved⟩ := save_saved json (m := woken) rfl rfl
      exact ⟨[.changed, .save], t, by simp, .cons trivial hwake (.single hfits ht), hsaved⟩

theorem Inv.run {events : List PersistedEvent} (lawful : json.Lawful) (h : m.Inv json saved)
    (run : Run (Persisted.step json c e dc alloc lookup) Fits m events m') :
    ∃ saved', m'.Inv json saved' ∧ (.save ∉ events → saved' = saved) := by
  induction run generalizing saved with
  | nil => exact ⟨saved, h, fun _ => rfl⟩
  | cons fits step _ ih =>
    obtain ⟨mid, hmid, hkeep⟩ := inv_step lawful h fits step
    obtain ⟨saved', h', hrest⟩ := ih hmid
    refine ⟨saved', h', fun hno => ?_⟩
    obtain ⟨hfirst, hno⟩ := not_or.mp (mt List.mem_cons.mpr hno)
    rw [hrest hno, hkeep (Ne.symm hfirst)]

/-- A daemon that has nothing to save is started with its state again. Until then the
steps of `save_state` are enough, whatever the daemon has been told to do in between. -/
theorem run_restores (lawful : json.Lawful) {events : List PersistedEvent} {m : Persisted}
    (run : Run (Persisted.step json c e dc alloc lookup) Fits init events m) :
    (∀ state, m.Saved state → m.files.Restore json state) ∧
      ∀ d, m.daemon = some d → m.Fits .save →
        ∃ rest t, (∀ event ∈ rest, event = .changed ∨ event = .save) ∧
          Run (Persisted.step json c e dc alloc lookup) Fits m rest t ∧
          t.files.Restore json d.system.conf.value := by
  obtain ⟨saved, h, _⟩ := (inv_init lawful).run lawful run
  have restores : ∀ {t : Persisted} {saved state}, t.Inv json saved → t.Saved state →
      t.files.Restore json state := by
    rintro t saved state h ⟨d, hd, rfl, hsleep, hseen⟩
    exact h.restores ((h.daemon d hd).latest hsleep (Watch.hasChanged_eq_false.mp hseen))
  refine ⟨fun state hsaved => restores h hsaved, fun d hd fits => ?_⟩
  obtain ⟨rest, t, hrest, hrun, hsaved⟩ := saves hd fits
  obtain ⟨_, ht, _⟩ := h.run lawful hrun
  exact ⟨rest, t, hrest, hrun, restores ht hsaved⟩

/-- The daemon `wgSystem`, told to start enabled on a machine without a state. -/
def switchedSystem : System :=
  { wgSystem with conf := (Watch.new .default).send { State.default with enable := true } }

theorem loadWatch_init (lawful : json.Lawful) :
    loadWatch json init.files = .ok (.new .default, .first) := by
  have hread : readToString [] = some "" := readToString_textBytes ""
  have hnext : ∀ loaded i, loadNext json init.files loaded i = .ok loaded := by
    intro loaded i
    refine bind_eq_ok.mpr ⟨"", orErr_eq_ok.mpr hread, ?_⟩
    rw [lawful.fromStr_empty]
    rfl
  exact foldlM_cons_ok.mpr ⟨_, hnext _ _, foldlM_cons_ok.mpr ⟨_, hnext _ _, rfl⟩⟩

theorem switched_start :
    Persisted.step sampleJson anyCrates .little sampleDnsCrates zeroedPages firstMain init
        (.start ⟨true, false⟩ switchedSystem) =
      some ⟨init.files, some ⟨switchedSystem, ⟨Loaded.first.saver, 1, false⟩⟩⟩ := by
  simp only [Persisted.step, Persisted.start, loadWatch_init sampleJson_lawful]
  rfl

/-- It is disabled while `save_state` sleeps. -/
def switchedEvents : List PersistedEvent :=
  [.start ⟨true, false⟩ switchedSystem, .changed, .system (.change .toggle)]

def toggled : Running :=
  ⟨{ switchedSystem with conf := switchedSystem.conf.send State.default },
    ⟨Loaded.first.saver, 2, true⟩⟩

theorem switched_run :
    Run (Persisted.step sampleJson anyCrates .little sampleDnsCrates zeroedPages firstMain) Fits
      init switchedEvents ⟨init.files, some toggled⟩ :=
  .cons trivial switched_start (.cons trivial rfl (.single trivial rfl))

theorem toggled_fits : (Persisted.mk init.files (some toggled)).Fits .save := by
  intro d hd
  cases Option.some.inj hd
  decide

theorem run_restores_switched :
    ∃ m, Run (Persisted.step sampleJson anyCrates .little sampleDnsCrates zeroedPages firstMain)
        Fits init (switchedEvents ++ [.save]) m ∧ m.files.Restore sampleJson State.default := by
  obtain ⟨m, hsave, hsaved⟩ :=
    save_saved sampleJson (m := ⟨init.files, some toggled⟩) rfl rfl
  have run := switched_run.append (.single toggled_fits hsave)
  exact ⟨m, run, (run_restores sampleJson_lawful run).1 _ hsaved⟩

/-- What was saved last is found whenever the daemon starts again, however often it has
been started and ended since and whatever it has been told. -/
theorem save_lasts (lawful : json.Lawful) {before after : List PersistedEvent}
    {m₀ m₁ m : Persisted} {d : Running}
    (run : Run (Persisted.step json c e dc alloc lookup) Fits init before m₀)
    (up : m₀.daemon = some d) (fits : m₀.Fits .save)
    (saves : m₀.step json c e dc alloc lookup .save = some m₁)
    (rest : Run (Persisted.step json c e dc alloc lookup) Fits m₁ after m)
    (unsaved : .save ∉ after) :
    m.files.Restore json d.system.conf.value := by
  obtain ⟨saved, h, _⟩ := (inv_init lawful).run lawful run
  obtain ⟨d', a, hd', rfl, h₁⟩ := h.save lawful fits saves
  cases Option.some.inj (up.symm.trans hd')
  obtain ⟨saved', h', hkeep⟩ := h₁.run lawful rest
  cases hkeep unsaved
  have hcounted : (d.save.saver.stamp d.system.conf.value).ms.Counted :=
    (h.daemon d up).counted
  refine h'.restores ?_
  show (State.refreshed _).unnumbered = _
  rw [State.refreshed_of_counted hcounted]
  rfl

theorem save_lasts_switched :
    ∃ m₁ m, Persisted.step sampleJson anyCrates .little sampleDnsCrates zeroedPages firstMain
        ⟨init.files, some toggled⟩ .save = some m₁ ∧
      Run (Persisted.step sampleJson anyCrates .little sampleDnsCrates zeroedPages firstMain) Fits
        m₁ [.system (.change .enable), .changed, .stop] m ∧
      m.files.Restore sampleJson State.default := by
  let files := saveState sampleJson init.files Loaded.first.saver State.default
  let m₁ : Persisted :=
    ⟨files.1, some ⟨toggled.system, ⟨files.2, toggled.system.conf.version, false⟩⟩⟩
  have saves : Persisted.step sampleJson anyCrates .little sampleDnsCrates zeroedPages firstMain
      ⟨init.files, some toggled⟩ .save = some m₁ := rfl
  have rest : Run
      (Persisted.step sampleJson anyCrates .little sampleDnsCrates zeroedPages firstMain)
      Fits m₁ [.system (.change .enable), .changed, .stop] ⟨files.1, none⟩ :=
    .cons trivial rfl (.cons trivial rfl (.single trivial rfl))
  exact ⟨m₁, _, saves, rest,
    save_lasts sampleJson_lawful switched_run rfl toggled_fits saves rest (by simp)⟩

end Persisted

end Rebpf
