import Rebpf.GuiShown
import Rebpf.Settled
import Rebpf.WatchReload

namespace Rebpf

open Lib

/-- An app: its task `listen_props` with the messages it has sent, and the window. -/
structure Window (tk : Gui.Toolkit) where
  mirror : Mirror Property.Value
  session : Gui.Session tk

/-- The daemon as its clients see it, and the apps. -/
structure Bus (ι : Type) (tk : Gui.Toolkit) where
  system : System
  attached : Bool
  blocker : String
  /-- The blocker that the iteration of `watch_reload` has found. -/
  found : String
  /-- It has sent both, and `attached_changed` is to come. -/
  announcing : Bool
  /-- Edits of the matches whose `matches_changed` is to come. -/
  edits : Nat
  /-- Updates of the configuration whose `config_changed` is to come. -/
  updates : Nat
  windows : ι → Window tk

inductive WindowEvent (tk : Gui.Toolkit)
  | subscribe
  | ask
  /-- The service answers; the maps it tells are gone through in some order. -/
  | serve (order : Nat → Fields → Fields)
  | reply
  /-- The task starts again, perhaps on an error that the window is told of. -/
  | restart (lost : Bool)
  | turn (turn : Gui.Turn tk)

inductive BusEvent (ι : Type) (tk : Gui.Toolkit)
  | system (event : SystemEvent)
  | announce (p : Property)
  | window (i : ι) (event : WindowEvent tk)

namespace Window

variable {tk : Gui.Toolkit}

/-- A message of the window: the next one of the task, or another. -/
def turn (w : Window tk) (turn : Gui.Turn tk) : Option (Window tk) :=
  match Gui.newsOf turn.msg with
  | none => do
    let session ← w.session.step turn
    return { w with session }
  | some news => do
    let (next, mirror) ← w.mirror.take
    if next = news then
      let session ← w.session.step turn
      return ⟨mirror, session⟩
    else none

def step (tell : (Nat → Fields → Fields) → ∀ p, Property.Value p) (w : Window tk) :
    WindowEvent tk → Option (Window tk)
  | .subscribe => do
    let mirror ← w.mirror.subscribe
    return { w with mirror }
  | .ask => do
    let mirror ← w.mirror.ask
    return { w with mirror }
  | .serve order => do
    let mirror ← w.mirror.serve (tell order)
    return { w with mirror }
  | .reply => do
    let mirror ← w.mirror.reply
    return { w with mirror }
  | .restart lost => some { w with mirror := w.mirror.restart Property.all lost }
  | .turn turn => w.turn turn

end Window

namespace Bus

variable {ι : Type} [DecidableEq ι] {tk : Gui.Toolkit}

/-- `watch_reload` begins an iteration. -/
def isReloadWake : SystemEvent → Bool
  | .reloadWake _ => true
  | _ => false

/-- What the properties are read from, as the app shows it. -/
def current (b : Bus ι tk) : ∀ p, Property.Value p
  | .attached => .shown b.system.conf.value b.attached b.blocker b.system.routes.value
  | .matchList => b.system.conf.value.ms.entries.map .shown
  | .config => .shown b.system.conf.value.config

/-- What the app makes of the answer for a property. -/
def tell (b : Bus ι tk) (order : Nat → Fields → Fields) : ∀ p, Property.Value p
  | .attached => .fromHashmap
      (order 0 (attachedFields b.system.conf.value b.attached b.blocker b.system.routes.value))
  | .matchList =>
    b.system.conf.value.ms.entries.mapIdx fun n m => .fromHashmap (order n m.toHashmap)
  | .config => .fromHashmap (order 0 b.system.conf.value.config.toHashmap)

/-- The blocker that `watch_reload` reports once it has set up its rules. -/
def blockerFound (c : Crates) (s : System) : String :=
  match s.reloadLoop.phase with
  | .woken newMark =>
    ((reloadRules c newMark s.mark s.conf.value s.routes.value s.net).map (·.2.1)).getD ""
  | _ => ""

/-- What else a step of the daemon does. -/
def follow (c : Crates) (b : Bus ι tk) (event : SystemEvent) (t : System) : Bus ι tk :=
  let b' := { b with system := t }
  match event with
  | .reloadRules => { b' with found := blockerFound c b.system }
  | .reloadDone => { b' with attached := true, blocker := b.found, announcing := true }
  | .change (.edit _) =>
    if t.conf.version ≠ b.system.conf.version then { b' with edits := b.edits + 1 } else b'
  | .change (.updateConfig _) => { b' with updates := b.updates + 1 }
  | _ => b'

def hear (b : Bus ι tk) (p : Property) : Bus ι tk :=
  { b with windows := fun i => { b.windows i with mirror := (b.windows i).mirror.hear p } }

def announce (b : Bus ι tk) : Property → Option (Bus ι tk)
  | .attached => if b.announcing then some ({ b with announcing := false }.hear .attached) else none
  | .matchList =>
    if 0 < b.edits then some ({ b with edits := b.edits - 1 }.hear .matchList) else none
  | .config =>
    if 0 < b.updates then some ({ b with updates := b.updates - 1 }.hear .config) else none

section

variable (c : Crates) (e : Endian) (dc : DnsCrates) (alloc : Nat → Option (Nat → UInt8))
  (lookup : Net → List Link → UInt32 → Option FibResult)

def step (b : Bus ι tk) : BusEvent ι tk → Option (Bus ι tk)
  | .system event =>
    -- The iteration ends with its signal.
    if b.announcing && isReloadWake event then none
    else do
      let t ← b.system.step c e dc alloc lookup event
      return b.follow c event t
  | .announce p => b.announce p
  | .window i event => do
    let w ← (b.windows i).step b.tell event
    return { b with windows := Function.update b.windows i w }

end

/-- No signal finds an app between its first reading of a property and its subscription,
and maps are gone through entry by entry. -/
def Heard (i : ι) (b : Bus ι tk) : BusEvent ι tk → Prop
  | .announce p => (b.windows i).mirror.Hears p
  | .window _ (.serve order) => ∀ n h, (order n h).Perm h
  | _ => True

/-- A daemon that has just started, and an app that is about to listen. -/
structure Started (i : ι) (b : Bus ι tk) : Prop where
  system : b.system.Started
  attached : b.attached = false
  quiet : b.announcing = false ∧ b.edits = 0 ∧ b.updates = 0
  window : (b.windows i).mirror = .start Property.all
  session : ∃ trayTheme unique, (b.windows i).session = .started tk trayTheme unique

/-- Nothing is under way in the daemon, and all its signals are out. -/
structure Quiet (b : Bus ι tk) : Prop where
  system : b.system.Quiet
  signals : b.announcing = false ∧ b.edits = 0 ∧ b.updates = 0

end Bus

namespace Window

variable {tk : Gui.Toolkit} {w w' : Window tk}
  {tell : (Nat → Fields → Fields) → ∀ p, Property.Value p} {cur : ∀ p, Property.Value p}
  {owed : Property → Prop} {p : Property}

/-- What the window has of a property, or is to get, is what the service has. -/
def Tracks (w : Window tk) (cur : ∀ p, Property.Value p) (owed : Property → Prop)
    (p : Property) : Prop :=
  w.mirror.Tracks Gui.cleared w.session.view cur owed p

theorem Tracks.turn {turn : Gui.Turn tk} (h : w.Tracks cur owed p) (step : w.turn turn = some w') :
    w'.Tracks cur owed p := by
  unfold Window.turn at step
  split at step
  next hnews =>
    obtain ⟨session, hsession, step⟩ := Option.bind_eq_some_iff.mp step
    cases Option.some.inj step
    have hview := Gui.Session.view_step hsession
    rw [hnews] at hview
    rw [Window.Tracks, show session.view = w.session.view from hview]
    exact h
  next news hnews =>
    obtain ⟨⟨next, mirror⟩, htake, step⟩ := Option.bind_eq_some_iff.mp step
    dsimp only at step
    split at step
    next heq =>
      obtain ⟨session, hsession, step⟩ := Option.bind_eq_some_iff.mp step
      cases Option.some.inj step
      have hview := Gui.Session.view_step hsession
      rw [hnews] at hview
      rw [Window.Tracks, show session.view = Mirror.put Gui.cleared w.session.view news from hview]
      exact Mirror.Tracks.take h (heq ▸ htake)
    next => cases step

theorem Tracks.step {event : WindowEvent tk} (h : w.Tracks cur owed p)
    (told : ∀ order, event = .serve order → tell order = cur)
    (step : w.step tell event = some w') : w'.Tracks cur owed p := by
  cases event with
  | subscribe =>
    obtain ⟨mirror, hmirror, step⟩ := Option.bind_eq_some_iff.mp step
    cases Option.some.inj step
    rw [Mirror.subscribe_some hmirror]
    exact h
  | ask =>
    obtain ⟨mirror, hmirror, step⟩ := Option.bind_eq_some_iff.mp step
    cases Option.some.inj step
    exact Mirror.Tracks.ask h hmirror
  | serve order =>
    obtain ⟨mirror, hmirror, step⟩ := Option.bind_eq_some_iff.mp step
    cases Option.some.inj step
    rw [told order rfl] at hmirror
    exact Mirror.Tracks.serve h hmirror
  | reply =>
    obtain ⟨mirror, hmirror, step⟩ := Option.bind_eq_some_iff.mp step
    cases Option.some.inj step
    exact Mirror.Tracks.reply h hmirror
  | restart lost =>
    cases Option.some.inj step
    exact Mirror.Tracks.restart p.mem_all lost w.mirror
  | turn turn => exact h.turn step

theorem session_step {event : WindowEvent tk} (step : w.step tell event = some w') :
    w'.session = w.session ∨ ∃ turn, w.session.step turn = some w'.session := by
  cases event with
  | turn turn =>
    have turned : w.turn turn = some w' := step
    unfold Window.turn at turned
    split at turned
    next =>
      obtain ⟨session, hsession, turned⟩ := Option.bind_eq_some_iff.mp turned
      cases Option.some.inj turned
      exact Or.inr ⟨turn, hsession⟩
    next =>
      obtain ⟨⟨next, mirror⟩, _, turned⟩ := Option.bind_eq_some_iff.mp turned
      dsimp only at turned
      split at turned
      next =>
        obtain ⟨session, hsession, turned⟩ := Option.bind_eq_some_iff.mp turned
        cases Option.some.inj turned
        exact Or.inr ⟨turn, hsession⟩
      next => cases turned
  | restart lost =>
    cases Option.some.inj step
    exact Or.inl rfl
  | subscribe | ask | serve | reply =>
    obtain ⟨mirror, _, step⟩ := Option.bind_eq_some_iff.mp step
    cases Option.some.inj step
    exact Or.inl rfl

end Window

namespace Bus

variable {ι : Type} {tk : Gui.Toolkit} {b b' : Bus ι tk} {i : ι} {p : Property}
  {c : Crates} {e : Endian} {dc : DnsCrates} {alloc : Nat → Option (Nat → UInt8)}
  {lookup : Net → List Link → UInt32 → Option FibResult} {s t : System}

theorem tell_eq {order : Nat → Fields → Fields} (perm : ∀ n h, (order n h).Perm h)
    (b : Bus ι tk) : b.tell order = b.current := by
  funext p
  cases p with
  | attached => exact Gui.Attached.fromHashmap_attached (perm _ _)
  | config => exact Gui.Settings.fromHashmap_config (perm _ _)
  | matchList =>
    refine List.ext_getElem? fun n => ?_
    rw [tell, current, List.getElem?_mapIdx, List.getElem?_map]
    refine congrFun (congrArg Option.map (funext fun m => ?_)) _
    exact (Match.Told.of_perm (perm n m.toHashmap)).fromHashmap_gui

/-- A signal about the property is to come. -/
def Owed (b : Bus ι tk) : Property → Prop
  | .attached => b.announcing = true ∨ b.system.reloadLoop.phase ≠ .idle ∨
      b.system.conf.hasChanged b.system.reloadLoop.conf = true ∨
      b.system.routes.hasChanged b.system.reloadLoop.routes = true
  | .matchList => 0 < b.edits
  | .config => 0 < b.updates

/-- The flags of the service are those of the reload that was made last. -/
structure Reported (b : Bus ι tk) : Prop where
  conf_le : b.system.reloadLoop.conf ≤ b.system.conf.version
  routes_le : b.system.reloadLoop.routes ≤ b.system.routes.version
  ruled : ∀ newMark enable rules route,
    b.system.reloadLoop.phase = .ruled newMark enable rules route →
      b.found = Plan.blocker ⟨newMark, rules, route⟩
  refreshing : b.system.reloadLoop.phase = .refreshing →
    ∀ u, b.system.used = some u → b.found = Plan.blocker ⟨0, u.rules, u.route⟩
  idle : b.system.reloadLoop.phase = .idle → ∀ u, b.system.used = some u →
    b.attached = true ∧ b.blocker = Plan.blocker ⟨0, u.rules, u.route⟩

theorem Reported.later (h : b.Reported) (conf : b.system.conf.Later t.conf)
    (routes : b.system.routes.Later t.routes) (reloadLoop : t.reloadLoop = b.system.reloadLoop)
    (used : t.used = b.system.used) : Reported { b with system := t } := by
  have hle := conf.le
  have hle' := routes.le
  obtain ⟨hconf, hroutes, hruled, hrefreshing, hidle⟩ := h
  rw [← reloadLoop] at hconf hroutes hruled hrefreshing hidle
  rw [← used] at hrefreshing hidle
  exact ⟨Nat.le_trans hconf hle, Nat.le_trans hroutes hle', hruled, hrefreshing, hidle⟩

theorem changed_later {α : Type} {w w' : Watch α} {seen : Nat} (later : w.Later w')
    (seen_le : seen ≤ w.version) (h : w.hasChanged seen = true) : w'.hasChanged seen = true := by
  have hle := later.le
  simp only [Watch.hasChanged, bne_iff_ne, ne_eq] at h ⊢
  omega

/-- A channel that still has its value, or a change to be seen. -/
theorem value_or_changed {α : Type} {w w' : Watch α} {seen : Nat} (later : w.Later w')
    (seen_le : seen ≤ w.version) : w'.value = w.value ∨ w'.hasChanged seen = true := by
  have hle := later.le
  by_cases heq : w.version = w'.version
  · exact .inl (later.same heq)
  · refine .inr ?_
    simp only [Watch.hasChanged, bne_iff_ne, ne_eq]
    omega

/-- What a step of the daemon leaves to its signals. -/
structure Fed (b b' : Bus ι tk) : Prop where
  reported : b'.Reported
  windows : b'.windows = b.windows
  owed : ∀ p, b.Owed p → b'.Owed p
  same : ∀ p, b'.Owed p ∨ b'.current p = b.current p

theorem owed_later (h : b.Reported) (conf : b.system.conf.Later t.conf)
    (routes : b.system.routes.Later t.routes) (reloadLoop : t.reloadLoop = b.system.reloadLoop)
    (howed : b.Owed p) : Owed { b with system := t } p := by
  cases p with
  | matchList => exact howed
  | config => exact howed
  | attached =>
    unfold Owed at howed ⊢
    dsimp only
    rw [reloadLoop]
    rcases howed with hannounce | hphase | hconf | hroutes
    · exact .inl hannounce
    · exact .inr (.inl hphase)
    · exact .inr (.inr (.inl (changed_later conf h.conf_le hconf)))
    · exact .inr (.inr (.inr (changed_later routes h.routes_le hroutes)))

theorem attached_later (h : b.Reported) (conf : b.system.conf.Later t.conf)
    (routes : b.system.routes.Later t.routes) (reloadLoop : t.reloadLoop = b.system.reloadLoop) :
    Owed { b with system := t } .attached ∨
      current { b with system := t } .attached = b.current .attached := by
  rcases value_or_changed conf h.conf_le with hconf | hconf
  · rcases value_or_changed routes h.routes_le with hroutes | hroutes
    · refine .inr ?_
      rw [current, current, hconf, hroutes]
    · refine .inl (.inr (.inr (.inr ?_)))
      show t.routes.hasChanged t.reloadLoop.routes = true
      rw [reloadLoop]
      exact hroutes
  · refine .inl (.inr (.inr (.inl ?_)))
    show t.conf.hasChanged t.reloadLoop.conf = true
    rw [reloadLoop]
    exact hconf

theorem fed_routes (h : b.Reported) (conf : t.conf = b.system.conf)
    (routes : b.system.routes.Later t.routes) (reloadLoop : t.reloadLoop = b.system.reloadLoop)
    (used : t.used = b.system.used) : Fed b { b with system := t } := by
  have later : b.system.conf.Later t.conf := conf ▸ .refl _
  refine ⟨h.later later routes reloadLoop used, rfl,
    fun p howed => owed_later h later routes reloadLoop howed, fun p => ?_⟩
  cases p with
  | attached => exact attached_later h later routes reloadLoop
  | matchList => exact .inr (by rw [current, current, conf])
  | config => exact .inr (by rw [current, current, conf])

/-- A step within the iteration, or one that ends it. -/
theorem fed_iteration (reported : b'.Reported) (windows : b'.windows = b.windows)
    (under : b'.announcing = true ∨ b'.system.reloadLoop.phase ≠ .idle)
    (edits : b'.edits = b.edits) (updates : b'.updates = b.updates)
    (conf : b'.system.conf = b.system.conf) : Fed b b' := by
  have howed : b'.Owed .attached := by
    rcases under with hannounce | hphase
    · exact .inl hannounce
    · exact .inr (.inl hphase)
  refine ⟨reported, windows, fun p hp => ?_, fun p => ?_⟩
  · cases p with
    | attached => exact howed
    | matchList => exact Nat.lt_of_lt_of_eq hp edits.symm
    | config => exact Nat.lt_of_lt_of_eq hp updates.symm
  · cases p with
    | attached => exact .inl howed
    | matchList => exact .inr (by rw [current, current, conf])
    | config => exact .inr (by rw [current, current, conf])

theorem follow_change (c : Crates) (b : Bus ι tk) (change : Change) (t : System) :
    ∃ edits updates, b.follow c (.change change) t = { b with system := t, edits, updates } ∧
      b.edits ≤ edits ∧ b.updates ≤ updates := by
  cases change with
  | edit edit =>
    simp only [follow]
    split
    · exact ⟨_, _, rfl, Nat.le_succ _, Nat.le_refl _⟩
    · exact ⟨_, _, rfl, Nat.le_refl _, Nat.le_refl _⟩
  | updateConfig config => exact ⟨_, _, rfl, Nat.le_refl _, Nat.le_succ _⟩
  | _ => exact ⟨_, _, rfl, Nat.le_refl _, Nat.le_refl _⟩

theorem follow_system (c : Crates) (b : Bus ι tk) (event : SystemEvent) (t : System) :
    (b.follow c event t).system = t := by
  cases event with
  | change change =>
    obtain ⟨_, _, heq, _⟩ := follow_change c b change t
    rw [heq]
  | _ => rfl

theorem follow_windows (c : Crates) (b : Bus ι tk) (event : SystemEvent) (t : System) :
    (b.follow c event t).windows = b.windows := by
  cases event with
  | change change =>
    obtain ⟨_, _, heq, _⟩ := follow_change c b change t
    rw [heq]
  | _ => rfl

/-- What a call changes in the list or in the configuration has its signal. -/
theorem change_told {change : Change} (h : b.system.applyChange c e change = some t) :
    (0 < (b.follow c (.change change) t).edits ∨
        t.conf.value.ms.entries = b.system.conf.value.ms.entries) ∧
      (0 < (b.follow c (.change change) t).updates ∨
        t.conf.value.config = b.system.conf.value.config) := by
  obtain ⟨conf, later, ht⟩ := System.applyChange_some h
  cases change with
  | edit edit =>
    have hconfig : t.conf.value.config = b.system.conf.value.config := by
      simp only [System.applyChange] at h
      split at h <;> cases h <;> rfl
    refine ⟨?_, .inr hconfig⟩
    simp only [follow]
    split
    next => exact .inl (Nat.succ_pos _)
    next hsame =>
      have hconf : t.conf = conf := congrArg System.conf ht
      rw [hconf] at hsame ⊢
      exact .inr (by rw [later.same (not_not.mp hsame).symm])
  | updateConfig config =>
    refine ⟨.inr ?_, .inl (Nat.succ_pos _)⟩
    cases Option.some.inj h
    rfl
  | _ =>
    cases Option.some.inj h
    exact ⟨.inr rfl, .inr rfl⟩

theorem fed_change {change : Change} (h : b.Reported)
    (step : b.system.applyChange c e change = some t) :
    Fed b (b.follow c (.change change) t) := by
  obtain ⟨hedits, hupdates⟩ := change_told step
  obtain ⟨conf, later, rfl⟩ := System.applyChange_some step
  obtain ⟨edits, updates, heq, hle, hle'⟩ := follow_change c b change { b.system with conf }
  rw [heq] at hedits hupdates ⊢
  have hreported := h.later (t := { b.system with conf }) later (.refl _) rfl rfl
  refine ⟨⟨hreported.conf_le, hreported.routes_le, hreported.ruled, hreported.refreshing,
    hreported.idle⟩, rfl, fun p howed => ?_, fun p => ?_⟩
  · cases p with
    | attached =>
      exact owed_later (t := { b.system with conf }) h later (.refl _) rfl howed
    | matchList => exact Nat.lt_of_lt_of_le howed hle
    | config => exact Nat.lt_of_lt_of_le howed hle'
  · cases p with
    | attached => exact attached_later (t := { b.system with conf }) h later (.refl _) rfl
    | matchList => exact hedits.imp_right fun hsame => congrArg (List.map Gui.Match.shown) hsame
    | config => exact hupdates.imp_right fun hsame => congrArg Gui.Settings.shown hsame

theorem fed_reloadWake {newMark : UInt32} (b : Bus ι tk)
    (step : b.system.reloadWake newMark = some t) : Fed b (b.follow c (.reloadWake newMark) t) := by
  obtain ⟨_, _, rfl⟩ := System.reloadWake_some step
  refine fed_iteration ⟨Nat.le_refl _, Nat.le_refl _, ?_, ?_, ?_⟩ rfl (.inr ?_) rfl rfl rfl
  · intro _ _ _ _ hphase
    cases hphase
  · intro hphase
    cases hphase
  · intro hphase
    cases hphase
  · intro hphase
    cases hphase

theorem fed_reloadRules (h : b.Reported) (step : b.system.reloadRules c = some t) :
    Fed b (b.follow c .reloadRules t) := by
  obtain ⟨newMark, enable, blocker, net, hphase, hrules, rfl⟩ := System.reloadRules_some step
  obtain ⟨_, hblocker, _⟩ :=
    leads_reloadRules ⟨newMark, b.system.conf.value, b.system.routes.value⟩ hrules
  have hfound : blockerFound c b.system = blocker := by
    rw [blockerFound, hphase]
    dsimp only
    rw [hrules]
    rfl
  refine fed_iteration ⟨h.conf_le, h.routes_le, ?_, ?_, ?_⟩ rfl (.inr ?_) rfl rfl rfl
  · intro newMark' enable' rules route heq
    cases heq
    exact hfound.trans hblocker
  · intro heq
    cases heq
  · intro heq
    cases heq
  · intro heq
    cases heq

theorem fed_reloadBpf (h : b.Reported) (step : b.system.reloadBpf c e alloc = some t) :
    Fed b (b.follow c .reloadBpf t) := by
  obtain ⟨newMark, enable, rules, route, ctx, kernel, hphase, _, rfl⟩ :=
    System.reloadBpf_some step
  refine fed_iteration ⟨h.conf_le, h.routes_le, ?_, ?_, ?_⟩ rfl (.inr ?_) rfl rfl rfl
  · intro _ _ _ _ heq
    cases heq
  · intro _ u hu
    cases Option.some.inj hu
    have hfound := h.ruled _ _ _ _ hphase
    exact hfound
  · intro heq
    cases heq
  · intro heq
    cases heq

theorem fed_reloadDone (h : b.Reported) (step : b.system.reloadDone = some t) :
    Fed b (b.follow c .reloadDone t) := by
  obtain ⟨hphase, rfl⟩ := System.reloadDone_some step
  refine fed_iteration ⟨h.conf_le, h.routes_le, ?_, ?_, ?_⟩ rfl (.inl rfl) rfl rfl rfl
  · intro _ _ _ _ heq
    cases heq
  · intro heq
    cases heq
  · intro _ u hu
    exact ⟨rfl, h.refreshing hphase u hu⟩

theorem fed_step {event : SystemEvent} (h : b.Reported)
    (step : b.system.step c e dc alloc lookup event = some t) : Fed b (b.follow c event t) := by
  cases event with
  | change change => exact fed_change h step
  | routesTurn =>
    obtain ⟨routes, rfl, ⟨rfl, _⟩ | rfl⟩ := System.routesTurn_some step
    · exact fed_routes h rfl (.refl _) rfl rfl
    · exact fed_routes h rfl (Watch.later_send _ _) rfl rfl
  | reloadWake newMark => exact fed_reloadWake b step
  | reloadRules => exact fed_reloadRules h step
  | reloadBpf => exact fed_reloadBpf h step
  | reloadDone => exact fed_reloadDone h step
  | dnsWake =>
    obtain ⟨_, rfl⟩ := System.dnsWake_some step
    exact fed_routes h rfl (.refl _) rfl rfl
  | dnsTurn =>
    obtain ⟨_, _, rfl⟩ := System.dnsTurn_some step
    exact fed_routes h rfl (.refl _) rfl rfl
  | _ =>
    have around := System.step_around step rfl
    rcases System.step_conf step with hconf | ⟨change, heq, _⟩
    · exact fed_routes h hconf (around.routes ▸ .refl _) around.reloadLoop around.used
    · cases heq

/-- The daemon's tasks and flags are sound, and what the app has not got is on its way. -/
structure Inv (c : Crates) (dc : DnsCrates) (i : ι) (b : Bus ι tk) : Prop where
  sound : b.system.Sound c dc
  reported : b.Reported
  tracks : ∀ p, (b.windows i).Tracks b.current b.Owed p

theorem Started.inv (h : b.Started i) : b.Inv c dc i where
  sound := h.system.sound
  reported := by
    have hconf := h.system.conf
    refine ⟨?_, ?_, ?_, ?_, ?_⟩
    · rw [h.system.reloadLoop]
      exact hconf
    · rw [h.system.reloadLoop, h.system.routes]
      exact Nat.le_refl _
    · intro _ _ _ _ hphase
      rw [h.system.reloadLoop] at hphase
      cases hphase
    · intro hphase
      rw [h.system.reloadLoop] at hphase
      cases hphase
    · intro _ u hu
      rw [h.system.used] at hu
      cases hu
  tracks p := by
    refine Mirror.Tracks.of_first ?_
    rw [h.window]
    exact p.mem_all

theorem Fed.inv (fed : Fed b b') (h : b.Inv c dc i) (sound : b'.system.Sound c dc) :
    b'.Inv c dc i := by
  refine ⟨sound, fed.reported, fun p => ?_⟩
  rw [fed.windows]
  exact Mirror.Tracks.change (h.tracks p) (fed.owed p) (fed.same p)

/-- A signal that goes out is no longer owed, and the others still are. -/
theorem announce_some (step : b.announce p = some b') :
    ∃ announcing edits updates, b' = hear { b with announcing, edits, updates } p ∧
      ∀ q, p ≠ q → b.Owed q → Owed { b with announcing, edits, updates } q := by
  cases p with
  | attached =>
    simp only [announce] at step
    split at step
    next =>
      refine ⟨false, b.edits, b.updates, (Option.some.inj step).symm, fun q hq howed => ?_⟩
      cases q with
      | attached => exact absurd rfl hq
      | matchList | config => exact howed
    next => cases step
  | matchList =>
    simp only [announce] at step
    split at step
    next =>
      refine ⟨b.announcing, b.edits - 1, b.updates, (Option.some.inj step).symm,
        fun q hq howed => ?_⟩
      cases q with
      | matchList => exact absurd rfl hq
      | attached | config => exact howed
    next => cases step
  | config =>
    simp only [announce] at step
    split at step
    next =>
      refine ⟨b.announcing, b.edits, b.updates - 1, (Option.some.inj step).symm,
        fun q hq howed => ?_⟩
      cases q with
      | config => exact absurd rfl hq
      | attached | matchList => exact howed
    next => cases step

theorem Inv.announce (h : b.Inv c dc i) (hears : (b.windows i).mirror.Hears p)
    (step : b.announce p = some b') : b'.Inv c dc i := by
  obtain ⟨announcing, edits, updates, rfl, still⟩ := announce_some step
  obtain ⟨hconf, hroutes, hruled, hrefreshing, hidle⟩ := h.reported
  exact ⟨h.sound, ⟨hconf, hroutes, hruled, hrefreshing, hidle⟩, fun q =>
    Mirror.Tracks.hear (h.tracks q) (fun heq => heq ▸ hears) (still q)⟩

section

variable [DecidableEq ι]

theorem Inv.window {j : ι} {event : WindowEvent tk} {w : Window tk} (h : b.Inv c dc i)
    (heard : b.Heard i (.window j event)) (step : (b.windows j).step b.tell event = some w) :
    Inv c dc i { b with windows := Function.update b.windows j w } := by
  obtain ⟨hconf, hroutes, hruled, hrefreshing, hidle⟩ := h.reported
  refine ⟨h.sound, ⟨hconf, hroutes, hruled, hrefreshing, hidle⟩, fun p => ?_⟩
  have told : ∀ order, event = .serve order → b.tell order = b.current := by
    rintro order rfl
    exact tell_eq heard b
  by_cases hj : j = i
  · subst hj
    have tracks := (h.tracks p).step told step
    dsimp only
    rw [Function.update_self]
    exact tracks
  · dsimp only
    rw [Function.update_of_ne (Ne.symm hj)]
    exact h.tracks p

theorem inv_step {event : BusEvent ι tk} (h : b.Inv c dc i) (heard : b.Heard i event)
    (step : b.step c e dc alloc lookup event = some b') : b'.Inv c dc i := by
  cases event with
  | system event =>
    simp only [Bus.step] at step
    split at step
    next => cases step
    next =>
      obtain ⟨t, ht, step⟩ := Option.bind_eq_some_iff.mp step
      cases Option.some.inj step
      refine (fed_step h.reported ht).inv h ?_
      rw [follow_system]
      exact System.sound_step h.sound ht
  | announce p => exact h.announce heard step
  | window j event =>
    obtain ⟨w, hw, step⟩ := Option.bind_eq_some_iff.mp step
    cases Option.some.inj step
    exact h.window heard hw

/-- The app's window handles one message, or is left as it is. -/
theorem session_step {event : BusEvent ι tk}
    (step : b.step c e dc alloc lookup event = some b') :
    (b'.windows i).session = (b.windows i).session ∨
      ∃ turn, (b.windows i).session.step turn = some (b'.windows i).session := by
  cases event with
  | system event =>
    simp only [Bus.step] at step
    split at step
    next => cases step
    next =>
      obtain ⟨t, ht, step⟩ := Option.bind_eq_some_iff.mp step
      cases Option.some.inj step
      exact Or.inl (by rw [follow_windows])
  | announce p =>
    obtain ⟨_, _, _, rfl, _⟩ := announce_some step
    exact Or.inl rfl
  | window j event =>
    obtain ⟨w, hw, step⟩ := Option.bind_eq_some_iff.mp step
    cases Option.some.inj step
    dsimp only
    by_cases hj : i = j
    · subst hj
      rw [Function.update_self]
      exact Window.session_step hw
    · rw [Function.update_of_ne hj]
      exact Or.inl rfl

/-- Once the daemon's tasks and its signals rest, and nothing is on its way to an app, its
window shows the daemon as it is: the output and what is in its way, the list of matches,
and the settings, unless the user has edited them since. -/
theorem window_shows {b₀ : Bus ι tk} {events : List (BusEvent ι tk)} (start : b₀.Started i)
    (run : Run (Bus.step c e dc alloc lookup) (Bus.Heard i) b₀ events b) (quiet : b.Quiet)
    (idle : (b.windows i).mirror.Idle) :
    let conf := b.system.conf.value
    let route := b.system.routes.value
    let session := (b.windows i).session
    session.state.attached = .shown conf true (Plan.blocker ⟨0, conf, route⟩) route ∧
      session.state.entries.map (·.1) = conf.ms.entries.map .shown ∧
      session.state.settings = session.draft.getD (.shown conf.config) ∧
      (session.draft = none → session.state.settingsOverride = .shown conf.config) := by
  have h := run.invariant (I := Bus.Inv c dc i) (fun _ _ _ h heard step => inv_step h heard step)
    start.inv
  have hsettings : (b.windows i).session.SettingsShown := by
    refine run.invariant (I := fun b => (b.windows i).session.SettingsShown) ?_ ?_
    · intro b event b' h _ step
      obtain hsame | ⟨turn, hturn⟩ := session_step (i := i) step
      · rwa [hsame]
      · exact h.step hturn
    · obtain ⟨trayTheme, unique, hsession⟩ := start.session
      rw [hsession]
      exact .started tk trayTheme unique
  obtain ⟨hannounce, hedits, hupdates⟩ := quiet.signals
  obtain ⟨_, ⟨hconf, hroutes, _⟩, _, hidle, _⟩ := quiet.system
  have unowed : ∀ p, ¬b.Owed p := by
    intro p
    cases p with
    | attached => simp [Owed, hannounce, hidle, hconf, hroutes]
    | matchList => simp [Owed, hedits]
    | config => simp [Owed, hupdates]
  have shows := fun p => (h.tracks p).shows idle (unowed p)
  have hreceived : (b.windows i).session.received.getD .default =
      .shown b.system.conf.value.config := shows .config
  obtain ⟨hattached, hblocker⟩ := h.reported.idle hidle _ (h.sound.settled quiet.system).used
  refine ⟨(shows .attached).trans ?_, shows .matchList, ?_, fun hnone => ?_⟩
  · rw [current, hattached, hblocker]
  · rw [← hreceived]
    exact hsettings.settings
  · rw [← hreceived]
    exact hsettings.settingsOverride hnone

/-- The app on the host of `wgSystem`. -/
def wgBus : Bus Unit Gui.plainToolkit where
  system := wgSystem
  attached := false
  blocker := ""
  found := ""
  announcing := false
  edits := 0
  updates := 0
  windows _ := ⟨.start Property.all, .started Gui.plainToolkit .dark id⟩

def noLan : Config := { Config.default with allowLan := false }

def read : List (BusEvent Unit Gui.plainToolkit) :=
  [.window () .ask, .window () (.serve fun _ => List.reverse), .window () .reply]

def shownOf (config : Config) : Gui.Attached :=
  .shown { wgSystem.conf.value with config } true "" (some ⟨true, 2, "wg0", [], none⟩)

def got (msg : Gui.M Gui.plainToolkit) : BusEvent Unit Gui.plainToolkit :=
  .window () (.turn (.plain msg))

/-- The configuration changes after the app has subscribed. -/
def wgEvents : List (BusEvent Unit Gui.plainToolkit) :=
  (turns 70001).map .system ++
    .announce .attached :: (read ++ read ++ read ++
      [.window () .subscribe, .system (.change (.updateConfig noLan))]) ++
    .announce .config :: (turns 70002).map .system ++
    .announce .attached :: (read ++ read ++
      [got (.attached (shownOf .default)), got (.newMatches [.shown anyRule]),
        got (.settings (.shown .default)), got (.settings (.shown noLan)),
        got (.attached (shownOf noLan))])

set_option maxRecDepth 4000 in
theorem window_shows_wg :
    ∃ b, Run (Bus.step anyCrates .little sampleDnsCrates zeroedPages firstMain) (Bus.Heard ())
        wgBus wgEvents b ∧
      (b.windows ()).session.state.attached = shownOf noLan ∧
      (b.windows ()).session.state.settings = .shown noLan := by
  have start : wgBus.Started () :=
    ⟨wgSystem_started, rfl, ⟨rfl, rfl, rfl⟩, rfl, ⟨_, _, rfl⟩⟩
  have run : ∃ b, Run (Bus.step anyCrates .little sampleDnsCrates zeroedPages firstMain)
      (Bus.Heard ()) wgBus wgEvents b ∧ b.Quiet ∧ (b.windows ()).mirror.Idle ∧
      Gui.Attached.shown b.system.conf.value true
        (Plan.blocker ⟨0, b.system.conf.value, b.system.routes.value⟩) b.system.routes.value =
          shownOf noLan ∧
      (b.windows ()).session.draft.getD (.shown b.system.conf.value.config) = .shown noLan := by
    refine ⟨_, (((Run.of_foldlM_all rfl ?_).append (.cons ?_ rfl (.of_foldlM_all rfl ?_))).append
      (.cons ?_ rfl (.of_foldlM_all rfl ?_))).append (.cons ?_ rfl (.of_foldlM_all rfl ?_)),
      ⟨⟨⟨rfl, rfl⟩, ⟨rfl, rfl, rfl⟩, ⟨rfl, rfl, rfl⟩, rfl, rfl⟩, rfl, rfl, rfl⟩,
      ⟨rfl, rfl, rfl, rfl⟩, rfl, rfl⟩
    · simp [turns, Heard]
    · exact .inr (.inl (by decide))
    · simp [read, Heard, List.reverse_perm]
    · exact .inl rfl
    · simp [turns, Heard]
    · exact .inl rfl
    · simp [read, got, Heard, List.reverse_perm]
  obtain ⟨b, run, quiet, idle, hshown, hsettings⟩ := run
  obtain ⟨hattached, _, hconfig, _⟩ := window_shows start run quiet idle
  exact ⟨b, run, hattached.trans hshown, hconfig.trans hsettings⟩

end

end Bus

end Rebpf
