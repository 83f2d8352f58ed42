import Rebpf.GuiRollback
import Rebpf.Lib.Mirror
import Rebpf.SettingsMap

namespace Rebpf

open Lib

/-- The properties that the service publishes. -/
inductive Property
  | attached
  | matchList
  | config
deriving DecidableEq, Repr

namespace Property

def all : List Property := [.attached, .matchList, .config]

theorem mem_all (p : Property) : p ∈ all := by cases p <;> decide

/-- What the app makes of a property. -/
abbrev Value : Property → Type
  | .attached => Gui.Attached
  | .matchList => List Gui.Match
  | .config => Gui.Settings

instance valueDecidableEq : ∀ p : Property, DecidableEq p.Value
  | .attached => inferInstanceAs (DecidableEq Gui.Attached)
  | .matchList => inferInstanceAs (DecidableEq (List Gui.Match))
  | .config => inferInstanceAs (DecidableEq Gui.Settings)

end Property

/-- What `attached` puts into its map, of the state, the two flags of the last reload and
the output. -/
def attachedFields (conf : State) (attached : Bool) (blocker : String) (route : Option Route) :
    Fields :=
  [("enabled", toString conf.enable), ("attached", toString attached)] ++
    textField "blocker" blocker ++
    match route with
    | some link => [("to-is-up", toString link.isUp), ("to-ifname", link.ifname),
        ("to-ifindex", toString link.ifindex)] ++
        (link.addrs.head?.map fun addr => ("to-addr", ipv4ToString addr)).toList
    | none => [("to-ifname", conf.toDev)]

namespace Gui

namespace Attached

def setField (s : Attached) (field : String × String) : Attached :=
  match fieldKey field.1 with
  | "enabled" => { s with enabled := (parseBool field.2).toOption.getD s.enabled }
  | "attached" => { s with attached := (parseBool field.2).toOption.getD s.attached }
  | "blocker" => { s with blocker := field.2 }
  | "to_ifname" => { s with toIfname := field.2 }
  | "to_ifindex" => { s with toIfindex := field.2 }
  | "to_addr" => { s with toAddr := field.2 }
  | _ => s

def fromHashmap (h : Fields) : Attached := h.foldl setField default

/-- What the window is to show of the service. -/
def shown (conf : Rebpf.State) (attached : Bool) (blocker : String) (route : Option Route) :
    Attached where
  enabled := conf.enable
  attached := attached
  blocker := blocker
  toIfname := (route.map (·.ifname)).getD conf.toDev
  toIfindex := (route.map fun link => toString link.ifindex).getD ""
  toAddr := ((route.bind (·.addrs.head?)).map ipv4ToString).getD ""

/-- Some of it, under the keys of the map. -/
def takeOver (g s : Attached) (keys : List String) : Attached where
  enabled := if "enabled" ∈ keys then g.enabled else s.enabled
  attached := if "attached" ∈ keys then g.attached else s.attached
  blocker := if "blocker" ∈ keys then g.blocker else s.blocker
  toIfname := if "to-ifname" ∈ keys then g.toIfname else s.toIfname
  toIfindex := if "to-ifindex" ∈ keys then g.toIfindex else s.toIfindex
  toAddr := if "to-addr" ∈ keys then g.toAddr else s.toAddr

variable {conf : Rebpf.State} {attached : Bool} {blocker : String} {route : Option Route}
  {h : Fields}

theorem mem_attachedFields {x : String × String} :
    x ∈ attachedFields conf attached blocker route ↔
      x = ("enabled", toString conf.enable) ∨ x = ("attached", toString attached) ∨
      (blocker ≠ "" ∧ x = ("blocker", blocker)) ∨
      (∃ link, route = some link ∧ (x = ("to-is-up", toString link.isUp) ∨
        x = ("to-ifindex", toString link.ifindex) ∨
        ∃ addr, link.addrs.head? = some addr ∧ x = ("to-addr", ipv4ToString addr))) ∨
      x = ("to-ifname", (route.map (·.ifname)).getD conf.toDev) := by
  unfold attachedFields textField
  cases route with
  | none =>
    split
    next hne => simp [hne]
    next heq => simp [not_not.mp heq]
  | some link =>
    cases hhead : link.addrs.head? with
    | none =>
      split
      next hne => simp [hne, hhead]; tauto
      next heq => simp [not_not.mp heq, hhead]; tauto
    | some addr =>
      split
      next hne => simp [hne, hhead]; tauto
      next heq => simp [not_not.mp heq, hhead]; tauto

theorem fieldKey_attached :
    ["enabled", "attached", "blocker", "to-is-up", "to-ifindex", "to-addr", "to-ifname"].map
        fieldKey =
      ["enabled", "attached", "blocker", "to_is_up", "to_ifindex", "to_addr", "to_ifname"] := by
  decide

theorem setField_takeOver (s : Attached) (keys : List String) {x : String × String}
    (hx : x ∈ attachedFields conf attached blocker route) :
    ((shown conf attached blocker route).takeOver s keys).setField x =
      (shown conf attached blocker route).takeOver s (keys ++ [x.1]) := by
  have hkeys := fieldKey_attached
  simp only [List.map_cons, List.map_nil, List.cons.injEq, and_true] at hkeys
  obtain ⟨henabled, hattached, hblocker, hup, hindex, haddr, hname⟩ := hkeys
  rcases mem_attachedFields.mp hx with rfl | rfl | ⟨_, rfl⟩ |
    ⟨link, rfl, rfl | rfl | ⟨addr, hhead, rfl⟩⟩ | rfl
  · simp [setField, takeOver, henabled, parseBool_toString, Except.toOption, shown]
  · simp [setField, takeOver, hattached, parseBool_toString, Except.toOption, shown]
  · simp [setField, takeOver, hblocker, shown]
  · simp [setField, takeOver, hup]
  · simp [setField, takeOver, hindex, shown]
  · simp [setField, takeOver, haddr, shown, hhead]
  · simp [setField, takeOver, hname, shown]

/-- The window shows what the service tells of itself. -/
theorem fromHashmap_attached (perm : h.Perm (attachedFields conf attached blocker route)) :
    fromHashmap h = shown conf attached blocker route := by
  have keys : ∀ k, k ∈ h.map Prod.fst ↔
      k ∈ (attachedFields conf attached blocker route).map Prod.fst := fun k =>
    (perm.map Prod.fst).mem_iff
  have done : (shown conf attached blocker route).takeOver default (h.map Prod.fst) =
      shown conf attached blocker route := by
    cases route with
    | none =>
      by_cases hblocker : blocker = "" <;>
        simp [takeOver, keys, attachedFields, textField, hblocker, shown, default]
    | some link =>
      cases hhead : link.addrs.head? <;> by_cases hblocker : blocker = "" <;>
        simp [takeOver, keys, attachedFields, textField, hblocker, shown, default, hhead]
  have start : default = (shown conf attached blocker route).takeOver default [] := rfl
  have each : ∀ keys, ∀ x ∈ h,
      ((shown conf attached blocker route).takeOver default keys).setField x =
        (shown conf attached blocker route).takeOver default (keys ++ [x.1]) :=
    fun keys x hx => setField_takeOver default keys (perm.mem_iff.mp hx)
  have hfold := @foldl_keys _ _ _ Prod.fst
    (fun keys => (shown conf attached blocker route).takeOver default keys) h _ each []
  rw [List.nil_append, done] at hfold
  rw [fromHashmap, start]
  exact hfold

end Attached

section

variable {tk : Toolkit} {w : World} {s t : State tk} {task : Task}

/-- What the window has of the service. -/
def State.told (s : State tk) : Attached × List Match := (s.attached, s.entries.map (·.1))

/-- What a message makes of it. -/
def State.toldBy (s : State tk) : M tk → Attached × List Match
  | .attached n => (n, s.told.2)
  | .newMatches n => (s.told.1, n)
  | .dbusFail _ | .dbusCantConnect _ => (.default, [])
  | _ => s.told

theorem told_sendD {d : D} (h : s.sendD w d = .ok t) : t.told = s.told := by
  obtain ⟨_, _, rfl⟩ := sendD_ok h
  rfl

theorem told_sendTray {x : TrayState} (h : s.sendTray w x = .ok t) : t.told = s.told := by
  obtain ⟨_, _, rfl⟩ := sendTray_ok h
  rfl

theorem told_sent {d : D} {f : State tk → State tk × Task}
    (h : (s.sendD w d >>= fun s => pure (f s)) = .ok (t, task))
    (keeps : ∀ s : State tk, (f s).1.told = s.told) : t.told = s.told := by
  obtain ⟨mid, hmid, h⟩ := bind_eq_ok.mp h
  have ht : f mid = (t, task) := pure_eq_ok.mp h
  rw [← told_sendD hmid, ← keeps mid, ht]

theorem told_settingsSubmit (h : settingsSubmit w s = .ok (t, task)) : t.told = s.told := by
  unfold settingsSubmit at h
  split at h
  next => exact told_sent h fun _ => rfl
  next => cases h; rfl

theorem told_outputDevSubmit (h : outputDevSubmit w s = .ok (t, task)) : t.told = s.told := by
  unfold outputDevSubmit at h
  dsimp only at h
  split at h
  next =>
    have sent := told_sent h fun _ => rfl
    exact sent
  next => cases h; rfl

theorem told_dbusErr (s : State tk) (err : tk.Error) : (dbusErr s err).told = s.told := by
  unfold dbusErr
  dsimp only
  split <;> rfl

theorem told_dbusCantConnect {err : tk.Error} (h : dbusCantConnect w s err = .ok (t, task)) :
    t.told = (.default, []) := by
  obtain ⟨mid, hmid, h⟩ := bind_eq_ok.mp h
  obtain ⟨last, hlast, h⟩ := bind_eq_ok.mp h
  cases pure_eq_ok.mp h
  rw [told_sendTray hlast, bumpGen_ok hmid]
  rfl

theorem told_sendEdited {i : Nat} {edited : Option Match} (h : s.sendEdited w i edited = .ok t) :
    t.told = s.told := by
  rcases sendEdited_ok h with rfl | ⟨_, _, _, h⟩
  · rfl
  · exact told_sendD h

theorem told_matchSubmit {i : Nat} (h : matchSubmit w s i = .ok (t, task)) : t.told = s.told := by
  obtain ⟨mid, hmid, h⟩ := bind_eq_ok.mp h
  obtain ⟨_, _, h⟩ := bind_eq_ok.mp h
  cases pure_eq_ok.mp h
  have same := told_sendEdited hmid
  exact same

theorem told_editAndSubmit {g i : Nat} {change : Match → Match}
    (h : update.editAndSubmit w s g i change = .ok (t, task)) : t.told = s.told := by
  unfold update.editAndSubmit at h
  split at h
  next =>
    obtain ⟨mid, hmid, h⟩ := bind_eq_ok.mp h
    obtain ⟨_, m, rfl⟩ := editRow_ok hmid
    have same := told_matchSubmit h
    exact same
  next => cases h; rfl

/-- Only what the service says changes it, and the loss of the connection. -/
theorem update_told {m : M tk} (h : update w s m = .ok (t, task)) : t.told = s.toldBy m := by
  cases m with
  | settingsSubmit | settingsDnsIpSubmit => exact told_settingsSubmit h
  | settingsClose | settingsLan n | settingsDns n | settingsDropEgressWithoutOutput n =>
    have same := told_settingsSubmit h
    exact same
  | enable | disable | matchAdd => exact told_sent h fun _ => rfl
  | windowToggle | windowOpen | windowCloseId _ =>
    simp only [update, update.closeWindow, update.openWindow] at h
    split at h
    all_goals first
      | exact told_sent h fun _ => rfl
      | cases h; rfl
  | matchDelete g i =>
    simp only [update] at h
    split at h
    next =>
      obtain ⟨x, _, h⟩ := bind_eq_ok.mp h
      exact told_sent h fun _ => rfl
    next => cases h; rfl
  | matchUpdate g i n =>
    simp only [update] at h
    split at h
    next =>
      obtain ⟨mid, hmid, h⟩ := bind_eq_ok.mp h
      obtain ⟨_, m, rfl⟩ := editRow_ok hmid
      cases h
      rfl
    next => cases h; rfl
  | matchKind g i k | matchMethod g i k | matchUpdateDir g i => exact told_editAndSubmit h
  | matchSubmit g i =>
    simp only [update] at h
    split at h
    next => exact told_matchSubmit h
    next => cases h; rfl
  | matchDir =>
    simp only [update] at h
    split at h
    all_goals cases h
    all_goals rfl
  | matchFromProc g i =>
    simp only [update] at h
    split at h
    next =>
      obtain ⟨x, _, rfl⟩ := matchFromProc_ok h
      rfl
    next => cases h; rfl
  | procs n =>
    simp only [update, procs] at h
    split at h
    next =>
      obtain ⟨mid, hmid, h⟩ := bind_eq_ok.mp h
      cases pure_eq_ok.mp h
      rw [refreshProcsAll_ok hmid]
      rfl
    next => cases h; rfl
  | outputDevUnfocus | outputDevPopupUnfocus =>
    simp only [update] at h
    split at h
    next => cases h; rfl
    next => exact told_outputDevSubmit h
  | outputDevSubmit => exact told_outputDevSubmit h
  | outputDevSetSubmit n =>
    obtain ⟨⟨mid, task'⟩, hmid, h⟩ := bind_eq_ok.mp h
    cases h
    have same := told_outputDevSubmit hmid
    exact same
  | attached n =>
    obtain ⟨mid, hmid, h⟩ := bind_eq_ok.mp h
    cases h
    have same := told_sendTray hmid
    exact same
  | newMatches n =>
    obtain ⟨mid, hmid, h⟩ := bind_eq_ok.mp h
    cases h
    rw [bumpGen_ok hmid]
    refine Prod.ext rfl ?_
    show (n.mapIdx fun k m => (m, w.unique k)).map (·.1) = n
    refine List.ext_getElem? fun i => ?_
    rw [List.getElem?_map, List.getElem?_mapIdx, Option.map_map]
    exact Option.map_id'
  | activeProcs n =>
    obtain ⟨mid, hmid, h⟩ := bind_eq_ok.mp h
    cases h
    rw [bumpGen_ok hmid]
    rfl
  | dbusFail err =>
    obtain ⟨⟨mid, task'⟩, hmid, h⟩ := bind_eq_ok.mp h
    cases h
    exact told_dbusCantConnect hmid
  | dbusErr err =>
    cases h
    exact told_dbusErr s err
  | dbusCantConnect err => exact told_dbusCantConnect h
  | esc =>
    simp only [update] at h
    split at h
    next => cases h; rfl
    next =>
      split at h
      next => cases h; rfl
      next =>
        split at h
        all_goals cases h
        all_goals rfl
  | statusShow =>
    simp only [update] at h
    split at h
    next err _ =>
      cases h
      exact told_dbusErr s err
    next => cases h; rfl
  | _ => cases h; rfl

/-- The news of the service that a message is. -/
def newsOf : M tk → Option (News Property.Value)
  | .attached n => some (.told .attached n)
  | .newMatches n => some (.told .matchList n)
  | .settings n => some (.told .config n)
  | .dbusFail _ | .dbusCantConnect _ => some .lost
  | _ => none

/-- What the window has last got of each property. -/
def Session.view (s : Session tk) : ∀ p, Property.Value p
  | .attached => s.state.attached
  | .matchList => s.state.entries.map (·.1)
  | .config => s.received.getD .default

/-- What is left of it when the connection is lost. -/
def cleared (shown : ∀ p, Property.Value p) : ∀ p, Property.Value p
  | .attached => .default
  | .matchList => []
  | .config => shown .config

theorem Session.view_step {s t : Session tk} {e : Turn tk} (h : s.step e = some t) :
    t.view = ((newsOf e.msg).map (Mirror.put cleared s.view)).getD s.view := by
  obtain ⟨task, hupdate, _, _, hreceived⟩ := Session.step_ok h
  have htold := update_told hupdate
  have hattached : t.state.attached = (s.state.toldBy e.msg).1 := congrArg Prod.fst htold
  have hentries : t.state.entries.map (·.1) = (s.state.toldBy e.msg).2 := congrArg Prod.snd htold
  have hconfig : t.view .config = t.received.getD .default := rfl
  rw [hreceived] at hconfig
  funext p
  cases p with
  | attached =>
    refine hattached.trans ?_
    cases e.msg <;> rfl
  | matchList =>
    refine hentries.trans ?_
    cases e.msg <;> rfl
  | config =>
    refine hconfig.trans ?_
    cases e.msg <;> rfl

/-- The settings put in last since the window was told of some. -/
def draftOf : List (State tk × Turn tk) → Option Settings
  | [] => none
  | (s, e) :: past =>
    match s.aim e.world e.msg with
    | .edit n => some n
    | .told _ => none
    | _ => draftOf past

def Session.draft (s : Session tk) : Option Settings := draftOf s.history

/-- The window has the settings it was told of, or what the user has made of them since. -/
structure Session.SettingsShown (s : Session tk) : Prop where
  settings : s.state.settings = s.draft.getD (s.received.getD .default)
  settingsOverride : s.draft = none → s.state.settingsOverride = s.received.getD .default

theorem Session.SettingsShown.started (tk : Toolkit) (trayTheme : TrayTheme) (unique : Nat → Id) :
    (Session.started tk trayTheme unique).SettingsShown := ⟨rfl, fun _ => rfl⟩

theorem Session.SettingsShown.step {s t : Session tk} {e : Turn tk} (h : s.SettingsShown)
    (taken : s.step e = some t) : t.SettingsShown := by
  obtain ⟨_, _, hhistory, _, hreceived⟩ := Session.step_ok taken
  have moves := Session.step_moves taken
  have hdraft : t.draft = draftOf ((s.state, e) :: s.history) := congrArg draftOf hhistory
  have htold := @State.aim_told tk e.world s.state e.msg
  rw [draftOf] at hdraft
  generalize s.state.aim e.world e.msg = aim at moves hdraft htold
  generalize hpanes : t.state.panes = panes at moves
  have hshown : t.state.settings = panes.settings := congrArg Panes.settings hpanes
  have htaken : t.state.settingsOverride = panes.settingsOverride :=
    congrArg Panes.settingsOverride hpanes
  have same : (∀ n, aim ≠ .told n) → t.received = s.received := by
    intro other
    rw [hreceived]
    split
    next n hn => exact absurd (htold.mpr hn) (other n)
    next => rfl
  cases moves with
  | @told n =>
    have hmsg : e.msg = .settings n := htold.mp rfl
    rw [hmsg] at hreceived
    have hgot : t.received.getD .default = n := by rw [hreceived, Option.getD_some]
    refine ⟨?_, fun _ => ?_⟩
    · rw [hshown, hdraft, hgot]
      rfl
    · rw [htaken, hgot]
  | @edited n =>
    refine ⟨?_, fun hnone => ?_⟩
    · rw [hshown, hdraft]
      rfl
    · rw [hdraft] at hnone
      cases hnone
  | failed | lost =>
    have hkept : t.draft = s.draft := hdraft
    refine ⟨?_, fun hnone => ?_⟩
    · rw [hshown, hkept, same (by simp)]
      exact h.settings
    · have hsettings := h.settings
      rw [hkept] at hnone
      rw [hnone, Option.getD_none] at hsettings
      rw [htaken, same (by simp)]
      exact hsettings
  | aside | renewed | counted | row | relisted =>
    have hkept : t.draft = s.draft := hdraft
    refine ⟨?_, fun hnone => ?_⟩
    · rw [hshown, hkept, same (by simp)]
      exact h.settings
    · rw [htaken, same (by simp)]
      exact h.settingsOverride (hkept.symm.trans hnone)

end

end Gui

end Rebpf
