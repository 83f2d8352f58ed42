import Rebpf.GuiPanes
import Rebpf.Lib.Run
import Rebpf.SettingsEdits

namespace Rebpf

open Lib

namespace Gui

section

variable {tk : Toolkit} {w : World} {s : State tk}

theorem State.handlesErr_iff {m : M tk} :
    s.handlesErr m = true ↔ s.aim w m = .failed ∨ s.aim w m = .lost := by
  cases m with
  | dbusErr _ => exact iff_of_true rfl (.inl rfl)
  | dbusFail _ => exact iff_of_true rfl (.inr rfl)
  | statusShow =>
    cases herr : s.dbusConnErr with
    | none => simp [State.handlesErr, State.aim, herr]
    | some err => simp [State.handlesErr, State.aim, herr]
  | matchUpdate | matchKind | matchMethod | matchUpdateDir | matchSubmit | matchFromProc =>
    simp only [State.handlesErr, State.aim]
    split
    all_goals simp
  | _ => simp [State.handlesErr, State.aim]

theorem State.aim_told {m : M tk} {n : Settings} : s.aim w m = .told n ↔ m = .settings n := by
  cases m with
  | settings n' => simp [State.aim]
  | statusShow =>
    simp only [State.aim]
    split
    all_goals simp
  | matchUpdate | matchKind | matchMethod | matchUpdateDir | matchSubmit | matchFromProc =>
    simp only [State.aim]
    split
    all_goals simp
  | _ => simp [State.aim]

end

namespace Session

section

variable {tk : Toolkit}

/-- The override is the settings received last, and after an error they are shown. -/
def RolledBack (s : Session tk) : Prop :=
  ∀ n ∈ s.received, s.state.settingsOverride = n ∧ (s.failed = true → s.state.settings = n)

/-- No edit of the settings is under way when an error is handled. -/
def Unedited (s : Session tk) (e : Turn tk) : Prop :=
  s.state.handlesErr e.msg = true → ∀ n ∈ s.received, s.state.settings = n

variable {s t : Session tk} {e : Turn tk}

theorem received_same (h : s.step e = some t) (other : ∀ n, e.msg ≠ .settings n) :
    t.received = s.received := by
  obtain ⟨_, _, _, _, hreceived⟩ := step_ok h
  rw [hreceived]
  split
  next n hn => exact absurd hn (other n)
  next => rfl

/-- Neither an error nor a notification: the override stays. -/
theorem RolledBack.quiet (inv : s.RolledBack) (h : s.step e = some t)
    (other : ∀ n, e.msg ≠ .settings n) (hnot : s.state.handlesErr e.msg = false)
    (same : t.state.settingsOverride = s.state.settingsOverride) :
    t.RolledBack ↔ s.Unedited e := by
  obtain ⟨_, _, _, hfailed, _⟩ := step_ok h
  refine iff_of_true (fun n hn => ?_) (fun herr => ?_)
  · rw [received_same h other] at hn
    rw [same, hfailed, hnot]
    exact ⟨(inv n hn).1, fun herr => by cases herr⟩
  · rw [hnot] at herr
    cases herr

/-- An error makes the override of what is shown. -/
theorem rolledBack_failed (h : s.step e = some t) (herr : s.state.handlesErr e.msg = true)
    (shown : t.state.settings = s.state.settings)
    (taken : t.state.settingsOverride = s.state.settings) : t.RolledBack ↔ s.Unedited e := by
  have other : ∀ n, e.msg ≠ .settings n := fun n hn => by
    rw [hn] at herr
    cases herr
  obtain ⟨_, _, _, hfailed, _⟩ := step_ok h
  rw [RolledBack, Unedited, received_same h other, hfailed, herr, shown, taken]
  simp only [forall_const, and_self]

theorem RolledBack.step_iff (inv : s.RolledBack) (h : s.step e = some t) :
    t.RolledBack ↔ s.Unedited e := by
  have moves := step_moves h
  have herr := @State.handlesErr_iff tk e.world s.state e.msg
  have htold := @State.aim_told tk e.world s.state e.msg
  generalize s.state.aim e.world e.msg = aim at moves herr htold
  generalize hpanes : t.state.panes = panes at moves
  have hshown : t.state.settings = panes.settings := congrArg Panes.settings hpanes
  have htaken : t.state.settingsOverride = panes.settingsOverride :=
    congrArg Panes.settingsOverride hpanes
  cases moves with
  | @told n =>
    have hmsg : e.msg = .settings n := htold.mp rfl
    obtain ⟨_, _, _, _, hreceived⟩ := step_ok h
    rw [hmsg] at hreceived
    refine iff_of_true (fun n' hn' => ?_) (fun hhandles => ?_)
    · rw [hreceived] at hn'
      cases hn'
      exact ⟨htaken, fun _ => hshown⟩
    · rw [hmsg] at hhandles
      cases hhandles
  | failed => exact rolledBack_failed h (herr.mpr (.inl rfl)) hshown htaken
  | lost => exact rolledBack_failed h (herr.mpr (.inr rfl)) hshown htaken
  | aside | edited | renewed | counted | row | relisted =>
    refine inv.quiet h (fun n hn => ?_) (Bool.eq_false_iff.mpr fun hyes => ?_) htaken
    · cases htold.mpr hn
    · rcases herr.mp hyes with heq | heq
      all_goals cases heq

/-- The runs in which no edit is under way when an error is handled are those in which
the settings are rolled back throughout. -/
theorem uneditedRun_iff (tk : Toolkit) (trayTheme : TrayTheme) (unique : Nat → Id)
    (es : List (Turn tk)) (t : Session tk) :
    Run step Unedited (started tk trayTheme unique) es t ↔
      Run step (fun s _ => s.RolledBack) (started tk trayTheme unique) es t ∧ t.RolledBack :=
  Run.iff_throughout (fun _ _ _ inv taken => inv.step_iff taken) fun _ hn => by cases hn

end

end Session

/-- An edit that the service refuses. -/
def refusedEdit : List (Turn plainToolkit) :=
  [.plain (.settings .default), .plain (.settingsLan true), .plain (.dbusErr "Denied")]

/-- The edit is taken over, not rolled back. -/
theorem not_rolledBack : ¬∀ (es : List (Turn plainToolkit)) (t : Session plainToolkit),
    Run Session.step (fun _ _ => True) (.started plainToolkit .dark id) es t → t.RolledBack := by
  intro rolled
  cases hend : refusedEdit.foldlM Session.step (.started plainToolkit .dark id) with
  | none => cases hend
  | some t =>
    have run := Run.of_foldlM hend
    cases hend
    have hover := (rolled _ _ run .default rfl).1
    exact absurd (congrArg Settings.allowLan hover) (by decide)

end Gui

section

variable {tk : Gui.Toolkit} {w : Gui.World} {s t : Gui.State tk} {task : Gui.Task} {a : App}

def UserMsg.toM : UserMsg → Gui.M tk
  | .settingsLan n => .settingsLan n
  | .settingsDns n => .settingsDns n
  | .settingsDnsIp n => .settingsDnsIp n
  | .settingsDnsIpSubmit => .settingsDnsIpSubmit
  | .settingsDropEgressWithoutOutput n => .settingsDropEgressWithoutOutput n
  | .settingsClose => .settingsClose

/-- An app is what its window has of the settings. -/
structure App.Mirrors (a : App) (s : Gui.State tk) : Prop where
  settings : a.settings = s.settings
  settingsOverride : a.settingsOverride = s.settingsOverride

/-- It mirrors a message that sent the same updates. -/
structure App.Follows (a a' : App) (s t : Gui.State tk) : Prop where
  mirrors : a'.Mirrors t
  sent : ∃ new, a'.sent = a.sent ++ new ∧
    t.dTx = s.dTx.map (· ++ new.map fun r => .settingsUpdate r.settings)

theorem App.Mirrors.settingsSubmit (mirrors : a.Mirrors s)
    (h : Gui.settingsSubmit w s = .ok (t, task)) : a.Follows a.settingsSubmit s t := by
  unfold Gui.settingsSubmit at h
  unfold App.settingsSubmit
  rw [mirrors.settings, mirrors.settingsOverride]
  split at h
  next hne =>
    obtain ⟨mid, hmid, h⟩ := bind_eq_ok.mp h
    obtain ⟨sent, hsent, hmid⟩ := bind_eq_ok.mp hmid
    obtain ⟨_, _, hmid⟩ := bind_eq_ok.mp hmid
    cases pure_eq_ok.mp hmid
    cases pure_eq_ok.mp h
    rw [if_pos hne]
    refine ⟨⟨rfl, rfl⟩, _, rfl, ?_⟩
    rw [orErr_eq_ok.mp hsent, Option.map_some, List.map_singleton]
  next heq =>
    cases h
    rw [if_neg heq]
    refine ⟨mirrors, [], (List.append_nil _).symm, ?_⟩
    simp only [List.map_nil, List.append_nil, Option.map_id_fun', id_eq]

/-- An edit is mirrored if what comes of it is submitted as the window submits it. -/
theorem App.Mirrors.edit (mirrors : a.Mirrors s) {field : SettingsField} {n : Gui.Settings}
    (h : Gui.settingsSubmit w { s with settings := n } = .ok (t, task)) :
    a.Follows (a.edit field n).settingsSubmit s t := by
  have edited : (a.edit field n).Mirrors { s with settings := n } := ⟨rfl, mirrors.settingsOverride⟩
  have follows := edited.settingsSubmit h
  exact ⟨follows.mirrors, follows.sent⟩

/-- The app does what its window does with a message of the user. -/
theorem App.Mirrors.update (mirrors : a.Mirrors s) (msg : UserMsg)
    (h : Gui.update w s msg.toM = .ok (t, task)) : a.Follows (a.update msg) s t := by
  cases msg with
  | settingsLan n | settingsDns n | settingsDropEgressWithoutOutput n =>
    rw [App.update, mirrors.settings]
    exact mirrors.edit h
  | settingsDnsIp n =>
    cases h
    refine ⟨⟨?_, mirrors.settingsOverride⟩, [], (List.append_nil _).symm, ?_⟩
    · rw [App.update, mirrors.settings]
      rfl
    · simp only [List.map_nil, List.append_nil, Option.map_id_fun', id_eq]
  | settingsDnsIpSubmit => exact mirrors.settingsSubmit h
  | settingsClose =>
    have closed : a.Mirrors { s with showSettings := false } :=
      ⟨mirrors.settings, mirrors.settingsOverride⟩
    have follows := closed.settingsSubmit h
    exact ⟨follows.mirrors, follows.sent⟩

/-- And with what the tasks tell it. -/
theorem App.Mirrors.receive (mirrors : a.Mirrors s) (err : tk.Error) (msg : TaskMsg)
    (h : Gui.update w s (match msg with
      | .settings n => .settings n
      | .dbusErr => .dbusErr err) = .ok (t, task)) : (a.receive msg).Mirrors t := by
  cases msg with
  | settings n =>
    cases h
    exact ⟨rfl, rfl⟩
  | dbusErr =>
    cases h
    have shown := congrArg Gui.Panes.settings (Gui.panes_dbusErr (s := s) err)
    have taken := congrArg Gui.Panes.settingsOverride (Gui.panes_dbusErr (s := s) err)
    exact ⟨mirrors.settings.trans shown.symm, mirrors.settings.trans taken.symm⟩

end

end Rebpf
