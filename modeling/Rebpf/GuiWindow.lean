import Rebpf.GuiRows
import Rebpf.PollPermits

namespace Rebpf

open Lib

namespace Gui

section

variable {tk : Toolkit} {w : World} {s mid t : State tk} {task : Task}

/-- What a message sends, and what it does to the window. -/
inductive State.Tells (s t : State tk) : List D → Prop
  | aside {new} : t.dTx = s.dTx.map (· ++ new) → (∀ d ∈ new, d.isWindow = false) →
      t.window = s.window → s.Tells t new
  | toggled : t.dTx = s.dTx.map (· ++ [if s.window.isSome then .windowClosed else .windowOpened]) →
      t.window.isSome = !s.window.isSome →
      s.Tells t [if s.window.isSome then .windowClosed else .windowOpened]

theorem State.Tells.same (sent : t.dTx = s.dTx) (window : t.window = s.window) : s.Tells t [] := by
  refine .aside ?_ (List.forall_mem_nil _) window
  rw [sent]
  exact sent_nothing _

theorem window_sendD {d : D} (h : s.sendD w d = .ok t) : t.window = s.window := by
  obtain ⟨_, _, rfl⟩ := sendD_ok h
  rfl

theorem tells_sendD {d : D} (h : s.sendD w d = .ok t) (hd : d.isWindow = false) :
    s.Tells t [d] :=
  .aside (sendD_sent h) (List.forall_mem_singleton.mpr hd) (window_sendD h)

/-- Between changes of neither. -/
theorem State.Tells.around {s' t' : State tk} {new : List D} (tells : s.Tells t new)
    (sent : s.dTx = s'.dTx) (window : s.window = s'.window) (sent' : t'.dTx = t.dTx)
    (window' : t'.window = t.window) : s'.Tells t' new := by
  cases tells with
  | aside hsent hnew hwindow =>
    exact .aside (by rw [sent', hsent, sent]) hnew (by rw [window', hwindow, window])
  | toggled hsent hwindow =>
    rw [sent, window] at hsent
    rw [window] at hwindow ⊢
    exact .toggled (sent' ▸ hsent) (window' ▸ hwindow)

/-- A message that is sent on, and an answer that keeps the window. -/
theorem tells_sent {d : D} {f : State tk → State tk × Task}
    (h : (s.sendD w d >>= fun s => pure (f s)) = .ok (t, task)) (hd : d.isWindow = false)
    (sent : ∀ s : State tk, (f s).1.dTx = s.dTx) (window : ∀ s : State tk, (f s).1.window = s.window) :
    s.Tells t [d] := by
  obtain ⟨mid, hmid, h⟩ := bind_eq_ok.mp h
  have ht : f mid = (t, task) := pure_eq_ok.mp h
  refine (tells_sendD hmid hd).around rfl rfl ?_ ?_
  · rw [← sent mid, ht]
  · rw [← window mid, ht]

theorem tells_settingsSubmit (h : settingsSubmit w s = .ok (t, task)) : ∃ new, s.Tells t new := by
  unfold settingsSubmit at h
  split at h
  next => exact ⟨_, tells_sent h rfl (fun _ => rfl) fun _ => rfl⟩
  next =>
    cases h
    exact ⟨[], .same rfl rfl⟩

theorem tells_outputDevSubmit (h : outputDevSubmit w s = .ok (t, task)) :
    ∃ new, s.Tells t new := by
  unfold outputDevSubmit at h
  dsimp only at h
  split at h
  next =>
    have tells := tells_sent h rfl (fun _ => rfl) fun _ => rfl
    exact ⟨_, tells.around rfl rfl rfl rfl⟩
  next =>
    cases h
    exact ⟨[], .same rfl rfl⟩

theorem sent_dbusErr (s : State tk) (err : tk.Error) :
    (dbusErr s err).dTx = s.dTx ∧ (dbusErr s err).window = s.window := by
  unfold dbusErr
  dsimp only
  split
  all_goals exact ⟨rfl, rfl⟩

theorem sent_sendTray {x : TrayState} (h : s.sendTray w x = .ok t) :
    t.dTx = s.dTx ∧ t.window = s.window := by
  obtain ⟨_, _, rfl⟩ := sendTray_ok h
  exact ⟨rfl, rfl⟩

theorem sent_dbusCantConnect {err : tk.Error} (h : dbusCantConnect w s err = .ok (t, task)) :
    t.dTx = s.dTx ∧ t.window = s.window := by
  obtain ⟨mid, hmid, h⟩ := bind_eq_ok.mp h
  obtain ⟨last, hlast, h⟩ := bind_eq_ok.mp h
  cases pure_eq_ok.mp h
  obtain ⟨hsent, hwindow⟩ := sent_sendTray hlast
  rw [hsent, hwindow, bumpGen_ok hmid]
  exact ⟨rfl, rfl⟩

theorem tells_matchSubmit {i : Nat} (h : matchSubmit w s i = .ok (t, task)) :
    ∃ new, s.Tells t new := by
  obtain ⟨mid, hmid, h⟩ := bind_eq_ok.mp h
  obtain ⟨_, _, h⟩ := bind_eq_ok.mp h
  cases pure_eq_ok.mp h
  rcases sendEdited_ok hmid with rfl | ⟨_, _, _, hsend⟩
  · exact ⟨[], .same rfl rfl⟩
  · exact ⟨_, (tells_sendD hsend rfl).around rfl rfl rfl rfl⟩

theorem tells_editAndSubmit {g i : Nat} {change : Match → Match}
    (h : update.editAndSubmit w s g i change = .ok (t, task)) : ∃ new, s.Tells t new := by
  unfold update.editAndSubmit at h
  split at h
  next =>
    obtain ⟨mid, hmid, h⟩ := bind_eq_ok.mp h
    obtain ⟨_, m, rfl⟩ := editRow_ok hmid
    obtain ⟨new, tells⟩ := tells_matchSubmit h
    exact ⟨new, tells.around rfl rfl rfl rfl⟩
  next =>
    cases h
    exact ⟨[], .same rfl rfl⟩

theorem tells_closeWindow {id : Id} (hid : s.window = some id)
    (h : update.closeWindow w s id = .ok (t, task)) : ∃ new, s.Tells t new := by
  obtain ⟨mid, hmid, h⟩ := bind_eq_ok.mp h
  cases pure_eq_ok.mp h
  have hsent := sendD_sent hmid
  refine ⟨_, .toggled ?_ ?_⟩
  · rw [hid]
    exact hsent
  · rw [hid]
    rfl

theorem tells_openWindow (hnone : s.window = none)
    (h : update.openWindow w s = .ok (t, task)) : ∃ new, s.Tells t new := by
  obtain ⟨mid, hmid, h⟩ := bind_eq_ok.mp h
  cases pure_eq_ok.mp h
  have hsent := sendD_sent hmid
  refine ⟨_, .toggled ?_ ?_⟩
  · rw [hnone]
    exact hsent
  · rw [hnone]
    rfl

/-- A message toggles the window and tells it, or does neither. -/
theorem update_tells {m : M tk} (h : update w s m = .ok (t, task)) : ∃ new, s.Tells t new := by
  cases m with
  | settingsSubmit | settingsDnsIpSubmit => exact tells_settingsSubmit h
  | settingsClose | settingsLan _ | settingsDns _ | settingsDropEgressWithoutOutput _ =>
    obtain ⟨new, tells⟩ := tells_settingsSubmit h
    exact ⟨new, tells.around rfl rfl rfl rfl⟩
  | enable | disable | matchAdd => exact ⟨_, tells_sent h rfl (fun _ => rfl) fun _ => rfl⟩
  | windowToggle | windowCloseId _ | windowOpen =>
    simp only [update] at h
    split at h
    all_goals first
      | exact tells_closeWindow ‹_› h
      | exact tells_openWindow ‹_› h
      | cases h; exact ⟨[], .same rfl rfl⟩
  | matchDelete g i =>
    simp only [update] at h
    split at h
    next =>
      obtain ⟨x, _, h⟩ := bind_eq_ok.mp h
      exact ⟨_, tells_sent h rfl (fun _ => rfl) fun _ => rfl⟩
    next =>
      cases h
      exact ⟨[], .same rfl rfl⟩
  | matchUpdate g i n =>
    simp only [update] at h
    split at h
    next =>
      obtain ⟨mid, hmid, h⟩ := bind_eq_ok.mp h
      obtain ⟨_, m, rfl⟩ := editRow_ok hmid
      cases h
      exact ⟨[], .same rfl rfl⟩
    next =>
      cases h
      exact ⟨[], .same rfl rfl⟩
  | matchKind g i k => exact tells_editAndSubmit h
  | matchMethod g i k => exact tells_editAndSubmit h
  | matchUpdateDir g i => exact tells_editAndSubmit h
  | matchSubmit g i =>
    simp only [update] at h
    split at h
    next => exact tells_matchSubmit h
    next =>
      cases h
      exact ⟨[], .same rfl rfl⟩
  | matchDir =>
    simp only [update] at h
    split at h
    all_goals cases h
    all_goals exact ⟨[], .same rfl rfl⟩
  | matchFromProc g i =>
    simp only [update] at h
    split at h
    next =>
      obtain ⟨x, _, rfl⟩ := matchFromProc_ok h
      exact ⟨[], .same rfl rfl⟩
    next =>
      cases h
      exact ⟨[], .same rfl rfl⟩
  | procs n =>
    simp only [update, procs] at h
    split at h
    next =>
      obtain ⟨mid, hmid, h⟩ := bind_eq_ok.mp h
      cases pure_eq_ok.mp h
      rw [refreshProcsAll_ok hmid]
      exact ⟨[], .same rfl rfl⟩
    next =>
      cases h
      exact ⟨[], .same rfl rfl⟩
  | outputDevUnfocus | outputDevPopupUnfocus =>
    simp only [update] at h
    split at h
    next =>
      cases h
      exact ⟨[], .same rfl rfl⟩
    next => exact tells_outputDevSubmit h
  | outputDevSubmit => exact tells_outputDevSubmit h
  | outputDevSetSubmit n =>
    obtain ⟨⟨mid, task'⟩, hmid, h⟩ := bind_eq_ok.mp h
    cases h
    obtain ⟨new, tells⟩ := tells_outputDevSubmit hmid
    exact ⟨new, tells.around rfl rfl rfl rfl⟩
  | attached n =>
    obtain ⟨mid, hmid, h⟩ := bind_eq_ok.mp h
    cases h
    obtain ⟨hsent, hwindow⟩ := sent_sendTray hmid
    exact ⟨[], .same hsent hwindow⟩
  | newMatches n | activeProcs n =>
    obtain ⟨mid, hmid, h⟩ := bind_eq_ok.mp h
    cases h
    rw [bumpGen_ok hmid]
    exact ⟨[], .same rfl rfl⟩
  | dbusFail err =>
    obtain ⟨⟨mid, task'⟩, hmid, h⟩ := bind_eq_ok.mp h
    cases h
    obtain ⟨hsent, hwindow⟩ := sent_dbusCantConnect hmid
    obtain ⟨hsent', hwindow'⟩ := sent_dbusErr s err
    exact ⟨[], .same (hsent.trans hsent') (hwindow.trans hwindow')⟩
  | dbusErr err =>
    cases h
    obtain ⟨hsent, hwindow⟩ := sent_dbusErr s err
    exact ⟨[], .same hsent hwindow⟩
  | dbusCantConnect err =>
    obtain ⟨hsent, hwindow⟩ := sent_dbusCantConnect h
    exact ⟨[], .same hsent hwindow⟩
  | esc =>
    simp only [update] at h
    split at h
    next =>
      cases h
      exact ⟨[], .same rfl rfl⟩
    next =>
      split at h
      next =>
        cases h
        exact ⟨[], .same rfl rfl⟩
      next =>
        split at h
        all_goals cases h
        all_goals exact ⟨[], .same rfl rfl⟩
  | statusShow =>
    simp only [update] at h
    split at h
    next err _ =>
      cases h
      obtain ⟨hsent, hwindow⟩ := sent_dbusErr s err
      exact ⟨[], .same hsent hwindow⟩
    next =>
      cases h
      exact ⟨[], .same rfl rfl⟩
  | _ =>
    cases h
    exact ⟨[], .same rfl rfl⟩

/-- The harness with what the window has told it by then. -/
def State.tellTo (t : State tk) (new : List D) (x : Harness) : Harness :=
  { x with windowOpen := t.window.isSome, queue := x.queue ++ new }

theorem sends_run {new : List D} (hnew : ∀ d ∈ new, d.isWindow = false) (x : Harness) :
    Run Harness.step (fun _ _ => True) x (new.map .send) { x with queue := x.queue ++ new } := by
  induction new generalizing x with
  | nil =>
    rw [List.append_nil]
    exact .nil
  | cons d new ih =>
    have hd : ¬d.isWindow = true := Bool.eq_false_iff.mp (hnew d List.mem_cons_self)
    have rest := ih (fun d hd => hnew d (List.mem_cons_of_mem _ hd)) { x with queue := x.queue ++ [d] }
    rw [List.append_assoc] at rest
    exact .cons trivial (if_neg hd) rest

/-- To the harness a message is a run of events of the window. -/
theorem State.Tells.run {new : List D} (tells : s.Tells t new) {x : Harness}
    (hopen : x.windowOpen = s.window.isSome) :
    ∃ es, Run Harness.step (fun _ _ => True) x es (t.tellTo new x) := by
  cases tells with
  | aside _ hnew hwindow =>
    have hrun := sends_run hnew x
    have heq : t.tellTo new x = { x with queue := x.queue ++ new } := by
      rw [State.tellTo, hwindow, ← hopen]
    exact ⟨_, heq ▸ hrun⟩
  | toggled _ hwindow =>
    refine ⟨[.toggle], Run.single trivial ?_⟩
    rw [State.tellTo, hwindow, ← hopen]
    rfl

theorem State.Tells.sent {new : List D} (tells : s.Tells t new) :
    t.dTx = s.dTx.map (· ++ new) := by
  cases tells with
  | aside hsent _ _ => exact hsent
  | toggled hsent _ => exact hsent

/-- A run of the window is one of the harness, which is told all that was sent. -/
theorem Session.run_told {ok : Session tk → Turn tk → Prop} {s t : Session tk}
    {es : List (Turn tk)} (run : Run step ok s es t) {x : Harness}
    (hopen : x.windowOpen = s.state.window.isSome) :
    ∃ new fs, t.state.dTx = s.state.dTx.map (· ++ new) ∧
      Run Harness.step (fun _ _ => True) x fs (t.state.tellTo new x) := by
  induction run generalizing x with
  | @nil s =>
    refine ⟨[], [], sent_nothing _, ?_⟩
    have hsame : s.state.tellTo [] x = x := by
      rw [State.tellTo, ← hopen, List.append_nil]
    rw [hsame]
    exact .nil
  | @cons s e mid es t _ taken _ ih =>
    obtain ⟨_, hupdate, _⟩ := step_ok taken
    obtain ⟨new, tells⟩ := update_tells hupdate
    obtain ⟨fs, first⟩ := tells.run hopen
    obtain ⟨new', fs', hsent, rest⟩ := ih (x := mid.state.tellTo new x) rfl
    refine ⟨new ++ new', fs ++ fs', ?_, first.append ?_⟩
    · rw [hsent, tells.sent, Option.map_map]
      exact congrArg (Option.map · _) (funext fun sent => List.append_assoc sent new new')
    · have happend : t.state.tellTo new' (mid.state.tellTo new x) = t.state.tellTo (new ++ new') x := by
        simp only [State.tellTo, List.append_assoc]
      exact happend ▸ rest

end

end Gui

end Rebpf
