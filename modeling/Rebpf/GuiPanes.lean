import Rebpf.Lib.Outcome
import Rebpf.GuiState

namespace Rebpf

open Lib

namespace Gui

/-- The part of the window's state that its messages find by value or by index. -/
structure Panes where
  settings : Settings
  settingsOverride : Settings
  entries : List (Match × Id)
  matchesOverride : Nat → Option Match
  matchesGen : Nat
  procsAll : Option (List (String × Nat))

/-- What a message is about. -/
inductive Aim
  | aside
  | edit (n : Settings)
  | told (n : Settings)
  | failed
  | lost
  | renewed
  | counted
  | row (i : Nat)
  | relist (found : Option (List (String × Nat)))

section

variable {tk : Toolkit}

def State.panes (s : State tk) : Panes where
  settings := s.settings
  settingsOverride := s.settingsOverride
  entries := s.entries
  matchesOverride := s.matchesOverride
  matchesGen := s.matchesGen
  procsAll := s.procsAll

def State.procAt (s : State tk) (i : Nat) : Option (String × Nat) := s.procsAll.bind (·[i]?)

/-- What the sweep of /proc has for the match in the input, where it can be read. -/
def State.listed (s : State tk) (w : World) : Option (List (String × Nat)) :=
  (procsAllWith ((currentMatch s).matchesPath tk.toRegexCrate) [] 10 w.proc).toOption

def State.aim (s : State tk) (w : World) : M tk → Aim
  | .settingsLan n => .edit { s.settings with allowLan := n }
  | .settingsDns n => .edit { s.settings with spoofDns := n }
  | .settingsDnsIp n => .edit { s.settings with spoofDnsIpv4 := n }
  | .settingsDropEgressWithoutOutput n => .edit { s.settings with dropEgressWithoutOutput := n }
  | .settings n => .told n
  | .dbusErr _ => .failed
  | .dbusFail _ => .lost
  | .statusShow => if s.dbusConnErr.isSome then .failed else .aside
  | .newMatches _ | .dbusCantConnect _ => .renewed
  | .activeProcs _ => .counted
  | .matchUpdate g i _ | .matchKind g i _ | .matchMethod g i _ | .matchUpdateDir g i
  | .matchSubmit g i => if g = s.matchesGen then .row i else .aside
  | .procs n => .relist (if n = "" then none else (s.typed n).listed w)
  | .matchFromProc g i =>
    if g = s.matchesGen then .relist ((s.procAt i).bind fun x => (s.picked x.1).listed w)
    else .aside
  | _ => .aside

/-- What a message can do to the panes. -/
inductive State.Moves (s : State tk) : Aim → Panes → Prop
  | aside : s.Moves .aside s.panes
  | edited {n} : s.Moves (.edit n) { s.panes with settings := n }
  | told {n} : s.Moves (.told n) { s.panes with settings := n, settingsOverride := n }
  | failed : s.Moves .failed
      { s.panes with settingsOverride := s.settings, matchesOverride := fun _ => none }
  | lost : s.Moves .lost { s.panes with
      settingsOverride := s.settings
      entries := []
      matchesOverride := fun _ => none
      matchesGen := s.matchesGen + 1 }
  | renewed {entries} : s.Moves .renewed { s.panes with
      entries
      matchesOverride := fun _ => none
      matchesGen := s.matchesGen + 1 }
  | counted : s.Moves .counted { s.panes with matchesGen := s.matchesGen + 1 }
  | row {i new} : i < s.entries.length ∨ s.matchesOverride i ≠ none →
      s.Moves (.row i) { s.panes with matchesOverride := Function.update s.matchesOverride i new }
  | relisted {found} : s.Moves (.relist found) { s.panes with procsAll := found }

variable {w : World} {s t : State tk} {task : Task}

theorem sendD_ok {d : D} (h : s.sendD w d = .ok t) :
    ∃ sent, s.dTx = some sent ∧ t = { s with dTx := some (sent ++ [d]) } := by
  obtain ⟨sent, hsent, h⟩ := bind_eq_ok.mp h
  obtain ⟨_, _, h⟩ := bind_eq_ok.mp h
  exact ⟨sent, orErr_eq_ok.mp hsent, (pure_eq_ok.mp h).symm⟩

theorem sendTray_ok {x : TrayState} (h : s.sendTray w x = .ok t) :
    ∃ sent, s.tTx = some sent ∧ t = { s with tTx := some (sent ++ [x]) } := by
  obtain ⟨sent, hsent, h⟩ := bind_eq_ok.mp h
  obtain ⟨_, _, h⟩ := bind_eq_ok.mp h
  exact ⟨sent, orErr_eq_ok.mp hsent, (pure_eq_ok.mp h).symm⟩

theorem panes_sendD {d : D} (h : s.sendD w d = .ok t) : t.panes = s.panes := by
  obtain ⟨_, _, rfl⟩ := sendD_ok h
  rfl

theorem panes_sendTray {x : TrayState} (h : s.sendTray w x = .ok t) : t.panes = s.panes := by
  obtain ⟨_, _, rfl⟩ := sendTray_ok h
  rfl

/-- A message that is sent on leaves the panes as they are. -/
theorem panes_sent {d : D} {f : State tk → State tk × Task}
    (h : (s.sendD w d >>= fun s => pure (f s)) = .ok (t, task))
    (keeps : ∀ s : State tk, (f s).1.panes = s.panes) : t.panes = s.panes := by
  obtain ⟨mid, hmid, h⟩ := bind_eq_ok.mp h
  have ht : f mid = (t, task) := pure_eq_ok.mp h
  rw [← panes_sendD hmid, ← keeps mid, ht]

theorem panes_settingsSubmit (h : settingsSubmit w s = .ok (t, task)) : t.panes = s.panes := by
  unfold settingsSubmit at h
  split at h
  next => exact panes_sent h fun _ => rfl
  next => cases h; rfl

theorem panes_outputDevSubmit (h : outputDevSubmit w s = .ok (t, task)) : t.panes = s.panes := by
  unfold outputDevSubmit at h
  dsimp only at h
  split at h
  next =>
    have sent := panes_sent h fun _ => rfl
    exact sent
  next => cases h; rfl

theorem bumpGen_ok (h : s.bumpGen = .ok t) : t = { s with matchesGen := s.matchesGen + 1 } := by
  obtain ⟨_, _, h⟩ := bind_eq_ok.mp h
  exact (pure_eq_ok.mp h).symm

theorem panes_dbusErr (err : tk.Error) : (dbusErr s err).panes =
    { s.panes with settingsOverride := s.settings, matchesOverride := fun _ => none } := by
  unfold dbusErr
  dsimp only
  split <;> rfl

theorem panes_dbusCantConnect {err : tk.Error} (h : dbusCantConnect w s err = .ok (t, task)) :
    t.panes = { s.panes with
      entries := []
      matchesOverride := fun _ => none
      matchesGen := s.matchesGen + 1 } := by
  obtain ⟨mid, hmid, h⟩ := bind_eq_ok.mp h
  obtain ⟨last, hlast, h⟩ := bind_eq_ok.mp h
  cases pure_eq_ok.mp h
  rw [panes_sendTray hlast, bumpGen_ok hmid]
  rfl

theorem row_ok {i : Nat} {x : Match × Id} (h : s.row i = .ok x) : s.entries[i]? = some x :=
  orErr_eq_ok.mp h

theorem row_inside {i : Nat} {x : Match × Id} (h : s.row i = .ok x) : i < s.entries.length :=
  (List.getElem?_eq_some_iff.mp (row_ok h)).1

theorem editRow_ok {i : Nat} {change : Match → Match} (h : s.editRow i change = .ok t) :
    (i < s.entries.length ∨ s.matchesOverride i ≠ none) ∧
      ∃ m, t = s.setOverride i (some m) := by
  obtain ⟨m, hm, h⟩ := bind_eq_ok.mp h
  refine ⟨?_, change m, (pure_eq_ok.mp h).symm⟩
  unfold State.overrideEntry at hm
  split at hm
  next m' hover => exact .inr (by rw [hover]; simp)
  next =>
    cases hrow : s.row i with
    | ok x => exact .inl (row_inside hrow)
    | error _ =>
      rw [hrow] at hm
      cases hm

/-- An edited row is left, or sent with the match it was made from. -/
theorem sendEdited_ok {i : Nat} {edited : Option Match} (h : s.sendEdited w i edited = .ok t) :
    t = s ∨ ∃ x m, s.entries[i]? = some x ∧ s.sendD w (.matchUpdate x.1 m) = .ok t := by
  cases edited with
  | none => exact .inl (Except.ok.inj h).symm
  | some m =>
    obtain ⟨x, hx, h⟩ := bind_eq_ok.mp h
    dsimp only at h
    split at h
    next => exact .inr ⟨x, m, row_ok hx, h⟩
    next => exact .inl (Except.ok.inj h).symm

theorem panes_sendEdited {i : Nat} {edited : Option Match} (h : s.sendEdited w i edited = .ok t) :
    t.panes = s.panes := by
  rcases sendEdited_ok h with rfl | ⟨_, _, _, h⟩
  · rfl
  · exact panes_sendD h

theorem matchSubmit_ok {i : Nat} (h : matchSubmit w s i = .ok (t, task)) :
    i < s.entries.length ∧
      t.panes = { s.panes with matchesOverride := Function.update s.matchesOverride i none } := by
  obtain ⟨mid, hmid, h⟩ := bind_eq_ok.mp h
  obtain ⟨x, hx, h⟩ := bind_eq_ok.mp h
  cases pure_eq_ok.mp h
  have same := panes_sendEdited hmid
  refine ⟨?_, same⟩
  have hentries : t.entries = s.entries := congrArg Panes.entries same
  exact hentries ▸ row_inside hx

theorem editAndSubmit_ok {i : Nat} {change : Match → Match}
    (h : (s.editRow i change >>= fun s => matchSubmit w s i) = .ok (t, task)) :
    i < s.entries.length ∧
      t.panes = { s.panes with matchesOverride := Function.update s.matchesOverride i none } := by
  obtain ⟨mid, hmid, h⟩ := bind_eq_ok.mp h
  obtain ⟨_, m, rfl⟩ := editRow_ok hmid
  obtain ⟨hi, ht⟩ := matchSubmit_ok h
  refine ⟨hi, ht.trans ?_⟩
  simp only [State.panes, State.setOverride, Function.update_idem]

theorem avoids_sweepProcs {p : Panic} (hp : .procfs ≠ p) {σ : Type}
    {filter : String → σ → Bool × σ} {maxLen : Nat} (ents : List (Option ProcEnt)) (cache : σ)
    (res : List (String × Nat)) : Avoids p (sweepProcs filter maxLen ents cache res) := by
  induction ents generalizing cache res with
  | nil => exact avoids_ok p res
  | cons ent ents ih =>
    unfold sweepProcs
    split
    next => exact avoids_ok p res
    next =>
      split
      next => exact fun h => hp (Except.error.inj h)
      next =>
        split
        next =>
          split
          next => exact ih _ _
          next => exact ih _ _
        next => exact ih _ _

theorem avoids_refreshProcsAll {p : Panic} (hp : .procfs ≠ p) (s : State tk) :
    Avoids p (refreshProcsAll w s) := by
  refine Avoids.then ?_ _
  exact (avoids_orErr hp _).bind fun proc => avoids_sweepProcs hp proc _ _

theorem refreshProcsAll_ok (h : refreshProcsAll w s = .ok t) :
    t = { s with procsAllMax := 10, procsAll := s.listed w } := by
  obtain ⟨procs, hprocs, h⟩ := bind_eq_ok.mp h
  rw [State.listed, hprocs]
  exact (pure_eq_ok.mp h).symm

theorem matchFromProc_ok {i : Nat} (h : matchFromProc w s i = .ok (t, task)) :
    ∃ x, s.procAt i = some x ∧ t = { s.picked x.1 with
      procsAllMax := 10
      procsAll := (s.picked x.1).listed w
      procPopupFocus := false
      procInputFocus := false } := by
  obtain ⟨procs, hprocs, h⟩ := bind_eq_ok.mp h
  obtain ⟨x, hx, h⟩ := bind_eq_ok.mp h
  obtain ⟨mid, hmid, h⟩ := bind_eq_ok.mp h
  obtain rfl := refreshProcsAll_ok hmid
  cases pure_eq_ok.mp h
  refine ⟨x, ?_, rfl⟩
  rw [State.procAt, orErr_eq_ok.mp hprocs]
  exact orErr_eq_ok.mp hx

theorem State.Moves.same (same : t.panes = s.panes) : s.Moves .aside t.panes :=
  same ▸ .aside

/-- A message for a row: one of another generation is ignored. -/
theorem State.Moves.ofRow {g i : Nat} {x : Handled tk}
    (h : (if g = s.matchesGen then x else pure (s, .none)) = .ok (t, task))
    (acts : g = s.matchesGen → x = .ok (t, task) →
      (i < s.entries.length ∨ s.matchesOverride i ≠ none) ∧
        ∃ new, t.panes = { s.panes with
          matchesOverride := Function.update s.matchesOverride i new }) :
    s.Moves (if g = s.matchesGen then .row i else .aside) t.panes := by
  by_cases hg : g = s.matchesGen
  · rw [if_pos hg] at h ⊢
    obtain ⟨hi, new, ht⟩ := acts hg h
    exact ht ▸ .row hi
  · rw [if_neg hg] at h ⊢
    cases h
    exact .aside

theorem State.Moves.ofEdit {g i : Nat} {change : Match → Match}
    (h : update.editAndSubmit w s g i change = .ok (t, task)) :
    s.Moves (if g = s.matchesGen then .row i else .aside) t.panes := by
  refine .ofRow h fun _ h => ?_
  obtain ⟨hi, ht⟩ := editAndSubmit_ok h
  exact ⟨.inl hi, none, ht⟩

/-- Every message does to the panes what it is about. -/
theorem update_moves {m : M tk} (h : update w s m = .ok (t, task)) :
    s.Moves (s.aim w m) t.panes := by
  cases m with
  | settingsSubmit | settingsDnsIpSubmit => exact .same (panes_settingsSubmit h)
  | settingsClose =>
    have same := panes_settingsSubmit h
    exact .same same
  | settingsLan n | settingsDns n | settingsDropEgressWithoutOutput n =>
    have same := panes_settingsSubmit h
    rw [same]
    exact .edited
  | settingsDnsIp n => cases h; exact .edited
  | settings n => cases h; exact .told
  | enable | disable | matchAdd => exact .same (panes_sent h fun _ => rfl)
  | windowToggle | windowOpen | windowCloseId _ =>
    simp only [update, update.closeWindow, update.openWindow] at h
    split at h
    all_goals first
      | exact .same (panes_sent h fun _ => rfl)
      | cases h; exact .aside
  | matchDelete g i =>
    simp only [update] at h
    split at h
    next =>
      obtain ⟨x, _, h⟩ := bind_eq_ok.mp h
      exact .same (panes_sent h fun _ => rfl)
    next => cases h; exact .aside
  | matchUpdate g i n =>
    refine .ofRow h fun _ h => ?_
    obtain ⟨mid, hmid, h⟩ := bind_eq_ok.mp h
    obtain ⟨hi, m, rfl⟩ := editRow_ok hmid
    cases h
    exact ⟨hi, some m, rfl⟩
  | matchKind g i k => exact .ofEdit h
  | matchMethod g i k => exact .ofEdit h
  | matchUpdateDir g i => exact .ofEdit h
  | matchSubmit g i =>
    refine .ofRow h fun _ h => ?_
    obtain ⟨hi, ht⟩ := matchSubmit_ok h
    exact ⟨.inl hi, none, ht⟩
  | matchDir =>
    simp only [update] at h
    split at h
    all_goals cases h
    all_goals exact .aside
  | matchFromProc g i =>
    simp only [update, State.aim] at h ⊢
    split at h
    next hg =>
      obtain ⟨x, hx, rfl⟩ := matchFromProc_ok h
      rw [if_pos hg, hx]
      exact .relisted
    next hg =>
      cases h
      rw [if_neg hg]
      exact .aside
  | procs n =>
    simp only [update, State.aim, procs] at h ⊢
    split at h
    next hn =>
      obtain ⟨mid, hmid, h⟩ := bind_eq_ok.mp h
      cases pure_eq_ok.mp h
      rw [if_neg hn, refreshProcsAll_ok hmid]
      exact .relisted
    next hn =>
      cases h
      rw [if_pos (not_not.mp hn)]
      exact .relisted
  | outputDevUnfocus | outputDevPopupUnfocus =>
    simp only [update] at h
    split at h
    next => cases h; exact .aside
    next => exact .same (panes_outputDevSubmit h)
  | outputDevSubmit => exact .same (panes_outputDevSubmit h)
  | outputDevSetSubmit n =>
    obtain ⟨⟨mid, task'⟩, hmid, h⟩ := bind_eq_ok.mp h
    cases h
    have same := panes_outputDevSubmit hmid
    exact .same same
  | attached n =>
    obtain ⟨mid, hmid, h⟩ := bind_eq_ok.mp h
    cases h
    have same := panes_sendTray hmid
    exact .same same
  | newMatches n =>
    obtain ⟨mid, hmid, h⟩ := bind_eq_ok.mp h
    cases h
    rw [bumpGen_ok hmid]
    exact .renewed
  | activeProcs n =>
    obtain ⟨mid, hmid, h⟩ := bind_eq_ok.mp h
    cases h
    rw [bumpGen_ok hmid]
    exact .counted
  | dbusFail err =>
    obtain ⟨⟨mid, task'⟩, hmid, h⟩ := bind_eq_ok.mp h
    cases h
    rw [panes_dbusCantConnect hmid, panes_dbusErr]
    have gen : (dbusErr s err).matchesGen = s.matchesGen := congrArg Panes.matchesGen (panes_dbusErr err)
    rw [gen]
    exact .lost
  | dbusErr err =>
    cases h
    rw [panes_dbusErr]
    exact .failed
  | dbusCantConnect err =>
    rw [panes_dbusCantConnect h]
    exact .renewed
  | esc =>
    simp only [update] at h
    split at h
    next => cases h; exact .aside
    next =>
      split at h
      next => cases h; exact .aside
      next =>
        split at h
        all_goals cases h
        all_goals exact .aside
  | statusShow =>
    simp only [update, State.aim] at h ⊢
    split at h
    next err herr =>
      cases h
      rw [panes_dbusErr, herr]
      exact .failed
    next herr =>
      cases h
      rw [herr]
      exact .aside
  | _ => cases h; exact .aside

end

/-- A message with what the outside has for it, and how many messages ago the view that
issued it was drawn. -/
structure Turn (tk : Toolkit) where
  world : World
  msg : M tk
  age : Nat

/-- The window with its past: the states before, the last settings received, and whether
an error has just been handled. -/
structure Session (tk : Toolkit) where
  state : State tk
  history : List (State tk × Turn tk)
  received : Option Settings
  failed : Bool

/-- Whether `update` has an error to show for the message. -/
def State.handlesErr {tk : Toolkit} (s : State tk) : M tk → Bool
  | .dbusErr _ | .dbusFail _ => true
  | .statusShow => s.dbusConnErr.isSome
  | _ => false

namespace Session

variable {tk : Toolkit}

def started (tk : Toolkit) (trayTheme : TrayTheme) (unique : Nat → Id) : Session tk where
  state := .started tk trayTheme unique
  history := []
  received := none
  failed := false

/-- One message. The window does not survive a panic. -/
def step (s : Session tk) (e : Turn tk) : Option (Session tk) :=
  match update e.world s.state e.msg with
  | .error _ => none
  | .ok (state, _) => some {
      state
      history := (s.state, e) :: s.history
      received := match e.msg with
        | .settings n => some n
        | _ => s.received
      failed := s.state.handlesErr e.msg }

/-- The state that a view was drawn of some messages ago. -/
def viewed (s : Session tk) (age : Nat) : Option (State tk) :=
  (s.state :: s.history.map (·.1))[age]?

variable {s t : Session tk} {e : Turn tk}

theorem step_ok (h : s.step e = some t) :
    ∃ task, update e.world s.state e.msg = .ok (t.state, task) ∧
      t.history = (s.state, e) :: s.history ∧ t.failed = s.state.handlesErr e.msg ∧
      t.received = match e.msg with
        | .settings n => some n
        | _ => s.received := by
  unfold step at h
  split at h
  next => cases h
  next state task hupdate =>
    cases Option.some.inj h
    exact ⟨task, hupdate, rfl, rfl, rfl⟩

theorem step_moves (h : s.step e = some t) :
    s.state.Moves (s.state.aim e.world e.msg) t.state.panes := by
  obtain ⟨_, hupdate, _⟩ := step_ok h
  exact update_moves hupdate

end Session

/-- A toolkit whose errors and editors are their texts. -/
def plainToolkit : Toolkit where
  Re := String
  new := some
  isMatch re s := re == s
  Error := String
  display := id
  Content := String
  withText := id
  Action := Bool
  isEdit := id
  perform text _ := text

def plainWorld : World where
  proc := some []
  unique := id
  window := 0
  dRx := true
  tRx := true

def Turn.plain (msg : M plainToolkit) : Turn plainToolkit := ⟨plainWorld, msg, 0⟩

end Gui

end Rebpf
