import Rebpf.GuiPanes
import Rebpf.Lib.Run

namespace Rebpf

open Lib

namespace Gui

/-- The row a message is for, with the generation of the list it was shown in. -/
def M.row {tk : Toolkit} : M tk → Option (Nat × Nat)
  | .matchDelete g i | .matchUpdate g i _ | .matchKind g i _ | .matchMethod g i _
  | .matchUpdateDir g i | .matchSubmit g i => some (g, i)
  | _ => none

/-- The entry of the service's list that a request names. -/
def D.names : D → Option Match
  | .matchDelete m => some m
  | .matchUpdate f _ => some f
  | _ => none

/-- Nothing happens but to the row, and every request sent names its match. -/
structure State.ActsOn {tk : Toolkit} (s t : State tk) (i : Nat) (m : Match) : Prop where
  entries : t.entries = s.entries
  others : ∀ j, j ≠ i → t.matchesOverride j = s.matchesOverride j
  sent : ∃ new, t.dTx = s.dTx.map (· ++ new) ∧ ∀ d ∈ new, d.names = some m

abbrev InRange {α : Type} (x : Except Panic α) : Prop := Avoids .outOfRange x

section

variable {tk : Toolkit} {w : World} {s t : State tk} {task : Task}

theorem inRange_sendD (s : State tk) (d : D) : InRange (s.sendD w d) :=
  (avoids_orErr (by decide) _).bind fun _ => (avoids_ensure (by decide) _).then _

theorem inRange_sendTray (s : State tk) (x : TrayState) : InRange (s.sendTray w x) :=
  (avoids_orErr (by decide) _).bind fun _ => (avoids_ensure (by decide) _).then _

theorem inRange_bumpGen (s : State tk) : InRange s.bumpGen :=
  (avoids_ensure (by decide) _).then _

theorem inRange_refreshProcsAll (s : State tk) : InRange (refreshProcsAll w s) :=
  avoids_refreshProcsAll (by decide) s

theorem inRange_settingsSubmit (s : State tk) : InRange (settingsSubmit w s) := by
  unfold settingsSubmit
  split
  next => exact (inRange_sendD _ _).then _
  next => exact avoids_ok _ _

theorem inRange_outputDevSubmit (s : State tk) : InRange (outputDevSubmit w s) := by
  unfold outputDevSubmit
  dsimp only
  split
  next => exact (inRange_sendD _ _).then _
  next => exact avoids_ok _ _

theorem inRange_dbusCantConnect (s : State tk) (err : tk.Error) :
    InRange (dbusCantConnect w s err) :=
  (inRange_bumpGen _).bind fun _ => (inRange_sendTray _ _).then _

theorem inRange_matchFromProc (s : State tk) (i : Nat) : InRange (matchFromProc w s i) :=
  (avoids_orErr (by decide) _).bind fun _ => (avoids_orErr (by decide) _).bind fun _ =>
    (inRange_refreshProcsAll _).then _

theorem inRange_row {i : Nat} (hi : i < s.entries.length) : InRange (s.row i) := by
  rw [State.row, List.getElem?_eq_getElem hi]
  exact avoids_ok _ _

theorem inRange_sendEdited {i : Nat} (hi : i < s.entries.length) (edited : Option Match) :
    InRange (s.sendEdited w i edited) := by
  cases edited with
  | none => exact avoids_ok _ s
  | some m =>
    refine (inRange_row hi).bind fun x => ?_
    dsimp only
    split
    next => exact inRange_sendD _ _
    next => exact avoids_ok _ s

theorem inRange_matchSubmit {i : Nat} (hi : i < s.entries.length) : InRange (matchSubmit w s i) := by
  have inside : i < (s.setOverride i none).entries.length := hi
  have edited := inRange_sendEdited (w := w) inside (s.matchesOverride i)
  refine edited.bindOk fun mid hmid => Avoids.then (inRange_row ?_) _
  have same : mid.entries = s.entries := congrArg Panes.entries (panes_sendEdited hmid)
  exact same ▸ hi

theorem inRange_editRow {i : Nat} (hi : i < s.entries.length) (change : Match → Match) :
    InRange (s.editRow i change) := by
  refine Avoids.then ?_ _
  unfold State.overrideEntry
  split
  next m _ => exact avoids_ok _ m
  next => exact (inRange_row hi).then _

theorem inRange_editAndSubmit {g i : Nat} (hi : g = s.matchesGen → i < s.entries.length)
    (change : Match → Match) : InRange (update.editAndSubmit w s g i change) := by
  unfold update.editAndSubmit
  split
  next hg =>
    refine (inRange_editRow (hi hg) change).bindOk fun mid hmid => ?_
    obtain ⟨_, _, rfl⟩ := editRow_ok hmid
    exact inRange_matchSubmit (hi hg)
  next => exact avoids_ok _ _

/-- Only a message for a row of the list there is can be out of its range. -/
theorem update_inRange {m : M tk}
    (inside : ∀ i, m.row = some (s.matchesGen, i) → i < s.entries.length) :
    InRange (update w s m) := by
  have shown : ∀ {g i : Nat}, m.row = some (g, i) → g = s.matchesGen → i < s.entries.length :=
    fun hrow hg => inside _ (hg ▸ hrow)
  cases m with
  | settingsSubmit | settingsDnsIpSubmit | settingsClose | settingsLan _ | settingsDns _
  | settingsDropEgressWithoutOutput _ => exact inRange_settingsSubmit _
  | enable | disable | matchAdd => exact (inRange_sendD _ _).then _
  | windowToggle | windowOpen | windowCloseId _ =>
    simp only [update, update.closeWindow, update.openWindow]
    split
    all_goals first
      | exact (inRange_sendD _ _).then _
      | exact avoids_ok _ _
  | matchDelete g i =>
    simp only [update]
    split
    next hg => exact (inRange_row (shown rfl hg)).bind fun _ => (inRange_sendD _ _).then _
    next => exact avoids_ok _ _
  | matchUpdate g i n =>
    simp only [update]
    split
    next hg => exact (inRange_editRow (shown rfl hg) _).then _
    next => exact avoids_ok _ _
  | matchSubmit g i =>
    simp only [update]
    split
    next hg => exact inRange_matchSubmit (shown rfl hg)
    next => exact avoids_ok _ _
  | matchKind g i k => exact inRange_editAndSubmit (shown rfl) _
  | matchMethod g i k => exact inRange_editAndSubmit (shown rfl) _
  | matchUpdateDir g i => exact inRange_editAndSubmit (shown rfl) _
  | matchDir =>
    simp only [update]
    split
    next => exact avoids_ok _ _
    next => exact avoids_ok _ _
    next => exact fun h => by cases h
  | matchFromProc g i =>
    simp only [update]
    split
    next => exact inRange_matchFromProc s i
    next => exact avoids_ok _ _
  | procs n =>
    simp only [update, procs]
    split
    next => exact (inRange_refreshProcsAll _).then _
    next => exact avoids_ok _ _
  | outputDevUnfocus | outputDevPopupUnfocus =>
    simp only [update]
    split
    next => exact avoids_ok _ _
    next => exact inRange_outputDevSubmit s
  | outputDevSubmit => exact inRange_outputDevSubmit s
  | outputDevSetSubmit n => exact (inRange_outputDevSubmit _).then _
  | attached n => exact (inRange_sendTray _ _).then _
  | newMatches n | activeProcs n => exact (inRange_bumpGen _).then _
  | dbusFail err => exact (inRange_dbusCantConnect _ err).then _
  | dbusCantConnect err => exact inRange_dbusCantConnect s err
  | esc =>
    simp only [update]
    split
    next => exact avoids_ok _ _
    next =>
      split
      next => exact avoids_ok _ _
      next =>
        split
        all_goals exact avoids_ok _ _
  | statusShow =>
    simp only [update]
    split
    all_goals exact avoids_ok _ _
  | _ => exact avoids_ok _ _

theorem sendD_sent {d : D} (h : s.sendD w d = .ok t) : t.dTx = s.dTx.map (· ++ [d]) := by
  obtain ⟨sent, hsent, rfl⟩ := sendD_ok h
  rw [hsent]
  rfl

theorem sent_nothing (o : Option (List D)) : o = o.map (· ++ []) := by
  simp only [List.append_nil, Option.map_id_fun', id_eq]

theorem matchSubmit_actsOn {i : Nat} {x : Match × Id} (hx : s.entries[i]? = some x)
    (h : matchSubmit w s i = .ok (t, task)) : s.ActsOn t i x.1 := by
  obtain ⟨_, panes⟩ := matchSubmit_ok h
  refine ⟨congrArg Panes.entries panes, fun j hj => ?_, ?_⟩
  · have hoverride : t.matchesOverride = Function.update s.matchesOverride i none :=
      congrArg Panes.matchesOverride panes
    rw [hoverride, Function.update_of_ne hj]
  · obtain ⟨mid, hmid, h⟩ := bind_eq_ok.mp h
    obtain ⟨_, _, h⟩ := bind_eq_ok.mp h
    cases pure_eq_ok.mp h
    rcases sendEdited_ok hmid with rfl | ⟨old, m, hold, hsend⟩
    · exact ⟨[], sent_nothing _, by simp⟩
    · have hold : s.entries[i]? = some old := hold
      obtain rfl := Option.some.inj (hold.symm.trans hx)
      have hsent := sendD_sent hsend
      refine ⟨_, hsent, fun d hd => ?_⟩
      rw [List.mem_singleton.mp hd]
      rfl

/-- Editing a row first changes nothing else. -/
theorem State.ActsOn.afterEdit {i : Nat} {new : Option Match} {m : Match}
    (acts : (s.setOverride i new).ActsOn t i m) : s.ActsOn t i m :=
  ⟨acts.entries, fun j hj => (acts.others j hj).trans (Function.update_of_ne hj _ _), acts.sent⟩

/-- A message for a row of the list there is acts on the match in it. -/
theorem update_actsOn {m : M tk} {i : Nat} {x : Match × Id}
    (hrow : m.row = some (s.matchesGen, i)) (hx : s.entries[i]? = some x)
    (h : update w s m = .ok (t, task)) : s.ActsOn t i x.1 := by
  have edited : ∀ {g : Nat} {change : Match → Match}, g = s.matchesGen →
      update.editAndSubmit w s g i change = .ok (t, task) → s.ActsOn t i x.1 := by
    intro g change hg h
    rw [update.editAndSubmit, if_pos hg] at h
    obtain ⟨mid, hmid, h⟩ := bind_eq_ok.mp h
    obtain ⟨_, m, rfl⟩ := editRow_ok hmid
    have hx : (s.setOverride i (some m)).entries[i]? = some x := hx
    exact (matchSubmit_actsOn hx h).afterEdit
  cases m with
  | matchDelete g j =>
    obtain ⟨rfl, rfl⟩ := Prod.mk.inj (Option.some.inj hrow)
    rw [update, if_pos rfl] at h
    obtain ⟨old, hold, h⟩ := bind_eq_ok.mp h
    obtain rfl := Option.some.inj ((row_ok hold).symm.trans hx)
    obtain ⟨mid, hmid, h⟩ := bind_eq_ok.mp h
    cases pure_eq_ok.mp h
    have panes := panes_sendD hmid
    refine ⟨congrArg Panes.entries panes, fun j _ => ?_, _, sendD_sent hmid, fun d hd => ?_⟩
    · exact congrFun (congrArg Panes.matchesOverride panes) j
    · rw [List.mem_singleton.mp hd]
      rfl
  | matchUpdate g j n =>
    obtain ⟨rfl, rfl⟩ := Prod.mk.inj (Option.some.inj hrow)
    rw [update, if_pos rfl] at h
    obtain ⟨mid, hmid, h⟩ := bind_eq_ok.mp h
    obtain ⟨_, m, rfl⟩ := editRow_ok hmid
    cases pure_eq_ok.mp h
    exact ⟨rfl, fun k hk => Function.update_of_ne hk _ _, [], sent_nothing _, by simp⟩
  | matchKind g j k | matchMethod g j k | matchUpdateDir g j =>
    obtain ⟨hg, rfl⟩ := Prod.mk.inj (Option.some.inj hrow)
    exact edited hg h
  | matchSubmit g j =>
    obtain ⟨rfl, rfl⟩ := Prod.mk.inj (Option.some.inj hrow)
    rw [update, if_pos rfl] at h
    exact matchSubmit_actsOn hx h
  | _ => cases hrow

end

namespace Session

section

variable {tk : Toolkit} {s t : Session tk} {e : Turn tk}

/-- A message for a row is one that the view drawn then could issue. -/
def RowIssued (s : Session tk) (e : Turn tk) : Prop :=
  ∀ g i, e.msg.row = some (g, i) →
    ∃ v, s.viewed e.age = some v ∧ v.matchesGen = g ∧ i < v.entries.length

/-- A list of matches is that of its generation, and edited rows are rows of it. -/
structure RowsKept (s : Session tk) : Prop where
  current : ∀ v ∈ s.state :: s.history.map (·.1), v.matchesGen ≤ s.state.matchesGen ∧
    (v.matchesGen = s.state.matchesGen → v.entries = s.state.entries)
  inside : ∀ i, s.state.matchesOverride i ≠ none → i < s.state.entries.length

/-- Either the list stays or its generation moves on. -/
theorem RowsKept.next (inv : s.RowsKept) (h : s.step e = some t)
    (gen : t.state.matchesGen = s.state.matchesGen ∧ t.state.entries = s.state.entries ∨
      t.state.matchesGen = s.state.matchesGen + 1)
    (inside : ∀ i, t.state.matchesOverride i ≠ none → i < t.state.entries.length) : t.RowsKept := by
  obtain ⟨_, _, hhistory, _⟩ := step_ok h
  refine ⟨fun v hv => ?_, inside⟩
  rw [hhistory, List.map_cons] at hv
  rcases List.mem_cons.mp hv with rfl | hv
  · exact ⟨Nat.le_refl _, fun _ => rfl⟩
  · obtain ⟨hle, heq⟩ := inv.current v hv
    rcases gen with ⟨hgen, hentries⟩ | hgen
    · rw [hgen, hentries]
      exact ⟨hle, heq⟩
    · rw [hgen]
      exact ⟨Nat.le_succ_of_le hle, fun h => absurd hle (by omega)⟩

theorem RowsKept.step (inv : s.RowsKept) (h : s.step e = some t) : t.RowsKept := by
  have moves := step_moves h
  generalize s.state.aim e.world e.msg = aim at moves
  generalize hpanes : t.state.panes = panes at moves
  have hgen : t.state.matchesGen = panes.matchesGen := congrArg Panes.matchesGen hpanes
  have hentries : t.state.entries = panes.entries := congrArg Panes.entries hpanes
  have hover : t.state.matchesOverride = panes.matchesOverride :=
    congrArg Panes.matchesOverride hpanes
  cases moves with
  | aside | edited | told | relisted =>
    refine inv.next h (.inl ⟨hgen, hentries⟩) ?_
    rw [hover, hentries]
    exact inv.inside
  | failed =>
    refine inv.next h (.inl ⟨hgen, hentries⟩) fun i hi => ?_
    rw [hover] at hi
    exact absurd rfl hi
  | lost | renewed =>
    refine inv.next h (.inr hgen) fun i hi => ?_
    rw [hover] at hi
    exact absurd rfl hi
  | counted =>
    refine inv.next h (.inr hgen) ?_
    rw [hover, hentries]
    exact inv.inside
  | @row i new hi =>
    refine inv.next h (.inl ⟨hgen, hentries⟩) fun j hj => ?_
    rw [hentries]
    by_cases hji : j = i
    · rw [hji]
      exact hi.elim id (inv.inside i)
    · have same := (congrFun hover j).trans (Function.update_of_ne hji _ _)
      exact inv.inside j (same ▸ hj)

theorem started_rowsKept (tk : Toolkit) (trayTheme : TrayTheme) (unique : Nat → Id) :
    (started tk trayTheme unique).RowsKept where
  current v hv := by
    rw [List.mem_singleton.mp hv]
    exact ⟨Nat.le_refl _, fun _ => rfl⟩
  inside i hi := absurd rfl hi

/-- Edited rows are rows of the list, and a message that a view issued is not out of
range and, if it passes the test of the generation, acts on the match that was shown. -/
structure StaleHarmless (t : Session tk) : Prop where
  inside : ∀ i, t.state.matchesOverride i ≠ none → i < t.state.entries.length
  inRange : ∀ e, t.RowIssued e → update e.world t.state e.msg ≠ .error .outOfRange
  actsOn : ∀ e, t.RowIssued e → ∀ i v, e.msg.row = some (t.state.matchesGen, i) →
    t.viewed e.age = some v → ∃ x, v.entries[i]? = some x ∧ t.state.entries[i]? = some x ∧
      ∀ s task, update e.world t.state e.msg = .ok (s, task) → t.state.ActsOn s i x.1

theorem RowsKept.shown (inv : t.RowsKept) (issued : t.RowIssued e) {i : Nat}
    (hrow : e.msg.row = some (t.state.matchesGen, i)) :
    ∃ v, t.viewed e.age = some v ∧ v.entries = t.state.entries ∧ i < t.state.entries.length := by
  obtain ⟨v, hv, hgen, hi⟩ := issued _ i hrow
  have heq := (inv.current v (List.mem_of_getElem? hv)).2 hgen
  exact ⟨v, hv, heq, heq ▸ hi⟩

/-- Messages for rows that come from views are harmless, in every run of them. -/
theorem rows_harmless {trayTheme : TrayTheme} {unique : Nat → Id} {es : List (Turn tk)}
    (run : Run step RowIssued (started tk trayTheme unique) es t) : t.StaleHarmless := by
  have inv : t.RowsKept :=
    run.invariant (fun _ _ _ inv _ taken => inv.step taken) (started_rowsKept tk trayTheme unique)
  refine ⟨inv.inside, fun e issued => ?_, fun e issued i v hrow hv => ?_⟩
  · refine update_inRange fun i hrow => ?_
    obtain ⟨_, _, _, hi⟩ := inv.shown issued hrow
    exact hi
  · obtain ⟨v', hv', hentries, hi⟩ := inv.shown issued hrow
    obtain rfl := Option.some.inj (hv'.symm.trans hv)
    have hx := List.getElem?_eq_getElem hi
    refine ⟨_, ?_, hx, fun s task hupdate => update_actsOn hrow hx hupdate⟩
    rw [hentries]
    exact hx

end

end Session

def shownMatch : Match := ⟨"a", "dns", "full", "redirect", "", ""⟩

/-- A row is edited, and then the list moves on. -/
def editedRow : List (Turn plainToolkit) :=
  [.plain (.newMatches [shownMatch]), .plain (.matchUpdate 1 0 "b"), .plain (.activeProcs [])]

def editedRowEnd : Session plainToolkit :=
  (editedRow.foldlM Session.step (.started plainToolkit .dark id)).getD
    (.started plainToolkit .dark id)

theorem rows_harmless_editedRow : editedRowEnd.StaleHarmless := by
  have run : Run Session.step Session.RowIssued (.started plainToolkit .dark id) editedRow
      editedRowEnd := by
    refine .cons ?_ rfl (.cons ?_ rfl (.cons ?_ rfl .nil))
    · intro g i hrow
      cases hrow
    · intro g i hrow
      cases hrow
      exact ⟨_, rfl, rfl, Nat.zero_lt_one⟩
    · intro g i hrow
      cases hrow
  exact Session.rows_harmless run

end Gui

end Rebpf
