import Rebpf.GuiPanes
import Rebpf.Lib.Run

namespace Rebpf

open Lib

namespace Gui

section

variable {tk : Toolkit}

/-- The view lists processes below the input. -/
def State.searchOverlayShow (s : State tk) : Bool :=
  (s.procPopupFocus || s.procInputFocus) && s.procInput != ""

def procBasename (exe : String) : String :=
  String.ofList (((rsplitOnce '/' exe.toList).map (·.2)).getD exe.toList)

/-- The list of processes that a turn leaves, if it makes or drops one. -/
def State.relisted (s : State tk) (e : Turn tk) : Option (Option (List (String × Nat))) :=
  match s.aim e.world e.msg with
  | .relist found => some found
  | _ => none

/-- The process is still the one at its index, and it is what the input is filled with. -/
structure State.Picks (s : State tk) (w : World) (i : Nat) (x : String × Nat) : Prop where
  entry : s.procAt i = some x
  found : update w s (.matchFromProc s.matchesGen i) ≠ .error .unwrapNone
  filled : ∀ t task, update w s (.matchFromProc s.matchesGen i) = .ok (t, task) →
    t.procInput = procBasename x.1

variable {w : World} {s t : State tk} {task : Task}

theorem State.picks_iff {i : Nat} {x : String × Nat} : s.Picks w i x ↔ s.procAt i = some x := by
  refine ⟨State.Picks.entry, fun entry => ⟨entry, ?_, fun t task h => ?_⟩⟩
  · obtain ⟨procs, hprocs, hx⟩ := Option.bind_eq_some_iff.mp entry
    rw [update, if_pos rfl, matchFromProc, hprocs]
    refine (avoids_ok _ procs).bindOk fun found hfound => ?_
    obtain rfl := Except.ok.inj hfound
    rw [hx]
    exact (avoids_ok _ x).bind fun x =>
      (avoids_refreshProcsAll (by decide) (s.picked x.1)).then _
  · rw [update, if_pos rfl] at h
    obtain ⟨x', hx', rfl⟩ := matchFromProc_ok h
    obtain rfl := Option.some.inj (hx'.symm.trans entry)
    rfl

end

namespace Session

section

variable {tk : Toolkit}

/-- The view drawn then shows the process at the index below the input. -/
def ProcShown (s : Session tk) (e : Turn tk) (g i : Nat) (x : String × Nat) : Prop :=
  ∃ v, s.viewed e.age = some v ∧ v.matchesGen = g ∧ v.searchOverlayShow = true ∧
    v.procAt i = some x

/-- A message for a process is one that the view drawn then could issue. -/
def ProcIssued (s : Session tk) (e : Turn tk) : Prop :=
  ∀ g i, e.msg = .matchFromProc g i → ∃ x, s.ProcShown e g i x

/-- The process that was shown is picked, if the message is accepted. -/
def PicksShown (s : Session tk) (e : Turn tk) : Prop :=
  ∀ i x, e.msg = .matchFromProc s.state.matchesGen i →
    s.ProcShown e s.state.matchesGen i x → s.state.Picks e.world i x

/-- Since the view was drawn no list of processes has been made or dropped, or the last
one made has the process at its index. -/
def KeepsShown (s : Session tk) (e : Turn tk) : Prop :=
  ∀ i x, e.msg = .matchFromProc s.state.matchesGen i →
    s.ProcShown e s.state.matchesGen i x →
      ∀ new ∈ (s.history.take e.age).findSome? fun past => past.1.relisted past.2,
        new.bind (·[i]?) = some x

/-- The list of processes is the one there was, unless it has been made anew since. -/
def ListsKept (s : Session tk) : Prop :=
  ∀ age v, s.viewed age = some v → s.state.procsAll =
    ((s.history.take age).findSome? fun past => past.1.relisted past.2).getD v.procsAll

variable {s t : Session tk} {e : Turn tk}

theorem step_procsAll (h : s.step e = some t) :
    t.state.procsAll = (s.state.relisted e).getD s.state.procsAll := by
  have moves := step_moves h
  unfold State.relisted
  generalize s.state.aim e.world e.msg = aim at moves
  generalize hpanes : t.state.panes = panes at moves
  have hprocs : t.state.procsAll = panes.procsAll := congrArg Panes.procsAll hpanes
  cases moves
  all_goals exact hprocs

theorem ListsKept.step (inv : s.ListsKept) (h : s.step e = some t) : t.ListsKept := by
  intro age v hv
  obtain ⟨_, _, hhistory, _⟩ := step_ok h
  rw [viewed, hhistory, List.map_cons] at hv
  rw [hhistory]
  cases age with
  | zero =>
    cases Option.some.inj hv
    rfl
  | succ age =>
    rw [List.getElem?_cons_succ] at hv
    rw [List.take_succ_cons, List.findSome?_cons, step_procsAll h]
    cases hnew : s.state.relisted e with
    | some new => simp
    | none =>
      simp only [Option.getD_none]
      exact inv age v hv

theorem started_listsKept (tk : Toolkit) (trayTheme : TrayTheme) (unique : Nat → Id) :
    (started tk trayTheme unique).ListsKept := by
  intro age v hv
  cases age with
  | zero =>
    cases Option.some.inj hv
    rfl
  | succ age => cases hv

/-- In every run, a message for a process picks what was shown if and only if the list
that was shown is still there where it matters. -/
theorem picksShown_iff {trayTheme : TrayTheme} {unique : Nat → Id} {es : List (Turn tk)}
    (run : Run step ProcIssued (started tk trayTheme unique) es t) (e : Turn tk) :
    t.PicksShown e ↔ t.KeepsShown e := by
  have inv : t.ListsKept :=
    run.invariant (fun _ _ _ inv _ taken => inv.step taken) (started_listsKept tk trayTheme unique)
  refine forall_congr' fun i => forall_congr' fun x => forall_congr' fun _ =>
    forall_congr' fun shown => ?_
  obtain ⟨v, hv, _, _, hx⟩ := shown
  rw [State.picks_iff, State.procAt, inv e.age v hv]
  cases (t.history.take e.age).findSome? fun past => past.1.relisted past.2 with
  | none => exact iff_of_true hx (fun _ h => by cases h)
  | some new => simp

end

end Session

/-- Two processes run. -/
def procWorld : World :=
  { plainWorld with proc := some [some ⟨[49], some "/bin/a"⟩, some ⟨[50], some "/bin/ba"⟩] }

def Turn.listing (msg : M plainToolkit) (age : Nat) : Turn plainToolkit := ⟨procWorld, msg, age⟩

/-- The user types on after the list was drawn. -/
def typedOn : List (Turn plainToolkit) :=
  [.listing .matchFocus 0, .listing (.procs "a") 0, .listing (.procs "ba") 0]

def typedOnEnd : Session plainToolkit :=
  (typedOn.foldlM Session.step (.started plainToolkit .dark id)).getD
    (.started plainToolkit .dark id)

theorem typedOn_run : Run Session.step Session.ProcIssued (.started plainToolkit .dark id) typedOn
    typedOnEnd := by
  refine .cons ?_ rfl (.cons ?_ rfl (.cons ?_ rfl .nil))
  all_goals intro g i hmsg; cases hmsg

/-- The click on the first process of the list that is gone. -/
def lateClick : Turn plainToolkit := .listing (.matchFromProc 0 0) 1

theorem picksShown_iff_typedOn : typedOnEnd.PicksShown lateClick ↔ typedOnEnd.KeepsShown lateClick :=
  Session.picksShown_iff typedOn_run lateClick

theorem lateClick_shown : typedOnEnd.ProcShown lateClick 0 0 ("/bin/a", 1) :=
  ⟨_, rfl, rfl, rfl, rfl⟩

/-- It picks another process. -/
theorem not_picksShown : ¬∀ (es : List (Turn plainToolkit)) (t : Session plainToolkit),
    Run Session.step Session.ProcIssued (.started plainToolkit .dark id) es t →
      ∀ e, t.ProcIssued e → t.PicksShown e := by
  intro picks
  have issued : typedOnEnd.ProcIssued lateClick := by
    intro g i hmsg
    cases hmsg
    exact ⟨_, lateClick_shown⟩
  have picked := picks _ _ typedOn_run _ issued 0 _ rfl lateClick_shown
  have entry : typedOnEnd.state.procAt 0 = some ("/bin/ba", 1) := rfl
  exact absurd (entry.symm.trans picked.entry) (by decide)

end Gui

end Rebpf
