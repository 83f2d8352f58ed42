import Rebpf.GuiState
import Rebpf.Lib.Run
import Rebpf.Lib.Semaphore

namespace Rebpf

open Lib

/-- Who asks for the permit of `listen_proc_names`. -/
inductive Permitted
  | poller
  | closer
deriving DecidableEq, Repr

/-- Where `dbus_service_harness` is: in the select that waits for the service, waiting
for its owner to change, or serving, with the poller on its way to its permit or beyond
it and `process_requests` in a call or not. -/
inductive HarnessPhase
  | connecting
  | ownerless
  | serving (polling calling : Bool)
deriving DecidableEq, Repr

/-- The window as it was told to the harness, its events, and the permits. -/
structure Harness where
  windowOpen : Bool
  queue : List Gui.D
  sema : Semaphore Permitted
  phase : HarnessPhase
  /-- A `WindowClosed` has been taken and waits for the permit. -/
  closing : Bool
  /-- How many of these were dropped where they waited. -/
  lost : Nat
deriving DecidableEq, Repr

inductive HarnessEvent
  | toggle
  | send (d : Gui.D)
  | attached (ok : Bool)
  | ownerChanged
  | propsErr
  | recv
  | reply
  | poll
  | iterate
  | forget
deriving DecidableEq, Repr

def Gui.D.isWindow : Gui.D → Bool
  | .windowOpened | .windowClosed => true
  | _ => false

namespace Harness

/-- `process_requests_sema` up to where it waits. -/
def processRequestsSema (s : Harness) : Gui.D → Harness
  | .windowClosed =>
    let sema := s.sema.acquire .closer
    if .closer ∈ sema.held then { s with sema := sema.forget .closer }
    else { s with sema, closing := true }
  | .windowOpened => { s with sema := s.sema.addPermit }
  | _ => s

/-- The select is left, and the tasks in it are dropped. -/
def cancel (s : Harness) : Harness :=
  { s with
    sema := (s.sema.leave .poller).leave .closer
    phase := .connecting
    closing := false
    lost := if s.closing then s.lost + 1 else s.lost }

def step (s : Harness) : HarnessEvent → Option Harness
  | .toggle => some { s with
      windowOpen := !s.windowOpen
      queue := s.queue ++ [if s.windowOpen then .windowClosed else .windowOpened] }
  | .send d => if d.isWindow then none else some { s with queue := s.queue ++ [d] }
  | .attached ok =>
    if s.phase = .connecting ∧ s.closing = false then
      some { s with phase := if ok then .serving false false else .ownerless }
    else none
  | .ownerChanged =>
    match s.phase with
    | .connecting => none
    | .ownerless => some { s with phase := .connecting }
    | .serving _ _ => some s.cancel
  | .propsErr =>
    match s.phase with
    | .serving _ _ => some s.cancel
    | _ => none
  | .recv =>
    match s.phase, s.closing, s.queue with
    | .connecting, false, d :: queue => some ({ s with queue }.processRequestsSema d)
    | .serving polling false, false, d :: queue =>
      if d.isWindow then some ({ s with queue }.processRequestsSema d)
      else some { s with queue, phase := .serving polling true }
    | _, _, _ => none
  | .reply =>
    match s.phase with
    | .serving polling true => some { s with phase := .serving polling false }
    | _ => none
  | .poll =>
    match s.phase with
    | .serving false calling =>
      some { s with phase := .serving true calling, sema := s.sema.acquire .poller }
    | _ => none
  | .iterate =>
    -- The guard is dropped at the end of a turn, and the next one acquires again.
    match s.phase with
    | .serving true _ =>
      if .poller ∈ s.sema.held then
        some { s with sema := (s.sema.release .poller).acquire .poller }
      else none
    | _ => none
  | .forget =>
    if s.closing ∧ .closer ∈ s.sema.held then
      some { s with sema := s.sema.forget .closer, closing := false }
    else none

/-- Every window event has been taken, and none waits for a permit. -/
def Quiet (s : Harness) : Prop := (∀ d ∈ s.queue, d.isWindow = false) ∧ s.closing = false

/-- The permits, free and held, are those of the window. -/
def FollowsWindow (s : Harness) : Prop := s.sema.total = if s.windowOpen then 1 else 0

/-- The select is not left while a close waits. -/
def KeepsClose (s : Harness) : HarnessEvent → Prop
  | .ownerChanged | .propsErr => s.phase = .ownerless ∨ s.closing = false
  | _ => True

def started : Harness where
  windowOpen := false
  queue := []
  sema := { free := 0, waiting := [], held := [] }
  phase := .connecting
  closing := false
  lost := 0

def opened (s : Harness) : Nat := s.queue.count .windowOpened

def closed (s : Harness) : Nat := s.queue.count .windowClosed

/-- Every permit and every event on its way to one is accounted for. -/
def Balanced (s : Harness) : Prop :=
  s.sema.total + s.opened = s.windowOpen.toNat + s.closed + s.closing.toNat + s.lost

variable {s t : Harness} {ev : HarnessEvent}

theorem total_processRequestsSema (s : Harness) (d : Gui.D) (hnot : s.closing = false) :
    (s.processRequestsSema d).sema.total + [d].count .windowClosed =
      s.sema.total + [d].count .windowOpened + (s.processRequestsSema d).closing.toNat := by
  cases d with
  | windowClosed =>
    simp only [processRequestsSema]
    split
    next h =>
      have hforget := Semaphore.total_forget h
      rw [Semaphore.total_acquire] at hforget
      simp [hnot]
      omega
    next => simp
  | windowOpened => simp [processRequestsSema, hnot]
  | _ => simp [processRequestsSema, hnot]

theorem processRequestsSema_rest (s : Harness) (d : Gui.D) :
    (s.processRequestsSema d).windowOpen = s.windowOpen ∧
      (s.processRequestsSema d).queue = s.queue ∧ (s.processRequestsSema d).lost = s.lost := by
  cases d with
  | windowClosed =>
    simp only [processRequestsSema]
    split
    all_goals exact ⟨rfl, rfl, rfl⟩
  | _ => exact ⟨rfl, rfl, rfl⟩

/-- An event that is taken and told to the semaphore. -/
theorem Balanced.taken (bal : s.Balanced) (hnot : s.closing = false) {d : Gui.D}
    {queue : List Gui.D} (hqueue : s.queue = d :: queue) :
    (processRequestsSema { s with queue } d).Balanced := by
  have htotal := total_processRequestsSema { s with queue } d hnot
  obtain ⟨hwindow, hrest, hlost⟩ := processRequestsSema_rest { s with queue } d
  have hopened : s.opened = [d].count .windowOpened + queue.count .windowOpened := by
    rw [opened, hqueue, ← List.count_append, List.singleton_append]
  have hclosed : s.closed = [d].count .windowClosed + queue.count .windowClosed := by
    rw [closed, hqueue, ← List.count_append, List.singleton_append]
  unfold Balanced at bal ⊢
  rw [opened, closed, hwindow, hrest, hlost]
  rw [hopened, hclosed, hnot, Bool.toNat_false] at bal
  simp only at htotal ⊢
  omega

theorem Balanced.cancel (bal : s.Balanced) : s.cancel.Balanced := by
  unfold Balanced opened closed at *
  simp only [Harness.cancel, Semaphore.total_leave]
  cases hclosing : s.closing with
  | true => simp [hclosing] at bal ⊢; omega
  | false => simp [hclosing] at bal ⊢; omega

/-- A step that leaves the events and the permits as they are. -/
theorem Balanced.still (bal : s.Balanced) (htotal : t.sema.total = s.sema.total)
    (hqueue : t.queue = s.queue) (hwindow : t.windowOpen = s.windowOpen)
    (hclosing : t.closing = s.closing) (hlost : t.lost = s.lost) : t.Balanced := by
  rw [Balanced, opened, closed, htotal, hqueue, hwindow, hclosing, hlost]
  exact bal

theorem Balanced.aside (bal : s.Balanced) {d : Gui.D} (hd : d.isWindow = false)
    {queue : List Gui.D} {phase : HarnessPhase}
    (hqueue : s.queue = d :: queue ∨ queue = s.queue ++ [d]) :
    Balanced { s with queue, phase } := by
  have hopened : d ≠ .windowOpened := fun h => by
    rw [h] at hd
    cases hd
  have hclosed : d ≠ .windowClosed := fun h => by
    rw [h] at hd
    cases hd
  rw [Balanced, opened, closed] at bal ⊢
  rcases hqueue with hqueue | rfl
  · simpa [hqueue, hopened, hclosed] using bal
  · simpa [List.count_append, hopened, hclosed] using bal

/-- What an event can do. -/
inductive Moved (s : Harness) : HarnessEvent → Harness → Prop
  | toggled : s.Moved .toggle { s with
      windowOpen := !s.windowOpen
      queue := s.queue ++ [if s.windowOpen then .windowClosed else .windowOpened] }
  | sent {d} : d.isWindow = false → s.Moved (.send d) { s with queue := s.queue ++ [d] }
  | phased {e phase} : s.KeepsClose e → s.Moved e { s with phase }
  | ended {e} : (e = .ownerChanged ∨ e = .propsErr) → s.phase ≠ .ownerless → s.Moved e s.cancel
  | taken {d queue} : s.closing = false → s.queue = d :: queue →
      s.Moved .recv ({ s with queue }.processRequestsSema d)
  | passed {d queue phase} : d.isWindow = false → s.queue = d :: queue →
      s.Moved .recv { s with queue, phase }
  | polled {phase} : s.Moved .poll { s with phase, sema := s.sema.acquire .poller }
  | iterated : .poller ∈ s.sema.held →
      s.Moved .iterate { s with sema := (s.sema.release .poller).acquire .poller }
  | forgot : s.closing = true → .closer ∈ s.sema.held →
      s.Moved .forget { s with sema := s.sema.forget .closer, closing := false }

theorem step_moved (h : s.step ev = some t) : s.Moved ev t := by
  cases ev with
  | toggle =>
    cases Option.some.inj h
    exact .toggled
  | send d =>
    simp only [step] at h
    split at h
    next => cases h
    next hd =>
      cases Option.some.inj h
      exact .sent (Bool.eq_false_iff.mpr hd)
  | attached ok =>
    simp only [step] at h
    split at h
    next =>
      cases Option.some.inj h
      exact .phased trivial
    next => cases h
  | ownerChanged =>
    simp only [step] at h
    split at h
    next => cases h
    next howner =>
      cases Option.some.inj h
      exact .phased (.inl howner)
    next hserving =>
      cases Option.some.inj h
      exact .ended (.inl rfl) (by simp [hserving])
  | propsErr =>
    simp only [step] at h
    split at h
    next hserving =>
      cases Option.some.inj h
      exact .ended (.inr rfl) (by simp [hserving])
    next => cases h
  | recv =>
    simp only [step] at h
    split at h
    next d queue _ hnot hqueue =>
      cases Option.some.inj h
      exact .taken hnot hqueue
    next polling d queue _ hnot hqueue =>
      split at h
      next =>
        cases Option.some.inj h
        exact .taken hnot hqueue
      next hd =>
        cases Option.some.inj h
        exact .passed (Bool.eq_false_iff.mpr hd) hqueue
    next => cases h
  | reply =>
    simp only [step] at h
    split at h
    next =>
      cases Option.some.inj h
      exact .phased trivial
    next => cases h
  | poll =>
    simp only [step] at h
    split at h
    next =>
      cases Option.some.inj h
      exact .polled
    next => cases h
  | iterate =>
    simp only [step] at h
    split at h
    next =>
      split at h
      next hheld =>
        cases Option.some.inj h
        exact .iterated hheld
      next => cases h
    next => cases h
  | forget =>
    simp only [step] at h
    split at h
    next hheld =>
      cases Option.some.inj h
      exact .forgot hheld.1 hheld.2
    next => cases h

theorem Balanced.step (bal : s.Balanced) (h : s.step ev = some t) : t.Balanced := by
  cases step_moved h with
  | toggled =>
    unfold Balanced opened closed at *
    cases hopen : s.windowOpen with
    | true => simp [hopen, List.count_append] at bal ⊢; omega
    | false => simp [hopen, List.count_append] at bal ⊢; omega
  | sent hd => exact bal.aside hd (.inr rfl)
  | phased _ => exact bal
  | ended _ _ => exact bal.cancel
  | taken hnot hqueue => exact bal.taken hnot hqueue
  | passed hd hqueue => exact bal.aside hd (.inl hqueue)
  | polled => exact bal.still Semaphore.total_acquire rfl rfl rfl rfl
  | iterated hheld =>
    refine bal.still ?_ rfl rfl rfl rfl
    rw [Semaphore.total_acquire, Semaphore.total_release hheld]
  | forgot hclosing hheld =>
    have hforget := Semaphore.total_forget hheld
    unfold Balanced opened closed at *
    simp only [hclosing, Bool.toNat_true, Bool.toNat_false] at bal ⊢
    omega

theorem cancel_lost (s : Harness) :
    s.lost ≤ s.cancel.lost ∧ (s.cancel.lost = s.lost ↔ s.closing = false) := by
  cases hclosing : s.closing with
  | true => simp [cancel, hclosing]
  | false => simp [cancel, hclosing]

/-- Only where the select is left a close that waits is lost. -/
theorem step_lost (h : s.step ev = some t) :
    s.lost ≤ t.lost ∧ (t.lost = s.lost ↔ s.KeepsClose ev) := by
  have same : t.lost = s.lost → s.KeepsClose ev → s.lost ≤ t.lost ∧
      (t.lost = s.lost ↔ s.KeepsClose ev) :=
    fun hlost hkeeps => ⟨Nat.le_of_eq hlost.symm, iff_of_true hlost hkeeps⟩
  cases step_moved h with
  | phased hkeeps => exact same rfl hkeeps
  | ended hev hserving =>
    obtain ⟨hle, hiff⟩ := cancel_lost s
    have hkeeps : s.KeepsClose ev ↔ s.closing = false := by
      rcases hev with rfl | rfl
      · exact or_iff_right hserving
      · exact or_iff_right hserving
    exact ⟨hle, hiff.trans hkeeps.symm⟩
  | @taken d queue _ _ => exact same (processRequestsSema_rest _ d).2.2 trivial
  | toggled | sent | passed | polled | iterated | forgot => exact same rfl trivial

theorem started_balanced : started.Balanced := rfl

/-- With no window event left in the queue, the permits in excess are the closes lost. -/
theorem Balanced.follows_iff (bal : s.Balanced) (quiet : s.Quiet) :
    s.FollowsWindow ↔ s.lost = 0 := by
  obtain ⟨hqueue, hclosing⟩ := quiet
  have hopened : s.opened = 0 :=
    List.count_eq_zero.mpr fun h => by simpa [Gui.D.isWindow] using hqueue _ h
  have hclosed : s.closed = 0 :=
    List.count_eq_zero.mpr fun h => by simpa [Gui.D.isWindow] using hqueue _ h
  unfold Balanced at bal
  rw [hopened, hclosed, hclosing] at bal
  unfold FollowsWindow
  cases hopen : s.windowOpen with
  | true => simp [hopen] at bal ⊢; omega
  | false => simp [hopen] at bal ⊢; omega

/-- Where all is quiet the permits follow the window in the runs that never leave the
select while a close waits, and in no other. -/
theorem followsWindow_iff {es : List HarnessEvent}
    (run : Run step (fun _ _ => True) started es t) (quiet : t.Quiet) :
    t.FollowsWindow ↔ Run step KeepsClose started es t := by
  have bal : t.Balanced := run.invariant (fun _ _ _ bal _ taken => bal.step taken) started_balanced
  rw [bal.follows_iff quiet]
  exact (run.iff_still (f := Harness.lost) fun _ _ _ taken => step_lost taken).2

/-- The window is opened, and closed while a turn of the poller holds the permit. -/
def closedWhilePolling : List HarnessEvent :=
  [.toggle, .recv, .attached true, .poll, .toggle, .recv]

theorem followsWindow_iff_forget :
    FollowsWindow { started with
        sema := { free := 0, waiting := [.poller], held := [] }, phase := .serving true false } ↔
      Run step KeepsClose started (closedWhilePolling ++ [.iterate, .forget])
        { started with
          sema := { free := 0, waiting := [.poller], held := [] }, phase := .serving true false } :=
  followsWindow_iff (Run.of_foldlM rfl) ⟨List.forall_mem_nil _, rfl⟩

/-- The service goes away before the turn ends: its permit comes back, and the close that
waited for it is gone. -/
theorem not_followsWindow : ¬∀ (es : List HarnessEvent) (t : Harness),
    Run step (fun _ _ => True) started es t → t.Quiet → t.FollowsWindow := by
  intro follows
  have total := follows (closedWhilePolling ++ [.ownerChanged])
    { started with sema := { free := 1, waiting := [], held := [] }, lost := 1 }
    (Run.of_foldlM rfl) ⟨List.forall_mem_nil _, rfl⟩
  cases total

end Harness

end Rebpf
