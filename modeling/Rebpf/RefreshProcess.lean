import Rebpf.MarkCoverage
import Rebpf.Lib.Exchange

namespace Rebpf

open Lib WatchReload

/-- `bpf_refresh_sockets` at work in the forked process: its mark, the sockets that its
iterator has still to visit, and those it has reported. -/
structure Sweep where
  mark : UInt32
  left : List Nat
  reported : List Nat

/-- The daemon and the process it forks off to mark sockets. What `asked` and `swept` tell
is which marks the daemon has begun to write and `bpf_refresh_sockets` was called for. -/
structure Processes where
  main : WatchReload
  link : Exchange UInt8
  sweep : Option Sweep
  asked : List UInt32
  swept : List UInt32

inductive ProcessEvent
  | main (event : WatchReloadEvent)
  | call
  | bytes (event : ExchangeEvent UInt8)
  | sweep
  | report (i : Nat)
  | setMark (i : Nat)
  | answer
  | finish
  | hangUp
  | eof
  | crash

/-- What happens outside `watch_reload`. -/
def WatchReloadEvent.Outside : WatchReloadEvent → Bool
  | .config _ | .output _ | .socket _ _ => true
  | _ => false

/-- What `watch_reload` does up to the sweep. -/
def WatchReloadEvent.Sets : WatchReloadEvent → Bool
  | .start _ | .request | .read | .build | .stmt => true
  | _ => false

/-- `u32::from_ne_bytes`. -/
def markOf (e : Endian) (bytes : List UInt8) : Option UInt32 := ((memOf bytes).word e 0).map .ofNat

section

variable (c : Crates) (e : Endian) (alloc : Nat → Option (Nat → UInt8))
  (programs : TaskId → Option Dentry × UInt32)

namespace Processes

def new (d : Daemon) : Processes :=
  { main := ⟨d, .idle⟩, link := .new, sweep := none, asked := [], swept := [] }

/-- `watch_reload` goes on as long as its end of the stream is there. -/
def mainStep (event : WatchReloadEvent) (s : Processes) : Option Processes :=
  match s.link.caller, event.Outside, event.Sets with
  | _, true, _ => (s.main.step c e alloc programs event).map ({ s with main := · })
  | .gone, _, _ => none
  | _, _, true => (s.main.step c e alloc programs event).map ({ s with main := · })
  | _, _, false => none

/-- `refresh_tx.write_all` begins. -/
def call (s : Processes) : Option Processes :=
  match s.main.stage with
  | .loading plan _ [] => do
    let link ← s.link.call (wordBytes e plan.newMark.toNat)
    return { s with link, asked := s.asked ++ [plan.newMark] }
  | _ => none

def bytes (event : ExchangeEvent UInt8) (s : Processes) : Option Processes :=
  match event with
  | .send _ | .take _ | .reply _ | .get _ => do
    let link ← s.link.step 4 4 event
    return { s with link }
  | _ => none

def beginSweep (s : Processes) : Option Processes :=
  match s.link.server, s.sweep with
  | .working request, none => do
    let mark ← markOf e request
    return { s with
      sweep := some { mark, left := List.range s.main.daemon.sockets.length, reported := [] }
      swept := s.swept ++ [mark] }
  | _, _ => none

def report (i : Nat) (s : Processes) : Option Processes := do
  let sweep ← s.sweep
  let sock ← s.main.daemon.sockets[i]?
  let (report, kernel) :=
    s.main.daemon.kernel.refreshSocket e alloc sock.family (taskOf programs sock.task)
  return { s with
    main := { s.main with daemon := { s.main.daemon with kernel } }
    sweep := some { sweep with
      left := sweep.left.erase i
      reported := if report then i :: sweep.reported else sweep.reported } }

def setMark (i : Nat) (s : Processes) : Option Processes := do
  let sweep ← s.sweep
  if i ∈ sweep.reported then
    let sockets := s.main.daemon.sockets.modify i ({ · with mark := sweep.mark })
    some { s with
      main := { s.main with daemon := { s.main.daemon with sockets } }
      sweep := some { sweep with reported := sweep.reported.erase i } }
  else none

def answer (s : Processes) : Option Processes :=
  match s.sweep with
  | some ⟨_, [], []⟩ => do
    let link ← s.link.answer (wordBytes e 0)
    return { s with link, sweep := none }
  | _ => none

/-- `refresh_tx.read_exact` is done, and the iteration ends. -/
def finish (s : Processes) : Option Processes :=
  match s.main.stage with
  | .loading plan _ [] => do
    let link ← s.link.back
    return { s with
      link
      main := { daemon := { s.main.daemon with
                  blocker := plan.blocker, seen := some (plan.conf, plan.route) }
                stage := .idle } }
  | _ => none

/-- `tasks.shutdown`, at whatever point of `watch_reload`. -/
def hangUp (s : Processes) : Option Processes := do
  let link ← s.link.hangUp
  return { s with link }

def eof (s : Processes) : Option Processes := do
  let link ← s.link.eof
  return { s with link }

/-- An `EXPECT` of `bpf_refresh_sockets` fails. -/
def crash (s : Processes) : Option Processes := do
  let link ← s.link.crash
  return { s with link, sweep := none }

def step (s : Processes) : ProcessEvent → Option Processes
  | .main event => s.mainStep c e alloc programs event
  | .call => s.call e
  | .bytes event => s.bytes event
  | .sweep => s.beginSweep e
  | .report i => s.report e alloc programs i
  | .setMark i => s.setMark i
  | .answer => s.answer e
  | .finish => s.finish
  | .hangUp => s.hangUp
  | .eof => s.eof
  | .crash => s.crash

/-- The state of `watch_reload`, of one process and at one stage, that the two processes
are in. The mark on its way is that of the iteration at hand. -/
inductive Tracks : Processes → WatchReload → Prop
  | own {s} : s.link.Carries 4 4 .idle → s.sweep = none → s.swept = s.asked → Tracks s s.main
  | asked {s plan bpf p} : s.main.stage = .loading plan bpf [] →
      (p = .asked (wordBytes e plan.newMark.toNat) ∨ p = .working (wordBytes e plan.newMark.toNat)) →
      s.link.Carries 4 4 p → s.sweep = none → s.asked = s.swept ++ [plan.newMark] → Tracks s s.main
  | sweeping {s plan bpf left reported} : s.main.stage = .loading plan bpf [] →
      s.link.Carries 4 4 (.working (wordBytes e plan.newMark.toNat)) →
      s.sweep = some ⟨plan.newMark, left, reported⟩ → s.swept = s.asked →
      Tracks s ⟨s.main.daemon, .sweeping plan left reported⟩
  | swept {s plan bpf p reply} : s.main.stage = .loading plan bpf [] →
      (p = .answered reply ∨ p = .returned reply) → s.link.Carries 4 4 p → s.sweep = none →
      s.swept = s.asked → Tracks s ⟨s.main.daemon, .sweeping plan [] []⟩
  | crashed {s plan bpf request stage} : s.main.stage = .loading plan bpf [] →
      s.link.Carries 4 4 (.working request) → s.link.server = .gone → s.sweep = none →
      (s.swept = s.asked ∨ s.asked = s.swept ++ [plan.newMark]) → Tracks s ⟨s.main.daemon, stage⟩

end Processes

end

section

variable {c : Crates} {e : Endian} {alloc : Nat → Option (Nat → UInt8)}
  {programs : TaskId → Option Dentry × UInt32} {event : WatchReloadEvent}

theorem markOf_wordBytes (mark : UInt32) : markOf e (wordBytes e mark.toNat) = some mark := by
  have hword := memOf_word_here e [] [] mark.toNat
  rw [List.nil_append, List.append_nil, List.length_nil,
    Nat.mod_eq_of_lt mark.toNat_lt] at hword
  rw [markOf, hword]
  exact congrArg some UInt32.ofNat_toNat

/-- What happens outside goes on at every stage alike. -/
theorem WatchReload.step_outside {s t : WatchReload} (outside : event.Outside = true)
    (taken : s.step c e alloc programs event = some t) : t.stage = s.stage ∧
      ∀ stage, WatchReload.step c e alloc programs ⟨s.daemon, stage⟩ event =
        some ⟨t.daemon, stage⟩ := by
  cases event with
  | config | output | socket =>
    cases Option.some.inj taken
    exact ⟨rfl, fun _ => rfl⟩
  | start | request | read | build | stmt | iterate | report | setMark | finish => cases outside

theorem WatchReload.step_loaded {s : WatchReload} {plan : Plan} {bpf : BpfConfig}
    (loaded : s.stage = .loading plan bpf []) (sets : event.Sets = true) :
    s.step c e alloc programs event = none := by
  cases event with
  | start | request | read | build | stmt =>
    simp [WatchReload.step, start, WatchReload.request, read, build, WatchReload.stmt, loaded]
  | config | output | socket | iterate | report | setMark | finish => cases sets

theorem WatchReload.step_sockets {s t : WatchReload}
    (kind : event.Outside = true ∨ event.Sets = true)
    (taken : s.step c e alloc programs event = some t) :
    s.daemon.sockets.length ≤ t.daemon.sockets.length := by
  cases event with
  | config | output =>
    cases Option.some.inj taken
    exact Nat.le_refl _
  | socket family id =>
    cases Option.some.inj taken
    simp [WatchReload.socket]
  | start newMark =>
    obtain ⟨_, _, rfl⟩ := start_some taken
    exact Nat.le_refl _
  | request =>
    obtain ⟨_, _, _, _, _, ⟨_, _, _, rfl⟩ | ⟨_, _, rfl⟩⟩ := request_some taken
    · exact Nat.le_refl _
    · exact Nat.le_refl _
  | read =>
    obtain ⟨_, _, _, rfl⟩ := read_some taken
    exact Nat.le_refl _
  | build =>
    obtain ⟨_, _, _, _, _, _, rfl⟩ := build_some taken
    exact Nat.le_refl _
  | stmt =>
    obtain ⟨_, _, _, _, _, _, _, rfl⟩ := stmt_some taken
    exact Nat.le_refl _
  | iterate | report | setMark | finish => obtain h | h := kind <;> cases h

namespace Processes

variable {s t : Processes} {w : WatchReload}

theorem mainStep_some (h : s.mainStep c e alloc programs event = some t) :
    ∃ main, s.main.step c e alloc programs event = some main ∧ t = { s with main } ∧
      (event.Outside = true ∨ event.Sets = true) := by
  unfold mainStep at h
  split at h
  next houtside =>
    obtain ⟨main, hmain, rfl⟩ := Option.map_eq_some_iff.mp h
    exact ⟨main, hmain, rfl, Or.inl houtside⟩
  next => cases h
  next hsets _ _ =>
    obtain ⟨main, hmain, rfl⟩ := Option.map_eq_some_iff.mp h
    exact ⟨main, hmain, rfl, Or.inr hsets⟩
  next => cases h

/-- Once the configuration is loaded, nothing but what happens outside goes on in the daemon. -/
theorem loaded_outside {main : WatchReload} {plan : Plan} {bpf : BpfConfig}
    (loaded : s.main.stage = .loading plan bpf [])
    (taken : s.main.step c e alloc programs event = some main)
    (kind : event.Outside = true ∨ event.Sets = true) : event.Outside = true := by
  obtain houtside | hsets := kind
  · exact houtside
  · rw [WatchReload.step_loaded loaded hsets] at taken
    cases taken

theorem Tracks.main (h : s.Tracks e w) (taken : s.mainStep c e alloc programs event = some t) :
    ∃ u, WatchReload.Reaches c e alloc programs w u ∧ t.Tracks e u := by
  obtain ⟨main, hmain, rfl, kind⟩ := mainStep_some taken
  cases h with
  | own hlink hsweep hswept =>
    exact ⟨main, .head event hmain ⟨[], .nil⟩, .own hlink hsweep hswept⟩
  | asked hstage hp hlink hsweep hasked =>
    obtain ⟨hkept, _⟩ := WatchReload.step_outside (loaded_outside hstage hmain kind) hmain
    exact ⟨main, .head event hmain ⟨[], .nil⟩, .asked (hkept.trans hstage) hp hlink hsweep hasked⟩
  | sweeping hstage hlink hsweep hswept =>
    obtain ⟨hkept, hany⟩ := WatchReload.step_outside (loaded_outside hstage hmain kind) hmain
    exact ⟨_, .head event (hany _) ⟨[], .nil⟩,
      .sweeping (s := { s with main }) (hkept.trans hstage) hlink hsweep hswept⟩
  | swept hstage hp hlink hsweep hswept =>
    obtain ⟨hkept, hany⟩ := WatchReload.step_outside (loaded_outside hstage hmain kind) hmain
    exact ⟨_, .head event (hany _) ⟨[], .nil⟩,
      .swept (s := { s with main }) (hkept.trans hstage) hp hlink hsweep hswept⟩
  | crashed hstage hlink hgone hsweep hswept =>
    obtain ⟨hkept, hany⟩ := WatchReload.step_outside (loaded_outside hstage hmain kind) hmain
    exact ⟨_, .head event (hany _) ⟨[], .nil⟩,
      .crashed (s := { s with main }) (hkept.trans hstage) hlink hgone hsweep hswept⟩

theorem Tracks.call (h : s.Tracks e w) (taken : s.call e = some t) :
    w = s.main ∧ t.main = s.main ∧ t.Tracks e s.main := by
  unfold Processes.call at taken
  split at taken
  next plan bpf hstage =>
    obtain ⟨link, hcall, taken⟩ := Option.bind_eq_some_iff.mp taken
    cases Option.some.inj taken
    have hbytes : (wordBytes e plan.newMark.toNat).length = 4 := wordBytes_length e _
    have calling : ∀ {p}, s.link.Carries 4 4 p →
        p = .idle ∧ link.Carries 4 4 (.asked (wordBytes e plan.newMark.toNat)) := fun hp =>
      hp.call (by decide) hbytes hcall
    cases h with
    | own hlink hsweep hswept =>
      refine ⟨rfl, rfl, .asked (s := { s with link, asked := s.asked ++ [plan.newMark] }) hstage
        (Or.inl rfl) (calling hlink).2 hsweep ?_⟩
      rw [hswept]
    | asked _ hp hlink =>
      obtain ⟨rfl, _⟩ := calling hlink
      obtain hp | hp := hp <;> cases hp
    | sweeping _ hlink => cases (calling hlink).1
    | swept _ hp hlink =>
      obtain ⟨rfl, _⟩ := calling hlink
      obtain hp | hp := hp <;> cases hp
    | crashed _ hlink => cases (calling hlink).1
  next => cases taken

theorem bytes_some {event : ExchangeEvent UInt8} (h : s.bytes event = some t) :
    event.Moves ∧ ∃ link, s.link.step 4 4 event = some link ∧ t = { s with link } := by
  cases event with
  | send | take | reply | get =>
    obtain ⟨link, hlink, h⟩ := Option.bind_eq_some_iff.mp h
    exact ⟨trivial, link, hlink, (Option.some.inj h).symm⟩
  | call | answer | back | hangUp | eof | crash => cases h

theorem Tracks.bytes {event : ExchangeEvent UInt8} (h : s.Tracks e w)
    (taken : s.bytes event = some t) : t.Tracks e w := by
  obtain ⟨moves, link, hmove, rfl⟩ := bytes_some taken
  have still : ∀ {p : Progress UInt8}, p.arrived = p → s.link.Carries 4 4 p → link.Carries 4 4 p := by
    intro p hp hlink
    obtain h | h := hlink.move (by decide) (by decide) moves hmove
    · exact h
    · exact hp ▸ h
  cases h with
  | own hlink hsweep hswept => exact .own (s := { s with link }) (still rfl hlink) hsweep hswept
  | asked hstage hp hlink hsweep hasked =>
    obtain ⟨q, hq, hlink⟩ :=
      hlink.move_between (by decide) (by decide) moves hp rfl rfl hmove
    exact .asked (s := { s with link }) hstage hq hlink hsweep hasked
  | sweeping hstage hlink hsweep hswept =>
    exact .sweeping (s := { s with link }) hstage (still rfl hlink) hsweep hswept
  | swept hstage hp hlink hsweep hswept =>
    obtain ⟨q, hq, hlink⟩ :=
      hlink.move_between (by decide) (by decide) moves hp rfl rfl hmove
    exact .swept (s := { s with link }) hstage hq hlink hsweep hswept
  | crashed _ hlink hgone =>
    rw [hlink.gone_still hgone moves] at hmove
    cases hmove

/-- The sweep begins with the mark of the iteration at hand. -/
theorem Tracks.beginSweep (h : s.Tracks e w) (taken : s.beginSweep e = some t) :
    ∃ u, w.iterate = some u ∧ t.Tracks e u := by
  unfold Processes.beginSweep at taken
  split at taken
  next request hserver hnone =>
    obtain ⟨mark, hmark, taken⟩ := Option.bind_eq_some_iff.mp taken
    cases Option.some.inj taken
    cases h with
    | own hlink => cases hlink.of_working hserver
    | @asked plan bpf p hstage hp hlink hsweep hasked =>
      have hworking := hlink.of_working hserver
      obtain rfl | rfl := hp
      · cases hworking
      · cases hworking
        rw [markOf_wordBytes] at hmark
        cases Option.some.inj hmark
        refine ⟨_, ?_, .sweeping hstage hlink rfl hasked.symm⟩
        rw [WatchReload.iterate, hstage]
    | sweeping _ _ hsweep => cases hsweep.symm.trans hnone
    | swept _ hp hlink =>
      cases hlink.of_working hserver
      obtain hp | hp := hp <;> cases hp
    | crashed _ _ hgone => cases hgone.symm.trans hserver
  next => cases taken

theorem Tracks.report {i : Nat} (h : s.Tracks e w) (taken : s.report e alloc programs i = some t) :
    ∃ u, w.report e alloc programs i = some u ∧ t.Tracks e u := by
  obtain ⟨sweep, hsome, taken⟩ := Option.bind_eq_some_iff.mp taken
  obtain ⟨sock, hsock, taken⟩ := Option.bind_eq_some_iff.mp taken
  cases Option.some.inj taken
  cases h with
  | sweeping hstage hlink hsweep hswept =>
    cases Option.some.inj (hsweep.symm.trans hsome)
    refine ⟨_, ?_, .sweeping hstage hlink rfl hswept⟩
    simp only [WatchReload.report, hsock]
    rfl
  | own _ hsweep | asked _ _ _ hsweep | swept _ _ _ hsweep | crashed _ _ _ hsweep =>
    cases hsweep.symm.trans hsome

theorem Tracks.setMark {i : Nat} (h : s.Tracks e w) (taken : s.setMark i = some t) :
    ∃ u, w.setMark i = some u ∧ t.Tracks e u := by
  obtain ⟨sweep, hsome, taken⟩ := Option.bind_eq_some_iff.mp taken
  split at taken
  next hreported =>
    cases Option.some.inj taken
    cases h with
    | sweeping hstage hlink hsweep hswept =>
      cases Option.some.inj (hsweep.symm.trans hsome)
      exact ⟨_, if_pos hreported, .sweeping hstage hlink rfl hswept⟩
    | own _ hsweep | asked _ _ _ hsweep | swept _ _ _ hsweep | crashed _ _ _ hsweep =>
      cases hsweep.symm.trans hsome
  next => cases taken

theorem Tracks.answer (h : s.Tracks e w) (taken : s.answer e = some t) : t.Tracks e w := by
  unfold Processes.answer at taken
  split at taken
  next mark hsome =>
    obtain ⟨link, hanswer, taken⟩ := Option.bind_eq_some_iff.mp taken
    cases Option.some.inj taken
    cases h with
    | sweeping hstage hlink hsweep hswept =>
      cases hsweep.symm.trans hsome
      obtain ⟨_, _, hnext⟩ := hlink.answer (by decide) (wordBytes_length e 0) hanswer
      exact .swept (s := { s with link, sweep := none }) hstage (Or.inl rfl) hnext rfl hswept
    | own _ hsweep | asked _ _ _ hsweep | swept _ _ _ hsweep | crashed _ _ _ hsweep =>
      cases hsweep.symm.trans hsome
  next => cases taken

theorem Tracks.finish (h : s.Tracks e w) (taken : s.finish = some t) :
    ∃ u, w.finish = some u ∧ t.Tracks e u := by
  unfold Processes.finish at taken
  split at taken
  next plan bpf hstage =>
    obtain ⟨link, hback, taken⟩ := Option.bind_eq_some_iff.mp taken
    cases Option.some.inj taken
    cases h with
    | swept hloaded hp hlink hsweep hswept =>
      cases hloaded.symm.trans hstage
      obtain ⟨_, _, hnext⟩ := hlink.back hback
      exact ⟨_, rfl, .own hnext hsweep hswept⟩
    | own hlink => obtain ⟨_, hp, _⟩ := hlink.back hback; cases hp
    | sweeping _ hlink => obtain ⟨_, hp, _⟩ := hlink.back hback; cases hp
    | crashed _ hlink => obtain ⟨_, hp, _⟩ := hlink.back hback; cases hp
    | asked _ hp hlink =>
      obtain ⟨_, rfl, _⟩ := hlink.back hback
      obtain hp | hp := hp <;> cases hp
  next => cases taken

theorem Tracks.hangUp (h : s.Tracks e w) (taken : s.hangUp = some t) : t.Tracks e w := by
  obtain ⟨link, hlinked, taken⟩ := Option.bind_eq_some_iff.mp taken
  cases Option.some.inj taken
  cases h with
  | own hlink hsweep hswept => exact .own (s := { s with link }) (hlink.hangUp hlinked) hsweep hswept
  | asked hstage hp hlink hsweep hasked =>
    exact .asked (s := { s with link }) hstage hp (hlink.hangUp hlinked) hsweep hasked
  | sweeping hstage hlink hsweep hswept =>
    exact .sweeping (s := { s with link }) hstage (hlink.hangUp hlinked) hsweep hswept
  | swept hstage hp hlink hsweep hswept =>
    exact .swept (s := { s with link }) hstage hp (hlink.hangUp hlinked) hsweep hswept
  | crashed hstage hlink hgone hsweep hswept =>
    have hserver : link.server = .gone := by
      rw [Exchange.hangUp_some hlinked]
      exact hgone
    exact .crashed (s := { s with link }) hstage (hlink.hangUp hlinked) hserver hsweep hswept

theorem Tracks.eof (h : s.Tracks e w) (taken : s.eof = some t) : t.Tracks e w := by
  obtain ⟨link, hlinked, taken⟩ := Option.bind_eq_some_iff.mp taken
  cases Option.some.inj taken
  cases h with
  | own _ hsweep hswept => exact .own (s := { s with link }) (.of_eof hlinked) hsweep hswept
  | asked hstage hp _ hsweep hasked =>
    exact .asked (s := { s with link }) hstage hp (.of_eof hlinked) hsweep hasked
  | sweeping hstage _ hsweep hswept =>
    exact .sweeping (s := { s with link }) hstage (.of_eof hlinked) hsweep hswept
  | swept hstage hp _ hsweep hswept =>
    exact .swept (s := { s with link }) hstage hp (.of_eof hlinked) hsweep hswept
  | crashed _ _ hgone =>
    obtain ⟨_, ⟨_, _, hloop⟩, _⟩ := Exchange.eof_some hlinked
    cases hgone.symm.trans hloop

theorem Tracks.crash (h : s.Tracks e w) (taken : s.crash = some t) : t.Tracks e w := by
  obtain ⟨link, hlinked, taken⟩ := Option.bind_eq_some_iff.mp taken
  cases Option.some.inj taken
  obtain ⟨⟨request, hworking⟩, hlink'⟩ := Exchange.crash_some hlinked
  have hgone : link.server = .gone := by rw [hlink']
  cases h with
  | own hlink => cases hlink.of_working hworking
  | asked hstage hp hlink hsweep hasked =>
    obtain rfl := hlink.of_working hworking
    exact .crashed (s := { s with link, sweep := none }) hstage (hlink.crash hlinked) hgone rfl
      (Or.inr hasked)
  | sweeping hstage hlink hsweep hswept =>
    exact .crashed (s := { s with link, sweep := none }) hstage (hlink.crash hlinked) hgone rfl
      (Or.inl hswept)
  | swept _ hp hlink =>
    cases hlink.of_working hworking
    obtain hp | hp := hp <;> cases hp
  | crashed _ _ hserver => cases hserver.symm.trans hworking

/-- Each event of the two processes is one of `watch_reload`, or none. -/
theorem Tracks.step {event : ProcessEvent} (h : s.Tracks e w)
    (taken : s.step c e alloc programs event = some t) :
    ∃ u, WatchReload.Reaches c e alloc programs w u ∧ t.Tracks e u := by
  have still : ∀ {u : WatchReload}, WatchReload.Reaches c e alloc programs u u := ⟨[], .nil⟩
  cases event with
  | main event => exact h.main taken
  | call =>
    obtain ⟨rfl, _, hnext⟩ := h.call taken
    exact ⟨_, still, hnext⟩
  | bytes event => exact ⟨w, still, h.bytes taken⟩
  | sweep =>
    obtain ⟨u, hu, hnext⟩ := h.beginSweep taken
    exact ⟨u, .head .iterate hu still, hnext⟩
  | report i =>
    obtain ⟨u, hu, hnext⟩ := h.report taken
    exact ⟨u, .head (.report i) hu still, hnext⟩
  | setMark i =>
    obtain ⟨u, hu, hnext⟩ := h.setMark taken
    exact ⟨u, .head (.setMark i) hu still, hnext⟩
  | answer => exact ⟨w, still, h.answer taken⟩
  | finish =>
    obtain ⟨u, hu, hnext⟩ := h.finish taken
    exact ⟨u, .head .finish hu still, hnext⟩
  | hangUp => exact ⟨w, still, h.hangUp taken⟩
  | eof => exact ⟨w, still, h.eof taken⟩
  | crash => exact ⟨w, still, h.crash taken⟩

theorem tracks_run {d : Daemon} {events : List ProcessEvent}
    (run : Run (Processes.step c e alloc programs) (fun _ _ => True) (.new d) events s) :
    ∃ w, WatchReload.Reaches c e alloc programs ⟨d, .idle⟩ w ∧ s.Tracks e w := by
  refine run.invariant (I := fun s => ∃ w, WatchReload.Reaches c e alloc programs ⟨d, .idle⟩ w ∧
    s.Tracks e w) ?_ ⟨_, ⟨[], .nil⟩, .own .new rfl rfl⟩
  rintro s event t ⟨w, reaches, tracks⟩ _ taken
  obtain ⟨u, further, hnext⟩ := tracks.step taken
  exact ⟨u, reaches.trans further, hnext⟩

/-- The two processes do what one would that marks the sockets by itself. -/
theorem refresh_process_refines {d : Daemon} {events : List ProcessEvent}
    (run : Run (Processes.step c e alloc programs) (fun _ _ => True) (.new d) events s) :
    ∃ w, WatchReload.Reaches c e alloc programs ⟨d, .idle⟩ w ∧ w.daemon = s.main.daemon ∧
      (∀ sweep, s.sweep = some sweep → ∃ plan bpf, s.main.stage = .loading plan bpf [] ∧
        sweep.mark = plan.newMark ∧ w.stage = .sweeping plan sweep.left sweep.reported) ∧
      (s.link.caller = .idle → w = s.main) := by
  obtain ⟨w, reaches, tracks⟩ := tracks_run run
  refine ⟨w, reaches, ?_⟩
  cases tracks with
  | own _ hsweep => exact ⟨rfl, by simp [hsweep], fun _ => rfl⟩
  | asked _ _ _ hsweep => exact ⟨rfl, by simp [hsweep], fun _ => rfl⟩
  | @sweeping plan bpf left reported hstage hlink hsweep =>
    refine ⟨rfl, fun sweep hsome => ?_, fun hidle => by cases hlink.of_idle hidle⟩
    cases Option.some.inj (hsweep.symm.trans hsome)
    exact ⟨plan, bpf, hstage, rfl, rfl⟩
  | swept _ hp hlink hsweep =>
    refine ⟨rfl, by simp [hsweep], fun hidle => ?_⟩
    obtain rfl := hlink.of_idle hidle
    obtain hp | hp := hp <;> cases hp
  | crashed _ hlink _ hsweep =>
    exact ⟨rfl, by simp [hsweep], fun hidle => by cases hlink.of_idle hidle⟩

/-- An iteration whose mark is written in two chunks and read in two others. -/
def askingEvents : List ProcessEvent :=
  [.main (.start 70001), .main .read, .main .request, .main .request, .main .request, .main .build,
    .main .stmt, .main .stmt, .main .stmt, .main .stmt, .call, .bytes (.send 3), .bytes (.take 2),
    .bytes (.send 1)]

def refreshEvents : List ProcessEvent :=
  askingEvents ++ [.bytes (.take 2), .sweep, .report 0, .setMark 0, .answer, .bytes (.reply 4),
    .bytes (.get 4), .finish]

set_option maxRecDepth 4000 in
theorem refresh_process_refines_slashA :
    ∃ s, Run (Processes.step slashACrates .little zeroedPages slashAPrograms) (fun _ _ => True)
        (.new loadedDaemon) refreshEvents s ∧ s.main.stage = .idle ∧
      WatchReload.Reaches slashACrates .little zeroedPages slashAPrograms ⟨loadedDaemon, .idle⟩
        s.main := by
  have run : ∃ s, Run (Processes.step slashACrates .little zeroedPages slashAPrograms)
      (fun _ _ => True) (.new loadedDaemon) refreshEvents s ∧ s.main.stage = .idle ∧
      s.link.caller = .idle := ⟨_, .of_foldlM rfl, rfl, rfl⟩
  obtain ⟨s, run, hstage, hcaller⟩ := run
  obtain ⟨w, reaches, _, _, hidle⟩ := refresh_process_refines run
  exact ⟨s, run, hstage, hidle hcaller ▸ reaches⟩

/-- A sweep is made for every mark, in the order of the iterations, each before
`watch_reload` goes on. -/
theorem swept_in_order {d : Daemon} {events : List ProcessEvent}
    (run : Run (Processes.step c e alloc programs) (fun _ _ => True) (.new d) events s) :
    s.swept <+: s.asked ∧ s.asked.length ≤ s.swept.length + 1 ∧
      (s.link.caller = .idle → s.sweep = none ∧ s.swept = s.asked) := by
  obtain ⟨w, _, tracks⟩ := tracks_run run
  cases tracks with
  | own _ hsweep hswept => simp [hsweep, hswept]
  | asked _ hp hlink _ hasked =>
    refine ⟨by simp [hasked], by simp [hasked], fun hidle => ?_⟩
    obtain rfl := hlink.of_idle hidle
    obtain hp | hp := hp <;> cases hp
  | sweeping _ hlink _ hswept =>
    exact ⟨by simp [hswept], by simp [hswept], fun hidle => by cases hlink.of_idle hidle⟩
  | swept _ _ _ hsweep hswept => simp [hsweep, hswept]
  | crashed _ hlink _ _ hswept =>
    refine ⟨?_, ?_, fun hidle => by cases hlink.of_idle hidle⟩
    · obtain hswept | hswept := hswept <;> simp [hswept]
    · obtain hswept | hswept := hswept <;> simp [hswept]

set_option maxRecDepth 4000 in
/-- The mark is written, then swept for, and the reply read. -/
theorem swept_in_order_slashA :
    (∃ s, Run (Processes.step slashACrates .little zeroedPages slashAPrograms) (fun _ _ => True)
        (.new loadedDaemon) askingEvents s ∧ s.asked = [70001] ∧ s.swept <+: s.asked) ∧
    ∃ s, Run (Processes.step slashACrates .little zeroedPages slashAPrograms) (fun _ _ => True)
        (.new loadedDaemon) refreshEvents s ∧ s.asked = [70001] ∧ s.swept = [70001] := by
  have asking : ∃ s, Run (Processes.step slashACrates .little zeroedPages slashAPrograms)
      (fun _ _ => True) (.new loadedDaemon) askingEvents s ∧ s.asked = [70001] :=
    ⟨_, .of_foldlM rfl, rfl⟩
  have refreshed : ∃ s, Run (Processes.step slashACrates .little zeroedPages slashAPrograms)
      (fun _ _ => True) (.new loadedDaemon) refreshEvents s ∧ s.asked = [70001] ∧
      s.link.caller = .idle := ⟨_, .of_foldlM rfl, rfl, rfl⟩
  obtain ⟨s, run, hasked⟩ := asking
  obtain ⟨t, run', hasked', hidle⟩ := refreshed
  obtain ⟨_, hswept⟩ := (swept_in_order run').2.2 hidle
  exact ⟨⟨s, run, hasked, (swept_in_order run).1⟩, t, run', hasked', hswept.trans hasked'⟩

end Processes

end

end Rebpf
