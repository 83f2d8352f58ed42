import Rebpf.Daemon

namespace Rebpf

open Lib

variable {c : Crates} {e : Endian} {alloc : Nat → Option (Nat → UInt8)}
  {programs : TaskId → Option Dentry × UInt32} {s t : Daemon}

/-- The last reload was asked to redirect, found no output that is up, and was
configured to drop the traffic then. -/
def Daemon.MustDrop (s : Daemon) : Prop :=
  ∃ conf route, s.seen = some (conf, route) ∧ conf.enable = true ∧
    conf.config.dropEgressWithoutOutput = true ∧ ∀ link, route = some link → link.isUp = false

/-- The traffic of all tasks to be redirected is dropped: there is a rule for
the mark, and their IPv4 sockets carry it. -/
structure Daemon.Dropping (e : Endian) (alloc : Nat → Option (Nat → UInt8))
    (programs : TaskId → Option Dentry × UInt32) (s : Daemon) (mark : UInt32) : Prop where
  current : s.mark = some mark
  rule : dropRule mark ∈ s.net.rules
  marked : ∀ sock ∈ s.sockets, sock.family = afInet →
    s.kernel.Redirects e alloc (taskOf programs sock.task) → sock.mark = mark

/-- While the traffic is to be dropped, no task to be redirected opens an IPv4 socket. -/
def Daemon.NoNewSocket (e : Endian) (alloc : Nat → Option (Nat → UInt8))
    (programs : TaskId → Option Dentry × UInt32) (s : Daemon) : DaemonEvent → Prop
  | .socket family id => s.MustDrop → family = afInet →
      ¬s.kernel.Redirects e alloc (taskOf programs id)
  | _ => True

theorem reloadRules_drops {newMark : UInt32} {oldMark : Option UInt32} {conf : State}
    {route : Option Route} {net net' : Net} {enable : Bool} {blocker : String}
    (henable : conf.enable = true) (hdrop : conf.config.dropEgressWithoutOutput = true)
    (hdown : ∀ link, route = some link → link.isUp = false)
    (h : reloadRules c newMark oldMark conf route net = some (enable, blocker, net')) :
    enable = false ∧ dropRule newMark ∈ net'.rules := by
  have hnone : route.filter (fun link => link.isUp && conf.enable) = none := by
    rw [Option.filter_eq_none_iff]
    intro link hlink
    simp [hdown link hlink]
  have hblocked : blockerOf conf route ≠ "" := by
    unfold blockerOf
    rw [if_neg (by simp [henable])]
    split <;> decide
  unfold reloadRules at h
  rw [hnone] at h
  dsimp only at h
  rw [if_pos ⟨hblocked, hdrop⟩] at h
  obtain ⟨net₁, hnew, h⟩ := Option.bind_eq_some_iff.mp h
  cases Option.some.inj h
  exact ⟨rfl, Net.mem_newRule hnew⟩

theorem Daemon.reload_swept {newMark : UInt32}
    (h : s.reload c e alloc programs newMark = some t) :
    t.mark = some newMark ∧ t.seen = some (s.conf, s.route) ∧
      (∃ enable, reloadRules c newMark s.mark s.conf s.route s.net =
        some (enable, t.blocker, t.net)) ∧
      ∀ sock ∈ t.sockets, sock.family = afInet ∨ sock.family = afInet6 →
        t.kernel.Redirects e alloc (taskOf programs sock.task) → sock.mark = newMark := by
  obtain ⟨⟨enable, blocker, net⟩, hrules, h⟩ := Option.bind_eq_some_iff.mp h
  obtain ⟨⟨ctx, kernel⟩, hreload, h⟩ := Option.bind_eq_some_iff.mp h
  cases Option.some.inj h
  obtain ⟨conf, _, hk⟩ := bpfReload_some hreload
  have hcache := Kernel.bpfReloadConfig_taskCache hk
  have fresh : ∀ id, kernel.Fresh e alloc (taskOf programs id) := by
    intro id res hres
    rw [hcache] at hres
    cases hres
  have swept : Swept e alloc programs newMark kernel _ _ :=
    bpfRefreshSockets_swept s.sockets fresh
  refine ⟨rfl, rfl, ⟨enable, hrules⟩, fun sock hsock hfamily hredirects => ?_⟩
  exact swept.marked sock hsock hfamily ((swept.redirects _).mp hredirects)

theorem Daemon.dropping_step {event : DaemonEvent}
    (h : s.MustDrop → ∃ mark, s.Dropping e alloc programs mark)
    (ok : s.NoNewSocket e alloc programs event)
    (step : s.step c e alloc programs event = some t) :
    t.MustDrop → ∃ mark, t.Dropping e alloc programs mark := by
  intro hdrop
  cases event with
  | config conf =>
    cases Option.some.inj step
    obtain ⟨mark, hmark⟩ := h hdrop
    exact ⟨mark, hmark.current, hmark.rule, hmark.marked⟩
  | output route =>
    cases Option.some.inj step
    obtain ⟨mark, hmark⟩ := h hdrop
    exact ⟨mark, hmark.current, hmark.rule, hmark.marked⟩
  | reload newMark =>
    simp only [Daemon.step] at step
    split at step
    next =>
      obtain ⟨hmark, hseen, ⟨enable, hrules⟩, hmarked⟩ := Daemon.reload_swept step
      obtain ⟨conf, route, hseen', henable, hconf, hdown⟩ := hdrop
      obtain ⟨rfl, rfl⟩ := Prod.mk.inj (Option.some.inj (hseen.symm.trans hseen'))
      obtain ⟨_, hrule⟩ := reloadRules_drops henable hconf hdown hrules
      exact ⟨newMark, hmark, hrule, fun sock hsock hfamily => hmarked sock hsock (Or.inl hfamily)⟩
    next => cases step
  | socket family id =>
    cases Option.some.inj step
    obtain ⟨mark, hmark⟩ := h hdrop
    have hook := Kernel.cgroupSocketCreate_hooked e alloc s.kernel family
      (taskOf programs id)
    refine ⟨mark, hmark.current, hmark.rule, fun sock hsock hfamily hredirects => ?_⟩
    have hbefore := (hook.redirects _).mp hredirects
    obtain hold | hnew := List.mem_append.mp hsock
    · exact hmark.marked sock hold hfamily hbefore
    · obtain rfl := List.mem_singleton.mp hnew
      exact absurd hbefore (ok hdrop hfamily)

/-- As long as no new socket of a redirected task slips in, a reload that was to
drop the traffic leaves it dropped. -/
theorem Daemon.mustDrop_dropping {s₀ : Daemon} (unseen : s₀.seen = none)
    {events : List DaemonEvent}
    (run : Run (Daemon.step c e alloc programs) (Daemon.NoNewSocket e alloc programs) s₀ events s)
    (h : s.MustDrop) : ∃ mark, s.Dropping e alloc programs mark := by
  refine run.invariant (I := fun s => s.MustDrop → ∃ mark, s.Dropping e alloc programs mark)
    (fun _ _ _ => Daemon.dropping_step) ?_ h
  rintro ⟨conf, route, hseen, _⟩
  rw [unseen] at hseen
  cases hseen

/-- An enabled daemon without an output, set to drop, with one rule for `/a` and
one open socket, before its first reload. -/
def droppingDaemon : Daemon where
  conf := { State.default with
    enable := true
    config := { Config.default with dropEgressWithoutOutput := true }
    ms := ⟨[slashARule .redirect 0], 1, 0⟩ }
  route := none
  mark := none
  ctx := .init
  kernel := .init
  net := ⟨[], [], []⟩
  sockets := [⟨afInet, ⟨100, 5⟩, 0⟩]
  blocker := ""
  seen := none

def slashAPrograms (_ : TaskId) : Option Dentry × UInt32 := (some slashA, 1000)

theorem droppingDaemon_mustDrop {s : Daemon}
    (h : s.seen = some (droppingDaemon.conf, none)) : s.MustDrop :=
  ⟨_, none, h, rfl, rfl, fun _ hlink => by cases hlink⟩

set_option maxRecDepth 4000 in
theorem Daemon.mustDrop_dropping_slashA :
    ∃ s, Run (Daemon.step slashACrates .little zeroedPages slashAPrograms)
        (Daemon.NoNewSocket .little zeroedPages slashAPrograms) droppingDaemon
        [.reload 70000, .output none] s ∧
      s.MustDrop ∧ ∃ mark, s.Dropping .little zeroedPages slashAPrograms mark := by
  have run : ∃ s, Run (Daemon.step slashACrates .little zeroedPages slashAPrograms)
      (Daemon.NoNewSocket .little zeroedPages slashAPrograms) droppingDaemon
      [.reload 70000, .output none] s ∧ s.seen = some (droppingDaemon.conf, none) :=
    ⟨_, .cons trivial rfl (.single trivial rfl), rfl⟩
  obtain ⟨s, run, hseen⟩ := run
  have hdrop := droppingDaemon_mustDrop hseen
  exact ⟨s, run, hdrop, Daemon.mustDrop_dropping rfl run hdrop⟩

set_option maxRecDepth 4000 in
theorem Daemon.mustDrop_leaks :
    ¬∀ {c : Crates} {e : Endian} {alloc : Nat → Option (Nat → UInt8)}
      {programs : TaskId → Option Dentry × UInt32} {s₀ s : Daemon}, s₀.seen = none →
      ∀ {events : List DaemonEvent},
      Run (Daemon.step c e alloc programs) (fun _ _ => True) s₀ events s → s.MustDrop →
        ∃ mark, s.Dropping e alloc programs mark := by
  intro h
  have run : ∃ s, Run (Daemon.step slashACrates .little zeroedPages slashAPrograms)
      (fun _ _ => True) droppingDaemon [.reload 70000, .socket afInet ⟨101, 6⟩] s ∧
      s.seen = some (droppingDaemon.conf, none) ∧ s.mark = some 70000 ∧
      ⟨afInet, ⟨101, 6⟩, 0⟩ ∈ s.sockets ∧
      s.kernel.Redirects .little zeroedPages (taskOf slashAPrograms ⟨101, 6⟩) :=
    ⟨_, .cons trivial rfl (.single trivial rfl), rfl, rfl, by decide +kernel, rfl,
      by decide +kernel⟩
  obtain ⟨s, run, hseen, hmark, hsock, hredirects⟩ := run
  obtain ⟨mark, hdropping⟩ := h rfl run (droppingDaemon_mustDrop hseen)
  obtain rfl := Option.some.inj (hmark.symm.trans hdropping.current)
  exact absurd (hdropping.marked _ hsock rfl hredirects) (by decide)

end Rebpf
