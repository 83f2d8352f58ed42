import Rebpf.FailClosed
import Rebpf.ReloadRules

namespace Rebpf

open Lib

/-- Rules that lead to a mark's table or go by the mark. -/
def FibRule.keyedBy (mark : UInt32) (rule : FibRule) : Bool :=
  rule.table == some mark || rule.fwmark == some mark

/-- Nothing is there under the mark: no rule of it and no route in its table. -/
structure Net.Unkeyed (net : Net) (mark : UInt32) : Prop where
  rules : ∀ rule ∈ net.rules, rule.keyedBy mark = false
  routes : ∀ route ∈ net.routes, route.table ≠ mark

section

variable {test : FibRule → Bool} {n : Nat} {rules : List FibRule}

theorem delRules_sublist : (Net.delRules test n rules).Sublist rules := by
  induction n generalizing rules with
  | zero => exact List.Sublist.refl _
  | succ n ih =>
    rw [Net.delRules]
    split
    · exact ih.trans List.eraseP_sublist
    · exact List.Sublist.refl _

/-- The loop is long enough when there are no more rules than turns. -/
theorem delRules_clears (h : rules.countP test ≤ n) :
    ∀ rule ∈ Net.delRules test n rules, test rule = false := by
  induction n generalizing rules with
  | zero =>
    intro rule hrule
    have hnone := List.countP_eq_zero.mp (Nat.le_zero.mp h) rule hrule
    simpa using hnone
  | succ n ih =>
    rw [Net.delRules]
    split
    next hany =>
      obtain ⟨rule, hrule, htest⟩ := List.any_eq_true.mp hany
      obtain ⟨_, front, back, _, hfirst, hsplit, herase⟩ := List.exists_of_eraseP hrule htest
      apply ih
      rw [herase, List.countP_append]
      rw [hsplit, List.countP_append, List.countP_cons_of_pos hfirst] at h
      omega
    next hany =>
      intro rule hrule
      have hnone := List.any_eq_false.mp (Bool.eq_false_iff.mpr hany) rule hrule
      simpa using hnone

end

variable {c : Crates} {net net' : Net} {mark newMark : UInt32}

theorem Net.Unkeyed.clearRules (h : net.Unkeyed mark) (oldMark : UInt32) :
    (net.clearRules oldMark).Unkeyed mark where
  rules rule hrule := h.rules rule (delRules_sublist.subset (delRules_sublist.subset hrule))
  routes route hroute := h.routes route (List.mem_filter.mp hroute).1

theorem Net.clearRules_unkeyed (h : net.rules.countP (·.keyedBy mark) ≤ 1000) :
    (net.clearRules mark).Unkeyed mark where
  rules rule hrule := by
    have htable : ∀ r : FibRule, (r.table == some mark) = true → r.keyedBy mark = true := by
      intro r hr
      simp [FibRule.keyedBy, hr]
    have hfwmark : ∀ r : FibRule, (r.fwmark == some mark) = true → r.keyedBy mark = true := by
      intro r hr
      simp [FibRule.keyedBy, hr]
    have hcount : net.rules.countP (·.table == some mark) ≤ 1000 :=
      (List.countP_mono_left fun r _ => htable r).trans h
    have hkept : (delRules (fun r => r.table == some mark) 1000 net.rules).Sublist net.rules :=
      delRules_sublist
    have hcount' := hkept.countP_le.trans ((List.countP_mono_left fun r _ => hfwmark r).trans h)
    have hleft := delRules_clears hcount rule (delRules_sublist.subset hrule)
    have hgone := delRules_clears hcount' rule hrule
    rw [FibRule.keyedBy, hleft, hgone]
    rfl
  routes route hroute := by simpa using (List.mem_filter.mp hroute).2

theorem isRandTable_ne_main (h : isRandTable mark = true) : rtTableMain ≠ mark := by
  rintro rfl
  exact absurd h (by decide)

/-- The rules a reload adds have to do with its own mark and the main table only. -/
theorem reloadAdds_keyed {conf : State} {route : Option Route} {rule : FibRule}
    (h : rule ∈ reloadAdds c newMark conf route) :
    (rule.table = some newMark ∨ rule.table = some rtTableMain) ∧
      (rule.fwmark = none ∨ rule.fwmark = some newMark) := by
  unfold reloadAdds at h
  split at h
  next link _ =>
    simp only [setupRules, List.mem_append, List.mem_cons, List.mem_map, List.mem_filterMap] at h
    obtain (⟨addr, _, rfl⟩ | rfl | ⟨m, _, hrule⟩) | h := h
    · exact ⟨Or.inl rfl, Or.inl rfl⟩
    · exact ⟨Or.inl rfl, Or.inr rfl⟩
    · obtain ⟨dst, _, rfl⟩ := Option.map_eq_some_iff.mp hrule
      refine ⟨?_, Or.inr rfl⟩
      cases m.direction with
      | redirect => exact Or.inl rfl
      | bypass => exact Or.inr rfl
    · split at h
      · cases h
      · cases List.mem_singleton.mp h
        exact ⟨Or.inl rfl, Or.inr rfl⟩
  next =>
    split at h
    · cases List.mem_singleton.mp h
      exact ⟨Or.inl rfl, Or.inr rfl⟩
    · cases h

theorem reloadRoutes_table {conf : State} {route : Option Route} {routes : List FibRoute}
    {r : FibRoute} (h : r ∈ reloadRoutes newMark conf route routes) : r.table = newMark := by
  unfold reloadRoutes at h
  split at h
  next link _ =>
    obtain rfl | h := List.mem_cons.mp h
    · rfl
    · split at h
      · obtain ⟨_, _, rfl⟩ := List.mem_map.mp h
        rfl
      · cases h
  next => cases h

theorem reloadRules_unkeyed {oldMark : Option UInt32} {conf : State} {route : Option Route}
    {enable : Bool} {blocker : String} (cleared : (net.cleared oldMark).Unkeyed mark)
    (hrand : isRandTable mark = true) (hne : newMark ≠ mark)
    (h : reloadRules c newMark oldMark conf route net = some (enable, blocker, net')) :
    net'.Unkeyed mark := by
  obtain ⟨_, hrules, hroutes⟩ := reloadRules_eq h
  constructor
  · intro rule hrule
    rw [hrules] at hrule
    obtain hold | hnew := List.mem_append.mp hrule
    · exact cleared.rules rule hold
    · obtain ⟨htable, hfwmark⟩ := reloadAdds_keyed hnew
      have hmain := isRandTable_ne_main hrand
      rcases htable with htable | htable <;> rcases hfwmark with hfwmark | hfwmark <;>
        simp [FibRule.keyedBy, htable, hfwmark, hne, hmain]
  · intro r hr
    rw [hroutes] at hr
    obtain hold | hnew := List.mem_append.mp hr
    · exact cleared.routes r hold
    · rw [reloadRoutes_table hnew]
      exact hne

namespace Daemon

/-- A reload installs at most 900 rules, and one that reads a disabled service
does not lack the output while it is told to drop its traffic. -/
def Tidy (c : Crates) (s : Daemon) : DaemonEvent → Prop
  | .reload newMark => (reloadAdds c newMark s.conf s.route).length ≤ 900 ∧
      (s.conf.enable = false → s.route.isSome = true ∨
        s.conf.config.dropEgressWithoutOutput = false)
  | _ => True

def Disabled (s : Daemon) : Prop := ∃ conf route, s.seen = some (conf, route) ∧ conf.enable = false

/-- Of the marks `M` only the current one is in use, by no more rules than one
clearing deletes, and after a disabled reload none is. -/
structure Clean (M : UInt32 → Prop) (s : Daemon) : Prop where
  others : ∀ m, M m → s.mark ≠ some m → s.net.Unkeyed m
  few : ∀ m, M m → s.mark = some m → s.net.rules.countP (·.keyedBy m) ≤ 1000
  known : ∀ m, s.mark = some m → M m
  disabled : s.Disabled → ∀ m, M m → s.net.Unkeyed m

variable {e : Endian} {alloc : Nat → Option (Nat → UInt8)}
  {programs : TaskId → Option Dentry × UInt32} {s t : Daemon} {M : UInt32 → Prop}

/-- A reload starts from a network configuration without any of the marks. -/
theorem Clean.cleared (h : s.Clean M) {m : UInt32} (hm : M m) :
    (s.net.cleared s.mark).Unkeyed m := by
  unfold Net.cleared
  cases hmark : s.mark with
  | none => exact h.others m hm (by rw [hmark]; nofun)
  | some old =>
    by_cases heq : old = m
    · subst heq
      exact Net.clearRules_unkeyed (h.few old hm hmark)
    · refine (h.others m hm ?_).clearRules old
      rw [hmark]
      exact fun hsome => heq (Option.some.inj hsome)

theorem reloadAdds_disabled {conf : State} {route : Option Route} (h : conf.enable = false)
    (ok : route.isSome = true ∨ conf.config.dropEgressWithoutOutput = false) :
    reloadAdds c newMark conf route = [] := by
  have hno : ¬(blockerOf conf route ≠ "" ∧ conf.config.dropEgressWithoutOutput = true) := by
    rintro ⟨hblocked, hdrop⟩
    obtain hsome | hkeep := ok
    · exact hblocked (if_pos (by simp [hsome, h]))
    · rw [hkeep] at hdrop
      cases hdrop
  rw [reloadAdds, usable_disabled h]
  exact if_neg hno

theorem Clean.reload {newMark : UInt32} (h : s.Clean M) (hnew : M newMark)
    (hrand : ∀ m, M m → isRandTable m = true) (ok : s.Tidy c (.reload newMark))
    (step : s.reload c e alloc programs newMark = some t) : t.Clean M := by
  obtain ⟨hmark, hseen, ⟨enable, hrules⟩, _⟩ := reload_swept step
  obtain ⟨_, hadded, hroutes⟩ := reloadRules_eq hrules
  obtain ⟨hfew, hdisabled⟩ := ok
  refine ⟨fun m hm hne => ?_, fun m hm hcurrent => ?_, fun m hcurrent => ?_, fun hoff m hm => ?_⟩
  · refine reloadRules_unkeyed (h.cleared hm) (hrand m hm) (fun heq => ?_) hrules
    rw [hmark, heq] at hne
    exact hne rfl
  · have hnone : (s.net.cleared s.mark).rules.countP (·.keyedBy m) = 0 :=
      List.countP_eq_zero.mpr fun rule hrule => by simp [(h.cleared hm).rules rule hrule]
    rw [hadded, List.countP_append, hnone]
    have hle := List.countP_le_length (p := fun rule : FibRule => rule.keyedBy m)
      (l := reloadAdds c newMark s.conf s.route)
    omega
  · rw [hmark] at hcurrent
    cases Option.some.inj hcurrent
    exact hnew
  · obtain ⟨conf, route, hread, henable⟩ := hoff
    obtain ⟨rfl, rfl⟩ := Prod.mk.inj (Option.some.inj (hseen.symm.trans hread))
    have hclear := h.cleared hm
    constructor
    · rw [hadded, reloadAdds_disabled henable (hdisabled henable), List.append_nil]
      exact hclear.rules
    · rw [hroutes, reloadRoutes, usable_disabled henable, List.append_nil]
      exact hclear.routes

theorem clean_step {event : DaemonEvent} (hrand : ∀ m, M m → isRandTable m = true)
    (hevent : ∀ m, event = .reload m → M m) (h : s.Clean M) (ok : s.Tidy c event)
    (step : s.step c e alloc programs event = some t) : t.Clean M := by
  cases event with
  | config conf =>
    cases Option.some.inj step
    exact ⟨h.others, h.few, h.known, h.disabled⟩
  | output route =>
    cases Option.some.inj step
    exact ⟨h.others, h.few, h.known, h.disabled⟩
  | reload newMark =>
    simp only [Daemon.step] at step
    split at step
    next => exact h.reload (hevent newMark rfl) hrand ok step
    next => cases step
  | socket family id =>
    cases Option.some.inj step
    exact ⟨h.others, h.few, h.known, h.disabled⟩

/-- After a reload that read a disabled service nothing is left of any mark of
the run, as long as none was told to drop the traffic of a missing output then. -/
theorem disabled_unkeyed {s₀ : Daemon} {events : List DaemonEvent} (markless : s₀.mark = none)
    (unseen : s₀.seen = none) (unused : ∀ m, .reload m ∈ events → s₀.net.Unkeyed m)
    (run : Run (Daemon.step c e alloc programs) (Daemon.Tidy c) s₀ events s) (off : s.Disabled)
    {m : UInt32} (hm : .reload m ∈ events) : s.net.Unkeyed m := by
  have hrand : ∀ m, .reload m ∈ events → isRandTable m = true := by
    intro m hm
    obtain ⟨_, _, _, htaken⟩ := run.taken hm
    simp only [Daemon.step] at htaken
    split at htaken
    next hdrawn => exact hdrawn
    next => cases htaken
  have start : s₀.Clean fun m => .reload m ∈ events := by
    refine ⟨fun m hm _ => unused m hm, fun m _ hcurrent => ?_, fun m hcurrent => ?_,
      fun hoff => ?_⟩
    · rw [markless] at hcurrent
      cases hcurrent
    · rw [markless] at hcurrent
      cases hcurrent
    · obtain ⟨_, _, hread, _⟩ := hoff
      rw [unseen] at hread
      cases hread
  have events_known : ∀ event ∈ events, ∀ m, event = .reload m → .reload m ∈ events := by
    rintro _ hmem m rfl
    exact hmem
  have clean := run.invariant_events (I := Daemon.Clean fun m => .reload m ∈ events)
    (P := fun event => ∀ m, event = .reload m → .reload m ∈ events)
    (fun _ _ _ hevent => clean_step hrand hevent) events_known start
  exact clean.disabled off m hm

/-- A daemon without rules and without an output that is told to drop traffic. -/
def bareDaemon (enable : Bool) : Daemon :=
  { droppingDaemon with conf := { droppingDaemon.conf with enable, ms := .default } }

theorem unused_empty (m : UInt32) : (⟨[], [], []⟩ : Net).Unkeyed m :=
  ⟨nofun, nofun⟩

theorem disabled_unkeyed_reloaded :
    ∃ s, Run (Daemon.step slashACrates .little zeroedPages slashAPrograms)
        (Daemon.Tidy slashACrates) (bareDaemon true)
        [.reload 70000, .output (some ⟨true, 2, "wg0", [], none⟩), .reload 70001,
          .config State.default, .reload 70002] s ∧
      s.Disabled ∧ s.net.Unkeyed 70001 := by
  have run : ∃ s, Run (Daemon.step slashACrates .little zeroedPages slashAPrograms)
      (Daemon.Tidy slashACrates) (bareDaemon true)
      [.reload 70000, .output (some ⟨true, 2, "wg0", [], none⟩), .reload 70001,
        .config State.default, .reload 70002] s ∧ s.Disabled :=
    ⟨_, .cons ⟨by decide, nofun⟩ rfl (.cons trivial rfl (.cons ⟨by decide, nofun⟩ rfl
      (.cons trivial rfl (.single ⟨by decide, fun _ => Or.inr rfl⟩ rfl)))), _, _, rfl, rfl⟩
  obtain ⟨s, run, off⟩ := run
  refine ⟨s, run, off, Daemon.disabled_unkeyed rfl rfl (fun m _ => unused_empty m) run off ?_⟩
  simp

/-- Disabled, without an output and told to drop: the rule to drop is set up. -/
theorem disabled_not_unkeyed :
    ¬∀ {c : Crates} {e : Endian} {alloc : Nat → Option (Nat → UInt8)}
      {programs : TaskId → Option Dentry × UInt32} {s₀ s : Daemon} {events : List DaemonEvent},
      s₀.mark = none → s₀.seen = none → (∀ m, .reload m ∈ events → s₀.net.Unkeyed m) →
      Run (Daemon.step c e alloc programs)
        (fun s event => ∀ newMark, event = .reload newMark →
          (reloadAdds c newMark s.conf s.route).length ≤ 900) s₀ events s →
      s.Disabled → ∀ {m : UInt32}, .reload m ∈ events → s.net.Unkeyed m := by
  intro h
  have run : ∃ s, Run (Daemon.step slashACrates .little zeroedPages slashAPrograms)
      (fun s event => ∀ newMark, event = .reload newMark →
        (reloadAdds slashACrates newMark s.conf s.route).length ≤ 900) (bareDaemon false)
      [.reload 70000] s ∧ s.Disabled ∧ dropRule 70000 ∈ s.net.rules := by
    refine ⟨_, .single (fun newMark hnew => ?_) rfl, ⟨_, _, rfl, rfl⟩, by decide +kernel⟩
    cases hnew
    decide
  obtain ⟨s, run, off, hrule⟩ := run
  have unkeyed := h rfl rfl (fun m _ => unused_empty m) run off (m := 70000) (by simp)
  exact absurd (unkeyed.rules _ hrule) (by decide)

end Daemon

end Rebpf
