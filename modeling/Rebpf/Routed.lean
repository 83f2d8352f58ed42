import Rebpf.Settled
import Rebpf.Shutdown
import Rebpf.Steering

namespace Rebpf

open Lib

section

variable {net : Net} {routes routes' : List FibRoute} {p : Packet} {rule : FibRule} {mark : UInt32}
  {keys : List UInt32}

/-- A clearing with turns enough takes the rules of the mark and no others. -/
theorem Net.clearRules_rules (few : net.rules.countP (·.keyedBy mark) ≤ 1000) :
    (net.clearRules mark).rules = net.rules.filter fun r => !r.keyedBy mark := by
  have hself : (net.clearRules mark).rules.filter (fun r => !r.keyedBy mark) =
      (net.clearRules mark).rules :=
    List.filter_eq_self.mpr fun r hr => by simp [(Net.clearRules_unkeyed few).rules r hr]
  have hkeyed : ∀ r : FibRule, (!r.keyedBy mark) = true →
      (r.table == some mark) = false ∧ (r.fwmark == some mark) = false := by
    intro r hr
    rwa [FibRule.keyedBy, Bool.not_or, Bool.and_eq_true, Bool.not_eq_true', Bool.not_eq_true'] at hr
  rw [← hself]
  exact (delRules_filter_other (fun r hr => (hkeyed r hr).2) _ _).trans
    (delRules_filter_other (fun r hr => (hkeyed r hr).1) _ _)

/-- The rules of an iteration go by its mark. -/
theorem reloadAdds_of {c : Crates} {conf : State} {output : Option Route}
    (h : rule ∈ reloadAdds c mark conf output) : rule.Of mark := by
  obtain ⟨htable, hfwmark⟩ := reloadAdds_keyed h
  refine ⟨?_, htable, hfwmark⟩
  unfold reloadAdds at h
  split at h
  next link _ =>
    simp only [setupRules, List.mem_append, List.mem_cons, List.mem_map, List.mem_filterMap] at h
    obtain (⟨addr, _, rfl⟩ | rfl | ⟨m, _, hrule⟩) | h := h
    · simp [FibRule.keyedBy, srcRule]
    · simp [FibRule.keyedBy, markRule]
    · exact (ipv4Rule_of hrule).keyed
    · split at h
      · cases h
      · cases List.mem_singleton.mp h
        simp [FibRule.keyedBy, noLanRule]
  next =>
    split at h
    · cases List.mem_singleton.mp h
      simp [FibRule.keyedBy, dropRule]
    · cases h

theorem Laid.mono {conf : State} {link : Route} {mark : UInt32} {main main' : List FibRoute}
    {r : FibRoute} (h : Laid conf link mark main r) (sub : main ⊆ main') :
    Laid conf link mark main' r :=
  h.imp_right fun ⟨hallow, htable, hlan, hmem⟩ => ⟨hallow, htable, hlan, sub hmem⟩

end

namespace System

/-- What the rules in place have been made from. -/
def inPlace (s : System) : Option (State × Option Route) :=
  match s.reloadLoop.phase with
  | .ruled _ _ conf output => some (conf, output)
  | _ => s.used.map fun u => (u.rules, u.route)

/-- Behind the rules of the host stand the one to the DNS table and those of the last
iteration, and the table of its mark has the routes it has laid. -/
inductive Places (c : Crates) (host : Net) (past : List SystemEvent) (s : System) : Prop
  | unset : s.mark = none → s.inPlace = none →
      s.net.rules = host.rules ++ [staticRule s.dnsTable] → Places c host past s
  | set {mark conf output before} : s.mark = some mark → s.inPlace = some (conf, output) →
      s.net.rules = host.rules ++ staticRule s.dnsTable :: reloadAdds c mark conf output →
      before <+: past →
      (∀ r ∈ s.net.routes, r.table = mark → ∃ link, usable conf output = some link ∧
        Laid conf link mark (before.foldl hostRoutes host.routes) r) →
      (∀ link, usable conf output = some link →
        Rebpf.defaultRoute mark link ∈ s.net.routes) →
      Places c host past s

variable {c : Crates} {e : Endian} {dc : DnsCrates} {alloc : Nat → Option (Nat → UInt8)}
  {lookup : Net → List Link → UInt32 → Option FibResult} {s t : System} {host : Net}
  {table : UInt32} {marks : List UInt32} {past : List SystemEvent} {event : SystemEvent}

theorem Places.of_same (h : s.Places c host past) (mark : t.mark = s.mark)
    (inPlace : t.inPlace = s.inPlace) (dnsTable : t.dnsTable = s.dnsTable)
    (rules : t.net.rules = s.net.rules)
    (routes : ∀ m, s.mark = some m → ∀ r : FibRoute, r.table = m →
      (r ∈ t.net.routes ↔ r ∈ s.net.routes)) :
    t.Places c host (past ++ [event]) := by
  cases h with
  | unset hmark hplace hrules =>
    exact .unset (mark.trans hmark) (inPlace.trans hplace) (by rw [rules, dnsTable, hrules])
  | set hmark hplace hrules hbefore hlaid hdefault =>
    refine .set (mark.trans hmark) (inPlace.trans hplace) (by rw [rules, dnsTable, hrules])
      (hbefore.trans (List.prefix_append _ _)) (fun r hr htable => ?_) (fun link hlink => ?_)
    · exact hlaid r ((routes _ hmark r htable).mp hr) htable
    · exact (routes _ hmark _ rfl).mpr (hdefault link hlink)

theorem Places.of_net (h : s.Places c host past) (mark : t.mark = s.mark)
    (inPlace : t.inPlace = s.inPlace) (dnsTable : t.dnsTable = s.dnsTable) (net : t.net = s.net) :
    t.Places c host (past ++ [event]) :=
  h.of_same mark inPlace dnsTable (by rw [net]) (by simp [net])

/-- The DNS table is another one than that of a mark. -/
theorem Places.of_dns (h : s.Places c host past) (mark : t.mark = s.mark)
    (inPlace : t.inPlace = s.inPlace) (dnsTable : t.dnsTable = s.dnsTable)
    (apart : ∀ m, s.mark = some m → m ≠ s.dnsTable)
    (within : Net.WithinTable s.dnsTable s.net t.net) : t.Places c host (past ++ [event]) := by
  refine h.of_same mark inPlace dnsTable within.rules fun m hm r hr => ?_
  have hne : (r.table != s.dnsTable) = true := by simpa [hr] using apart m hm
  have hkept : ∀ routes : List FibRoute,
      r ∈ routes.filter (·.table != s.dnsTable) ↔ r ∈ routes := by simp [hne]
  rw [← hkept t.net.routes, within.routes, hkept]

/-- A clearing leaves the host's rules and the one to the DNS table. -/
theorem Places.cleared (h : s.Places c host past)
    (holds : s.Holds host table marks (past.foldl hostRoutes host.routes))
    (drawn : Drawn table marks) (fresh : ∀ key ∈ table :: marks, host.Without key) :
    (s.net.cleared s.mark).rules = host.rules ++ [staticRule s.dnsTable] := by
  cases h with
  | unset hmark _ hrules => rw [hmark, Net.cleared, hrules]
  | @set mark conf output _ hmark _ hrules =>
    have hmem := holds.held.known mark hmark
    have hhost : host.rules.filter (fun r => !r.keyedBy mark) = host.rules :=
      List.filter_eq_self.mpr fun r hr => by
        simp [(fresh mark (List.mem_cons_of_mem _ hmem)).unkeyed.rules r hr]
    have hstatic : (staticRule s.dnsTable).keyedBy mark = false := by
      have hne : s.dnsTable ≠ mark := by
        rintro rfl
        exact drawn.apart (holds.dnsTable ▸ hmem)
      simpa [FibRule.keyedBy, staticRule] using hne
    have hadds : (reloadAdds c mark conf output).filter (fun r => !r.keyedBy mark) = [] :=
      List.filter_eq_nil_iff.mpr fun r hr => by simp [(reloadAdds_of hr).keyed]
    rw [hmark, Net.cleared, Net.clearRules_rules (holds.held.few mark hmark), hrules,
      List.filter_append, hhost, List.filter_cons_of_pos (by simp [hstatic]), hadds]

/-- Of the main table the daemon's configuration has the host's routes. -/
theorem Holds.main_routes {routes : List FibRoute} (holds : s.Holds host table marks routes)
    (drawn : Drawn table marks) {r : FibRoute} (h : r ∈ s.net.routes) (main : r.table = rtTableMain) :
    r ∈ routes := by
  have hothers : (s.net.others (table :: marks)).routes = routes := by rw [holds.held.others]
  rw [← hothers]
  refine List.mem_filter.mpr ⟨h, ?_⟩
  rw [main, Bool.not_eq_true', ← Bool.not_eq_true, List.contains_iff_mem]
  exact drawn.main_notMem

theorem Places.reloadRules (h : s.Places c host past)
    (holds : s.Holds host table marks (past.foldl hostRoutes host.routes))
    (drawn : Drawn table marks) (fresh : ∀ key ∈ table :: marks, host.Without key)
    (step : s.reloadRules c = some t) : t.Places c host (past ++ [event]) := by
  have hcleared := h.cleared holds drawn fresh
  obtain ⟨newMark, enable, blocker, net, hphase, hrules, rfl⟩ := reloadRules_some step
  obtain ⟨_, hadds, hroutes⟩ := reloadRules_eq hrules
  have hmem := holds.woken newMark hphase
  have hrand := drawn.drawn newMark (List.mem_cons_of_mem _ hmem)
  have hkept : (s.net.cleared s.mark).routes ⊆ s.net.routes := by
    intro r hr
    cases hmark : s.mark with
    | none => rwa [hmark] at hr
    | some old =>
      rw [hmark] at hr
      exact (List.mem_filter.mp hr).1
  refine .set rfl rfl (by rw [hadds, hcleared, List.append_assoc]; rfl)
    (List.prefix_append _ _) (fun r hr htable => ?_) (fun link hlink => ?_)
  · rw [hroutes] at hr
    obtain hr | hr := List.mem_append.mp hr
    · exact absurd htable ((holds.held.cleared_without hmem).unkeyed.routes r hr)
    · cases husable : usable s.conf.value s.routes.value with
      | none =>
        rw [reloadRoutes, husable] at hr
        cases hr
      | some link =>
        refine ⟨link, rfl, (laid_of_reload hrand husable hr).mono fun main hmain => ?_⟩
        obtain ⟨hmain, htable⟩ := List.mem_filter.mp hmain
        exact holds.main_routes drawn (hkept hmain) (beq_iff_eq.mp htable)
  · rw [hroutes, reloadRoutes, hlink]
    exact List.mem_append_right _ List.mem_cons_self

theorem inPlace_eq (phase : t.reloadLoop = s.reloadLoop) (used : t.used = s.used) :
    t.inPlace = s.inPlace := by
  rw [inPlace, inPlace, phase, used]

theorem places_step (drawn : Drawn table marks) (fresh : ∀ key ∈ table :: marks, host.Without key)
    (holds : s.Holds host table marks (past.foldl hostRoutes host.routes))
    (h : s.Places c host past) (step : s.step c e dc alloc lookup event = some t) :
    t.Places c host (past ++ [event]) := by
  have apart : ∀ m, s.mark = some m → m ≠ s.dnsTable := by
    rintro m hm rfl
    exact drawn.apart (holds.dnsTable ▸ holds.held.known _ hm)
  have outside : event.changesNet = false → event.isTurn = false →
      t.Places c host (past ++ [event]) := by
    intro hnet hturn
    have around := step_around step hturn
    exact h.of_net around.mark (inPlace_eq around.reloadLoop around.used) around.dnsTable
      ((step_frame step).net hnet)
  have hosted : ∀ {routes}, t = { s with net := { s.net with routes }, notices := t.notices } →
      (∀ r : FibRoute, r.table ≠ rtTableMain → (r ∈ routes ↔ r ∈ s.net.routes)) →
      t.Places c host (past ++ [event]) := by
    intro routes heq hroutes
    rw [heq]
    refine h.of_same rfl rfl rfl rfl fun m hm r hr => hroutes r ?_
    rintro hmain
    exact drawn.main_notMem (List.mem_cons_of_mem _ (hmain ▸ hr ▸ holds.held.known m hm))
  cases event with
  | change | forceReload | linkChanged | linkGone | notify | listen | notice | packet =>
    exact outside rfl rfl
  | routeAdded route =>
    simp only [System.step] at step
    split at step
    next hmain =>
      cases Option.some.inj step
      refine hosted rfl fun r hr => ?_
      have hne : r ≠ route := by
        rintro rfl
        exact hr hmain
      simp [hne]
    next => cases step
  | routeDeleted route =>
    simp only [System.step] at step
    split at step
    next hmain =>
      cases Option.some.inj step
      refine hosted rfl fun r hr => List.mem_erase_of_ne ?_
      rintro rfl
      exact hr hmain.1
    next => cases step
  | callback now =>
    obtain ⟨data, ring, _, ⟨_, _, rfl⟩ | ⟨dns, net, hparse, rfl⟩⟩ := callback_some step
    · exact h.of_net rfl rfl rfl rfl
    · exact h.of_dns rfl rfl rfl apart (DnsState.withinTable_parse hparse)
  | sweep now =>
    cases Option.some.inj step
    exact h.of_dns rfl rfl rfl apart (DnsState.withinTable_sweepLoop s.dnsCtx _ _ _)
  | retire name dest =>
    cases Option.some.inj step
    exact h.of_dns rfl rfl rfl apart (DnsState.withinTable_removeRecords s.dnsCtx _ _ _ _)
  | routesTurn =>
    obtain ⟨routes, rfl, _⟩ := routesTurn_some step
    exact h.of_net rfl rfl rfl rfl
  | reloadWake newMark =>
    obtain ⟨hphase, _, rfl⟩ := reloadWake_some step
    exact h.of_net rfl (by simp [inPlace, hphase]) rfl rfl
  | reloadRules => exact h.reloadRules holds drawn fresh step
  | reloadBpf =>
    obtain ⟨newMark, enable, rules, output, ctx, kernel, hphase, _, rfl⟩ := reloadBpf_some step
    exact h.of_net rfl (by simp [inPlace, hphase]) rfl rfl
  | reloadDone =>
    obtain ⟨hphase, rfl⟩ := reloadDone_some step
    exact h.of_net rfl (by simp [inPlace, hphase]) rfl rfl
  | dnsWake =>
    obtain ⟨_, rfl⟩ := dnsWake_some step
    exact h.of_net rfl rfl rfl rfl
  | dnsTurn =>
    obtain ⟨updateCaches, _, rfl⟩ := dnsTurn_some step
    exact h.of_dns rfl rfl rfl apart (DnsState.withinTable_watchDnsRoutes s.dnsCtx _ _ _)

/-- The daemon starts on a host where nothing goes by its DNS table or the marks it draws, and
where a rule of priority 0 is, as the one to the local table is. -/
structure Starts (host : Net) (s : System) (events : List SystemEvent) : Prop where
  started : s.Started
  markless : s.mark = none
  setup : host.setupStaticRules s.dnsTable = some s.net
  drawn : Drawn s.dnsTable (drawnMarks events)
  fresh : ∀ key ∈ s.dnsTable :: drawnMarks events, host.Without key
  first : ∃ rule ∈ host.rules, rule.priority = some 0

theorem Starts.inv {s₀ : System} {events : List SystemEvent} (starts : s₀.Starts host events)
    (run : Run (System.step c e dc alloc lookup) (Few c) s₀ events s) :
    s.Holds host s₀.dnsTable (drawnMarks events) (events.foldl hostRoutes host.routes) ∧
      s.Places c host events ∧ s.Sound c dc := by
  obtain ⟨started, markless, setup, drawn, fresh, _⟩ := starts
  have holds : s₀.Holds host s₀.dnsTable (drawnMarks events) host.routes :=
    ⟨by rw [markless]; exact .start drawn.apart fresh setup, rfl, by simp [started.reloadLoop]⟩
  have places : s₀.Places c host [] := by
    refine .unset markless ?_ (by rw [newRule_eq setup])
    rw [inPlace, started.reloadLoop, started.used]
    rfl
  refine run.invariant_past
    (I := fun s past => s.Holds host s₀.dnsTable (drawnMarks events)
      (past.foldl hostRoutes host.routes) ∧ s.Places c host past ∧ s.Sound c dc)
    (P := fun event => ∀ m, event = .reloadWake m → m ∈ drawnMarks events) ?_ ?_ []
    ⟨holds, places, started.sound⟩
  · rintro s event t past known ⟨holds, places, sound⟩ few step
    refine ⟨?_, places_step drawn fresh holds places step, sound_step sound step⟩
    rw [List.foldl_append]
    exact holds_step drawn known holds few step
  · rintro _ hmem m rfl
    exact mem_drawnMarks.mpr hmem

theorem Sound.inPlace (h : s.Sound c dc) (quiet : s.Quiet) :
    s.inPlace = some (s.conf.value, s.routes.value) := by
  rw [System.inPlace, quiet.waiting.1, (h.settled quiet).used]
  rfl

end System

end Rebpf
