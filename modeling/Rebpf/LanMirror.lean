import Rebpf.DnsDisabled
import Rebpf.OutputDevice

namespace Rebpf

open Lib

/-- Nothing has changed but the routes of one table. -/
def Net.SameElsewhere (table : UInt32) (net net' : Net) : Prop :=
  ∀ r, r.table ≠ table → (r ∈ net'.routes ↔ r ∈ net.routes)

section

variable {table : UInt32} {net net' net'' : Net}

theorem Net.SameElsewhere.refl (net : Net) : net.SameElsewhere table net := fun _ _ => Iff.rfl

theorem Net.SameElsewhere.trans (h : Net.SameElsewhere table net net')
    (h' : Net.SameElsewhere table net' net'') : Net.SameElsewhere table net net'' :=
  fun r hr => (h' r hr).trans (h r hr)

theorem Net.sameElsewhere_clearTable (table : UInt32) (net : Net) :
    net.SameElsewhere table (net.clearTable table) := by
  intro r hr
  simp [clearTable, List.mem_filter, hr]

theorem Net.sameElsewhere_delRoute (table : UInt32) (net : Net) (dst : Ipv4Net) :
    net.SameElsewhere table (net.delRoute table dst) := by
  intro r hr
  simp [delRoute, List.mem_filter, hr]

end

namespace DnsState

variable {c : Crates} {dc : DnsCrates} {ctx : DnsCtx} {now : Nat}

theorem setupRecord_elsewhere (net : Net) (rec : DnsRecord) (dir : Direction) :
    net.SameElsewhere ctx.dnsTable ((setupRecord ctx net rec dir).getD net) := by
  cases hsetup : setupRecord ctx net rec dir with
  | none => exact .refl net
  | some net' =>
    rw [Option.getD_some]
    unfold setupRecord at hsetup
    dsimp only at hsetup
    split at hsetup
    next =>
      cases Option.some.inj hsetup
      exact .refl net
    next =>
      intro r hr
      rw [newRoute_eq hsetup, List.mem_append, List.mem_singleton]
      refine or_iff_left fun heq => hr ?_
      rw [heq]

theorem parse_elsewhere {data : Except String DnsMessage} {dns dns' : DnsState} {net net' : Net}
    (h : parse dc ctx now data dns net = .ok (dns', net')) :
    net.SameElsewhere ctx.dnsTable net' := by
  refine parse_invariant (I := fun _ net' => net.SameElsewhere ctx.dnsTable net')
    (fun dns₁ net₁ ans before => ?_) h (.refl net)
  rcases parseAnswer_cases dns₁ net₁ ans with ⟨hash, _, heq⟩ | ⟨record, dir, _, _, heq⟩
  · rw [heq]
    exact before
  · rw [heq]
    exact before.trans (setupRecord_elsewhere net₁ record dir)

theorem sweepLoop_elsewhere (fuel : Nat) (dns : DnsState) (net : Net) :
    net.SameElsewhere ctx.dnsTable (sweepLoop dc ctx now fuel dns net).2 := by
  induction fuel generalizing dns net with
  | zero => exact .refl net
  | succ fuel ih =>
    rw [sweepLoop]
    split
    next => exact .refl net
    next =>
      split
      next =>
        dsimp only
        split
        next => exact ih _ net
        next => exact (Net.sameElsewhere_delRoute _ net _).trans (ih _ _)
      next => exact .refl net

theorem watchDnsTtl_elsewhere (dc : DnsCrates) (ctx : DnsCtx) (now : Nat) (dns : DnsState)
    (net : Net) : net.SameElsewhere ctx.dnsTable (watchDnsTtl dc ctx now dns net).2 :=
  sweepLoop_elsewhere _ dns net

theorem removeStep_elsewhere {name : Option DnsName} {dest : Option UInt32}
    (recs : List DnsRecord) (found : Bool) (dns : DnsState) (net : Net) :
    net.SameElsewhere ctx.dnsTable
      (recs.foldl (removeStep ctx name dest) (found, dns, net)).2.2 := by
  induction recs generalizing found dns net with
  | nil => exact .refl net
  | cons rec recs ih =>
    rw [List.foldl_cons, removeStep]
    split
    next => exact (Net.sameElsewhere_delRoute _ net _).trans (ih _ _ _)
    next => exact ih _ _ net

theorem removeRecords_elsewhere (ctx : DnsCtx) (name : Option DnsName) (dest : Option UInt32)
    (dns : DnsState) (net : Net) :
    net.SameElsewhere ctx.dnsTable (removeRecords ctx name dest dns net).2.2 :=
  removeStep_elsewhere dns.heap false { dns with heap := [] } net

theorem setupAgain_elsewhere (cache : DnsCache) (recs : List DnsRecord) (net : Net) :
    net.SameElsewhere ctx.dnsTable (recs.foldl (setupAgain dc ctx cache) net) := by
  induction recs generalizing net with
  | nil => exact .refl net
  | cons rec recs ih =>
    rw [List.foldl_cons]
    refine Net.SameElsewhere.trans ?_ (ih _)
    unfold setupAgain
    split
    next => exact setupRecord_elsewhere net rec _
    next => exact .refl net

theorem watchDnsRoutes_elsewhere (c : Crates) (dc : DnsCrates) (ctx : DnsCtx) (updateCaches : Bool)
    (dns : DnsState) (net : Net) :
    net.SameElsewhere ctx.dnsTable (watchDnsRoutes c dc ctx updateCaches dns net).2 := by
  have cleared := Net.sameElsewhere_clearTable ctx.dnsTable net
  simp only [watchDnsRoutes]
  split
  · exact cleared.trans (setupAgain_elsewhere _ _ _)
  · exact cleared

end DnsState

/-- The mark's table holds the default route of the output and the main table's
routes, but for the widest destinations, and nothing else. -/
def Net.MirrorsMain (net : Net) (mark : UInt32) (link : Route) : Prop :=
  ∀ r, r ∈ net.routes ∧ r.table = mark ↔ r = defaultRoute mark link ∨
    ∃ main ∈ net.routes, main.table = rtTableMain ∧ 1 < main.dst.prefixLen ∧
      r = { main with table := mark }

/-- Neither of the two tables' routes has changed. -/
theorem Net.MirrorsMain.congr {net net' : Net} {mark : UInt32} {link : Route}
    (h : net.MirrorsMain mark link)
    (same : ∀ r, r.table = mark → (r ∈ net'.routes ↔ r ∈ net.routes))
    (main : ∀ r, r.table = rtTableMain → 1 < r.dst.prefixLen →
      (r ∈ net'.routes ↔ r ∈ net.routes)) : net'.MirrorsMain mark link := by
  intro r
  have hmark : r ∈ net'.routes ∧ r.table = mark ↔ r ∈ net.routes ∧ r.table = mark :=
    and_congr_left fun htable => same r htable
  rw [hmark, h r]
  refine or_congr_right (exists_congr fun route => ?_)
  constructor
  · rintro ⟨hroute, htable, hprefix, heq⟩
    exact ⟨(main route htable hprefix).mpr hroute, htable, hprefix, heq⟩
  · rintro ⟨hroute, htable, hprefix, heq⟩
    exact ⟨(main route htable hprefix).mp hroute, htable, hprefix, heq⟩

variable {newMark : UInt32} {conf : State} {link : Route} {net : Net}

theorem mem_lanRoutes {routes : List FibRoute} {r : FibRoute} :
    r ∈ lanRoutes newMark routes ↔ ∃ main ∈ routes, main.table = rtTableMain ∧
      1 < main.dst.prefixLen ∧ r = { main with table := newMark } := by
  rw [lanRoutes, List.mem_map]
  refine exists_congr fun main => ?_
  rw [List.mem_filter, Bool.and_eq_true, beq_iff_eq, decide_eq_true_iff, and_assoc, and_assoc]
  exact and_congr_right fun _ => and_congr_right fun _ => and_congr_right fun _ => eq_comm

theorem mem_reloadRoutes {route : Option Route} {routes : List FibRoute}
    (husable : usable conf route = some link) (lan : conf.config.allowLan = true)
    (hmain : rtTableMain ≠ newMark) (r : FibRoute) :
    r ∈ reloadRoutes newMark conf route routes ↔ r = defaultRoute newMark link ∨
      ∃ main ∈ routes, main.table = rtTableMain ∧ 1 < main.dst.prefixLen ∧
        r = { main with table := newMark } := by
  have hroutes : reloadRoutes newMark conf route routes = defaultRoute newMark link ::
      lanRoutes newMark (routes ++ [defaultRoute newMark link]) := by
    simp only [reloadRoutes, husable, setupRoutes, lan, if_true]
  rw [hroutes, List.mem_cons, mem_lanRoutes]
  refine or_congr_right (exists_congr fun main => ?_)
  rw [List.mem_append, List.mem_singleton]
  constructor
  · rintro ⟨hold | rfl, htable, hrest⟩
    · exact ⟨hold, htable, hrest⟩
    · exact absurd htable hmain.symm
  · rintro ⟨hold, hrest⟩
    exact ⟨Or.inl hold, hrest⟩

/-- A reload that sets up the output in a table of its own mirrors the main table there. -/
theorem mirrorsMain_reload {net' : Net} {route : Option Route} (free : net.NoRoutes newMark)
    (husable : usable conf route = some link) (lan : conf.config.allowLan = true)
    (hmain : rtTableMain ≠ newMark)
    (hroutes : net'.routes = net.routes ++ reloadRoutes newMark conf route net.routes) :
    net'.MirrorsMain newMark link := by
  intro r
  have hnew : r ∈ net'.routes ∧ r.table = newMark ↔
      r ∈ reloadRoutes newMark conf route net.routes := by
    rw [hroutes, List.mem_append]
    constructor
    · rintro ⟨hold | hadded, htable⟩
      · exact absurd htable (free r hold)
      · exact hadded
    · exact fun hadded => ⟨Or.inr hadded, reloadRoutes_table hadded⟩
  rw [hnew, mem_reloadRoutes husable lan hmain]
  refine or_congr_right (exists_congr fun main => ?_)
  rw [hroutes, List.mem_append]
  constructor
  · rintro ⟨hold, hrest⟩
    exact ⟨Or.inl hold, hrest⟩
  · rintro ⟨hold | hadded, htable, hrest⟩
    · exact ⟨hold, htable, hrest⟩
    · exact absurd (htable.symm.trans (reloadRoutes_table hadded)) hmain

namespace System

variable {c : Crates} {e : Endian} {dc : DnsCrates} {alloc : Nat → Option (Nat → UInt8)}
  {lookup : Net → List Link → UInt32 → Option FibResult} {s t : System}

/-- `watch_reload` will still read the main table, whatever happens. -/
def Due (s : System) : Prop :=
  (∃ newMark, s.reloadLoop.phase = .woken newMark) ∨ s.reloadLoop.conf ≠ s.conf.version ∨
    s.reloadLoop.routes ≠ s.routes.version ∨ s.reloadLoop.doReload ≠ s.doReload.version

/-- The output is usable, as far as the daemon knows, and the local network is shared. -/
def Shares (s : System) : Prop :=
  (∃ link, usable s.conf.value s.routes.value = some link) ∧
    s.conf.value.config.allowLan = true

/-- The mark drawn is that of a table not in use. -/
def DrawnUnused (s : System) : Prop :=
  ∀ newMark, s.reloadLoop.phase = .woken newMark →
    newMark ≠ s.dnsTable ∧ (s.net.cleared s.mark).NoRoutes newMark

/-- The main table changes, but for the widest destinations, only as long as a
reload is due or nothing is shared, and the marks drawn are those of tables not in use. -/
def Timely (s : System) : SystemEvent → Prop
  | .routeAdded route | .routeDeleted route =>
    route.dst.prefixLen ≤ 1 ∨ s.Due ∨ ¬s.Shares
  | .reloadRules => s.DrawnUnused
  | _ => True

structure Seen (s : System) : Prop where
  conf : s.reloadLoop.conf ≤ s.conf.version
  routes : s.reloadLoop.routes ≤ s.routes.version
  doReload : s.reloadLoop.doReload ≤ s.doReload.version

/-- The table of the current mark is a mirror, unless a reload is due. -/
structure LanSound (s : System) : Prop where
  drawn : isRandTable s.dnsTable = true
  seen : s.Seen
  woken : ∀ newMark, s.reloadLoop.phase = .woken newMark → isRandTable newMark = true
  mirrors : ¬s.Due → ∀ link, usable s.conf.value s.routes.value = some link →
    s.conf.value.config.allowLan = true → ∃ mark, s.mark = some mark ∧
      isRandTable mark = true ∧ mark ≠ s.dnsTable ∧ s.net.MirrorsMain mark link

/-- No reload begins or reads anything, and the channels go on from where they were. -/
structure ReloadRests (s t : System) : Prop where
  conf : s.conf.Later t.conf
  routes : s.routes.Later t.routes
  doReload : s.doReload.Later t.doReload
  dnsTable : t.dnsTable = s.dnsTable
  mark : t.mark = s.mark
  seenConf : t.reloadLoop.conf = s.reloadLoop.conf
  seenRoutes : t.reloadLoop.routes = s.reloadLoop.routes
  seenDoReload : t.reloadLoop.doReload = s.reloadLoop.doReload
  phase : ∀ newMark, t.reloadLoop.phase = .woken newMark ↔ s.reloadLoop.phase = .woken newMark

theorem ReloadRests.of_around (h : Around dc s t) : ReloadRests s t where
  conf := h.conf
  routes := by
    rw [h.routes]
    exact .refl _
  doReload := h.doReload
  dnsTable := h.dnsTable
  mark := h.mark
  seenConf := by rw [h.reloadLoop]
  seenRoutes := by rw [h.reloadLoop]
  seenDoReload := by rw [h.reloadLoop]
  phase newMark := by rw [h.reloadLoop]

theorem ReloadRests.seen (h : ReloadRests s t) (seen : s.Seen) : t.Seen := by
  obtain ⟨hconf, hroutes, hdoReload⟩ := seen
  have hle := h.conf.le
  have hle' := h.routes.le
  have hle'' := h.doReload.le
  constructor
  · rw [h.seenConf]
    omega
  · rw [h.seenRoutes]
    omega
  · rw [h.seenDoReload]
    omega

/-- What has been seen and is the latest now was the latest before. -/
theorem ReloadRests.not_due (h : ReloadRests s t) (seen : s.Seen) (hdue : ¬t.Due) :
    ¬s.Due ∧ t.conf.value = s.conf.value ∧ t.routes.value = s.routes.value := by
  obtain ⟨hconf, hroutes, hdoReload⟩ := seen
  have hle := h.conf.le
  have hle' := h.routes.le
  have hle'' := h.doReload.le
  simp only [Due, not_or, not_not] at hdue
  obtain ⟨hphase, heq, heq', heq''⟩ := hdue
  rw [h.seenConf] at heq
  rw [h.seenRoutes] at heq'
  rw [h.seenDoReload] at heq''
  refine ⟨?_, h.conf.same (by omega), h.routes.same (by omega)⟩
  rintro (⟨newMark, hwoken⟩ | hne | hne | hne)
  · exact hphase ⟨newMark, (h.phase newMark).mpr hwoken⟩
  · omega
  · omega
  · omega

/-- The routes the mirror is about stay, or a reload is due. -/
theorem LanSound.rests (h : s.LanSound) (rests : ReloadRests s t)
    (same : ¬t.Due → s.Shares → ∀ r, r.table ≠ s.dnsTable →
      (r.table = rtTableMain → 1 < r.dst.prefixLen) → (r ∈ t.net.routes ↔ r ∈ s.net.routes)) :
    t.LanSound where
  drawn := by
    rw [rests.dnsTable]
    exact h.drawn
  seen := rests.seen h.seen
  woken newMark hwoken := h.woken newMark ((rests.phase newMark).mp hwoken)
  mirrors hdue link husable lan := by
    obtain ⟨hdue', hconf, hroutes⟩ := rests.not_due h.seen hdue
    rw [hconf] at husable lan
    rw [hroutes] at husable
    have shares : s.Shares := ⟨⟨link, husable⟩, lan⟩
    obtain ⟨mark, hmark, hrand, hne, hmirrors⟩ := h.mirrors hdue' link husable lan
    refine ⟨mark, rests.mark.trans hmark, hrand, ?_, hmirrors.congr ?_ ?_⟩
    · rw [rests.dnsTable]
      exact hne
    · intro r htable
      refine same hdue shares r (htable ▸ hne) fun hmain => ?_
      exact absurd (hmain.symm.trans htable) (isRandTable_ne_main hrand)
    · intro r htable hprefix
      refine same hdue shares r ?_ fun _ => hprefix
      rw [htable]
      exact isRandTable_ne_main h.drawn

theorem LanSound.around (h : s.LanSound) (around : Around dc s t)
    (same : s.net.SameElsewhere s.dnsTable t.net) : t.LanSound :=
  h.rests (.of_around around) fun _ _ r hr _ => same r hr

theorem Around.due (h : Around dc s t) (seen : s.Seen) (hdue : s.Due) : t.Due := by
  by_contra hno
  exact ((ReloadRests.of_around h).not_due seen hno).1 hdue

/-- One route of the main table comes or goes, at a time the mirror does not notice. -/
theorem LanSound.mainMoved {route : FibRoute} (h : s.LanSound) (around : Around dc s t)
    (ok : route.dst.prefixLen ≤ 1 ∨ s.Due ∨ ¬s.Shares) (hmain : route.table = rtTableMain)
    (others : ∀ r, r ≠ route → (r ∈ t.net.routes ↔ r ∈ s.net.routes)) : t.LanSound := by
  refine h.rests (.of_around around) fun hdue shares r _ hprefix => ?_
  obtain hwide | hdue' | hno := ok
  · refine others r fun heq => ?_
    have hlong := hprefix (heq ▸ hmain)
    rw [heq] at hlong
    omega
  · exact absurd (around.due h.seen hdue') hdue
  · exact absurd shares hno

theorem LanSound.reloadWake {newMark : UInt32} (h : s.LanSound)
    (step : s.reloadWake newMark = some t) : t.LanSound := by
  obtain ⟨_, hrand, rfl⟩ := reloadWake_some step
  refine ⟨h.drawn, ⟨Nat.le_refl _, Nat.le_refl _, Nat.le_refl _⟩, ?_, fun hdue => ?_⟩
  · rintro _ ⟨⟩
    exact hrand
  · exact absurd (Or.inl ⟨newMark, rfl⟩) hdue

theorem LanSound.reloadRules (h : s.LanSound) (ok : s.Timely .reloadRules)
    (step : s.reloadRules c = some t) : t.LanSound := by
  obtain ⟨newMark, enable, blocker, net, hphase, hrules, rfl⟩ := reloadRules_some step
  obtain ⟨_, _, hroutes⟩ := reloadRules_eq hrules
  obtain ⟨hne, hfree⟩ := ok newMark hphase
  have hrand := h.woken newMark hphase
  refine ⟨h.drawn, ⟨h.seen.conf, h.seen.routes, h.seen.doReload⟩, nofun, ?_⟩
  intro _ link husable lan
  exact ⟨newMark, rfl, hrand, hne,
    mirrorsMain_reload hfree husable lan (isRandTable_ne_main hrand) hroutes⟩

theorem lanSound_step {event : SystemEvent} (h : s.LanSound) (ok : s.Timely event)
    (step : s.step c e dc alloc lookup event = some t) : t.LanSound := by
  cases event with
  | routesTurn =>
    obtain ⟨routes, rfl, hroutes⟩ := routesTurn_some step
    have hlater : s.routes.Later routes := by
      obtain ⟨rfl, _⟩ | rfl := hroutes
      · exact .refl _
      · exact Watch.later_send _ _
    exact h.rests ⟨.refl _, hlater, .refl _, rfl, rfl, rfl, rfl, rfl, fun _ => Iff.rfl⟩
      fun _ _ _ _ _ => Iff.rfl
  | reloadWake newMark => exact h.reloadWake step
  | reloadRules => exact h.reloadRules ok step
  | reloadBpf =>
    obtain ⟨newMark, enable, rules, route, ctx, kernel, hphase, _, rfl⟩ := reloadBpf_some step
    refine h.rests ⟨.refl _, .refl _, .refl _, rfl, rfl, rfl, rfl, rfl, fun m => ?_⟩
      fun _ _ _ _ _ => Iff.rfl
    rw [hphase]
    exact iff_of_false nofun nofun
  | reloadDone =>
    obtain ⟨hphase, rfl⟩ := reloadDone_some step
    refine h.rests ⟨.refl _, .refl _, .refl _, rfl, rfl, rfl, rfl, rfl, fun m => ?_⟩
      fun _ _ _ _ _ => Iff.rfl
    rw [hphase]
    exact iff_of_false nofun nofun
  | dnsWake =>
    obtain ⟨_, rfl⟩ := dnsWake_some step
    exact h.rests ⟨.refl _, .refl _, .refl _, rfl, rfl, rfl, rfl, rfl, fun _ => Iff.rfl⟩
      fun _ _ _ _ _ => Iff.rfl
  | dnsTurn =>
    obtain ⟨updateCaches, _, rfl⟩ := dnsTurn_some step
    refine h.rests ⟨.refl _, .refl _, .refl _, rfl, rfl, rfl, rfl, rfl, fun _ => Iff.rfl⟩
      fun _ _ => ?_
    exact fun r hr _ =>
      DnsState.watchDnsRoutes_elsewhere c dc s.dnsCtx updateCaches s.dns s.net r hr
  | routeAdded route =>
    have around := step_around step rfl
    simp only [System.step] at step
    split at step
    next hmain =>
      cases Option.some.inj step
      refine h.mainMoved around ok hmain fun r hne => ?_
      rw [List.mem_append, List.mem_singleton]
      exact or_iff_left hne
    next => cases step
  | routeDeleted route =>
    have around := step_around step rfl
    simp only [System.step] at step
    split at step
    next hmain =>
      cases Option.some.inj step
      exact h.mainMoved around ok hmain.1 fun r hne => List.mem_erase_of_ne hne
    next => cases step
  | callback now =>
    have around := step_around step rfl
    refine h.around around ?_
    obtain ⟨data, ring, _, ⟨_, _, rfl⟩ | ⟨dns, net, hparse, rfl⟩⟩ := callback_some step
    · exact .refl _
    · exact DnsState.parse_elsewhere hparse
  | sweep now =>
    refine h.around (step_around step rfl) ?_
    cases Option.some.inj step
    exact DnsState.watchDnsTtl_elsewhere dc s.dnsCtx now s.dns s.net
  | retire name dest =>
    refine h.around (step_around step rfl) ?_
    cases Option.some.inj step
    exact DnsState.removeRecords_elsewhere s.dnsCtx name dest s.dns s.net
  | _ =>
    refine h.around (step_around step rfl) ?_
    rw [(step_frame step).net rfl]
    exact .refl _

theorem Quiet.not_due (h : s.Quiet) : ¬s.Due := by
  obtain ⟨hconf, hroutes, hdoReload⟩ := h.reloadLoop
  rw [Watch.hasChanged_eq_false] at hconf hroutes hdoReload
  rintro (⟨newMark, hwoken⟩ | hne | hne | hne)
  · rw [h.waiting.1] at hwoken
    cases hwoken
  · exact hne hconf
  · exact hne hroutes
  · exact hne hdoReload

/-- The service is on and shares the local network, its output is up, and nothing
is waiting to be handled. -/
structure Sharing (s : System) (device : Link) : Prop where
  enable : s.conf.value.enable = true
  allowLan : s.conf.value.config.allowLan = true
  output : s.outputDevice = some device
  isUp : device.isUp = true
  notices : s.notices = []
  quiet : s.Quiet

theorem Started.lanSound (h : s.Started) (drawn : isRandTable s.dnsTable = true) :
    s.LanSound where
  drawn := drawn
  seen := by
    constructor <;> rw [h.reloadLoop]
    · exact h.conf
    · rw [h.routes]
      exact Nat.le_refl _
    · exact h.doReload
  woken newMark hwoken := by
    rw [h.reloadLoop] at hwoken
    cases hwoken
  mirrors _ link husable := by
    rw [h.routes] at husable
    cases husable

/-- When everything is settled, the mark's table mirrors the main table, if this
changed only while a reload was due or nothing was shared. -/
theorem run_mirrorsMain {s₀ : System} (started : s₀.Started)
    (drawn : isRandTable s₀.dnsTable = true) {events : List SystemEvent}
    (run : Run (step c e dc alloc lookup) Timely s₀ events s) {device : Link}
    (sharing : s.Sharing device) :
    ∃ mark gateway, s.mark = some mark ∧ s.routes.value = some (device.toRoute gateway) ∧
      s.net.MirrorsMain mark (device.toRoute gateway) := by
  have known := run.invariant (fun _ _ _ h _ => deviceSound_step h) started.deviceSound
  have sound := run.invariant (fun _ _ _ => lanSound_step) (started.lanSound drawn)
  obtain ⟨gateway, hseen⟩ := known.outputSeen sharing.notices sharing.quiet
  rw [sharing.output] at hseen
  have husable := usable_eq_some.mpr ⟨hseen, sharing.isUp, sharing.enable⟩
  obtain ⟨mark, hmark, _, _, hmirrors⟩ :=
    sound.mirrors sharing.quiet.not_due _ husable sharing.allowLan
  exact ⟨mark, gateway, hmark, hseen, hmirrors⟩

def lanRoute : FibRoute :=
  { table := rtTableMain, dst := ⟨ipv4Addr 192 168 1 0, 24⟩, oif := 1, prefsrc := none,
    gateway := none }

/-- The first reload, with a route to the local network that comes just before it. -/
def lanBefore : List SystemEvent :=
  [.routesTurn, .routeAdded lanRoute, .notice, .reloadWake 70001, .reloadRules, .reloadBpf,
    .reloadDone, .dnsWake, .dnsTurn]

theorem run_mirrorsMain_lanBefore :
    ∃ s, Run (step anyCrates .little sampleDnsCrates zeroedPages firstMain) Timely wgSystem
        lanBefore s ∧
      ∃ mark gateway, s.mark = some mark ∧
        s.routes.value = some (Link.toRoute ⟨2, "wg0", true, []⟩ gateway) ∧
        s.net.MirrorsMain mark (Link.toRoute ⟨2, "wg0", true, []⟩ gateway) := by
  have due : Due { wgSystem with
      routesLoop := ⟨1, 2⟩
      routes := (Watch.new none).send (some ⟨true, 2, "wg0", [], none⟩) } := by
    refine Or.inr (Or.inr (Or.inl ?_))
    decide
  have run : ∃ s, Run (step anyCrates .little sampleDnsCrates zeroedPages firstMain) Timely
      wgSystem lanBefore s ∧ s.Sharing ⟨2, "wg0", true, []⟩ := by
    refine ⟨_, .cons trivial rfl (.cons (Or.inr (Or.inl due)) rfl (.cons trivial rfl
      (.cons trivial rfl (.cons ?_ rfl (.cons trivial rfl (.cons trivial rfl
      (.cons trivial rfl (.single trivial rfl)))))))), ⟨rfl, rfl, rfl, rfl, rfl, ⟨rfl, rfl⟩,
        ⟨rfl, rfl, rfl⟩, ⟨rfl, rfl, rfl⟩, rfl, rfl⟩⟩
    rintro _ ⟨⟩
    exact ⟨by decide, by simp [Net.NoRoutes, Net.cleared, wgSystem, lanRoute]; decide⟩
  obtain ⟨s, run, sharing⟩ := run
  exact ⟨s, run, run_mirrorsMain wgSystem_started (by decide) run sharing⟩

def DrawsUnused (s : System) : SystemEvent → Prop
  | .reloadRules => s.DrawnUnused
  | _ => True

/-- The main table gets a route once the output is set up: its message is dropped for
carrying its table, and nothing is reloaded. -/
theorem run_not_mirrorsMain :
    ¬∀ {c : Crates} {e : Endian} {dc : DnsCrates} {alloc : Nat → Option (Nat → UInt8)}
      {lookup : Net → List Link → UInt32 → Option FibResult} {s₀ s : System}, s₀.Started →
      isRandTable s₀.dnsTable = true → ∀ {events : List SystemEvent},
      Run (step c e dc alloc lookup) DrawsUnused s₀ events s → ∀ {device : Link},
      s.Sharing device → ∃ mark gateway, s.mark = some mark ∧
        s.routes.value = some (device.toRoute gateway) ∧
        s.net.MirrorsMain mark (device.toRoute gateway) := by
  intro h
  have run : ∃ s, Run (step anyCrates .little sampleDnsCrates zeroedPages firstMain) DrawsUnused
      wgSystem (turns 70001 ++ [.routeAdded lanRoute, .notice]) s ∧
      s.Sharing ⟨2, "wg0", true, []⟩ ∧ lanRoute ∈ s.net.routes ∧ s.mark = some 70001 ∧
      { lanRoute with table := 70001 } ∉ s.net.routes := by
    refine ⟨_, .cons trivial rfl (.cons trivial rfl (.cons ?_ rfl (.cons trivial rfl
      (.cons trivial rfl (.cons trivial rfl (.cons trivial rfl (.cons trivial rfl
      (.single trivial rfl)))))))), ⟨rfl, rfl, rfl, rfl, rfl, ⟨rfl, rfl⟩,
        ⟨rfl, rfl, rfl⟩, ⟨rfl, rfl, rfl⟩, rfl, rfl⟩, by decide, rfl, by decide⟩
    rintro _ ⟨⟩
    exact ⟨by decide, nofun⟩
  obtain ⟨s, run, sharing, hmain, hmark, hmissing⟩ := run
  obtain ⟨mark, gateway, hmark', _, hmirrors⟩ := h wgSystem_started (by decide) run sharing
  cases Option.some.inj (hmark.symm.trans hmark')
  have hmirrored := (hmirrors { lanRoute with table := 70001 }).mpr
    (Or.inr ⟨lanRoute, hmain, rfl, by decide, rfl⟩)
  exact hmissing hmirrored.1

end System

end Rebpf
