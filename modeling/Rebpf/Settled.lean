import Rebpf.ReloadRules
import Rebpf.SystemSteps

namespace Rebpf

open Lib

/-- The context and the kernel's configuration are those of a BPF reload with these inputs. -/
structure Used.Loaded (u : Used) (ctx : BpfCtx) (k : Kernel) : Prop where
  built : ctx.lastGen = u.bpf.ms.generation
  enable : k.config.enable = (usable u.rules u.route).isSome
  enableDns : k.config.enableDns = (k.config.enable && decide (0 < u.bpf.ms.dnsCount))
  generation : k.config.generation = u.bpf.ms.generation

namespace System

/-- What `watch_reload` has used is what it has seen, in whatever place it stands. -/
inductive ReloadSound (s : System) : Prop
  | waiting : s.reloadLoop.phase = .idle → s.used = none → s.reloadLoop.routes = 1 → ReloadSound s
  | woken {newMark} : s.reloadLoop.phase = .woken newMark →
      s.reloadLoop.conf ≤ s.conf.version → s.reloadLoop.routes ≤ s.routes.version → ReloadSound s
  | ruled {newMark enable rules route} :
      s.reloadLoop.phase = .ruled newMark enable rules route →
      enable = (usable rules route).isSome → s.conf.Follows s.reloadLoop.conf rules →
      s.routes.Follows s.reloadLoop.routes route → ReloadSound s
  | used {u} : s.reloadLoop.phase = .idle ∨ s.reloadLoop.phase = .refreshing → s.used = some u →
      s.conf.Follows s.reloadLoop.conf u.rules → s.routes.Follows s.reloadLoop.routes u.route →
      s.conf.Follows s.reloadLoop.conf u.bpf → u.Loaded s.ctx s.kernel → ReloadSound s

/-- The DNS cache is that of the matches `watch_dns_routes` has seen, unless it is
about to build it. -/
structure DnsSound (c : Crates) (s : System) : Prop where
  seen_le : s.dnsLoop.conf ≤ s.conf.version
  cache : s.dnsLoop.woken ≠ some true → s.dnsLoop.conf = s.conf.version →
    ∀ dfa, s.conf.value.ms.buildDnsDfa c = .ok dfa → s.dns.cache.dfa = some dfa

/-- As long as no output has been reported, the first report is still to come. -/
def Reports (s : System) : Prop :=
  s.routes.version = 1 → s.routes.value = none ∧ s.routesLoop.toChanged < s.toChanged.version

structure Sound (c : Crates) (dc : DnsCrates) (s : System) : Prop where
  reload : s.ReloadSound
  dns : s.DnsSound c
  matched : s.dns.Matched dc
  reports : s.Reports
  sent : 1 ≤ s.routes.version

variable {c : Crates} {e : Endian} {dc : DnsCrates} {alloc : Nat → Option (Nat → UInt8)}
  {lookup : Net → List Link → UInt32 → Option FibResult} {s t : System}

theorem ReloadSound.later (h : s.ReloadSound) (conf : s.conf.Later t.conf)
    (routes : s.routes.Later t.routes) (reloadLoop : t.reloadLoop = s.reloadLoop)
    (ctx : t.ctx = s.ctx) (kernel : t.kernel = s.kernel) (used : t.used = s.used) :
    t.ReloadSound := by
  have hle := conf.le
  have hle' := routes.le
  cases h with
  | waiting hphase hused hroutes =>
    exact .waiting (by rw [reloadLoop, hphase]) (used.trans hused) (by rw [reloadLoop, hroutes])
  | woken hphase hconf hroutes =>
    rw [← reloadLoop] at hphase hconf hroutes
    exact .woken hphase (by omega) (by omega)
  | ruled hphase henable hconf hroutes =>
    rw [← reloadLoop] at hphase hconf hroutes
    exact .ruled hphase henable (hconf.later conf) (hroutes.later routes)
  | used hphase hused hconf hroutes hbpf hloaded =>
    rw [← reloadLoop] at hphase hconf hroutes hbpf
    rw [← ctx, ← kernel] at hloaded
    exact .used hphase (used.trans hused) (hconf.later conf) (hroutes.later routes)
      (hbpf.later conf) hloaded

theorem DnsSound.later (h : s.DnsSound c) (conf : s.conf.Later t.conf)
    (dnsLoop : t.dnsLoop = s.dnsLoop) (cache : t.dns.cache = s.dns.cache) : t.DnsSound c := by
  have hle := conf.le
  have hseen := h.seen_le
  constructor
  · rw [dnsLoop]
    omega
  · intro hwoken heq
    rw [dnsLoop] at hwoken heq
    rw [conf.same (by omega), cache]
    exact h.cache hwoken (by omega)

theorem Sound.around (h : s.Sound c dc) (around : Around dc s t) : t.Sound c dc where
  reload := h.reload.later around.conf (by rw [around.routes]; exact .refl _) around.reloadLoop
    around.ctx around.kernel around.used
  dns := h.dns.later around.conf around.dnsLoop around.served.cache
  matched := around.served.matched h.matched
  reports hone := by
    have hle := around.toChanged.le
    rw [around.routes] at hone ⊢
    rw [around.routesLoop]
    obtain ⟨hnone, hlt⟩ := h.reports hone
    exact ⟨hnone, by omega⟩
  sent := by
    rw [around.routes]
    exact h.sent

/-- The first turn of `watch_routes` reports, whatever it finds. -/
theorem Sound.routesTurn (h : s.Sound c dc) (step : s.routesTurn = some t) : t.Sound c dc := by
  obtain ⟨routes, rfl, hroutes⟩ := routesTurn_some step
  have hsent := h.sent
  have hlater : s.routes.Later routes := by
    obtain ⟨rfl, _⟩ | rfl := hroutes
    · exact .refl _
    · exact Watch.later_send _ _
  have hle := hlater.le
  refine ⟨h.reload.later (.refl _) hlater rfl rfl rfl rfl, h.dns.later (.refl _) rfl rfl, h.matched,
    fun hone => ?_, by dsimp only; omega⟩
  obtain ⟨rfl, _, hsome⟩ | rfl := hroutes
  · obtain ⟨hnone, _⟩ := h.reports hone
    rw [hnone] at hsome
    cases hsome
  · have hone : s.routes.version + 1 = 1 := hone
    omega

theorem Sound.reloadWake {newMark : UInt32} (h : s.Sound c dc)
    (step : s.reloadWake newMark = some t) : t.Sound c dc := by
  obtain ⟨_, _, rfl⟩ := reloadWake_some step
  exact ⟨.woken rfl (Nat.le_refl _) (Nat.le_refl _), h.dns.later (.refl _) rfl rfl, h.matched,
    h.reports, h.sent⟩

theorem Sound.reloadRules (h : s.Sound c dc) (step : s.reloadRules c = some t) :
    t.Sound c dc := by
  obtain ⟨newMark, enable, blocker, net, hphase, hrules, rfl⟩ := reloadRules_some step
  obtain ⟨henable, _⟩ := reloadRules_eq hrules
  refine ⟨?_, h.dns.later (.refl _) rfl rfl, h.matched, h.reports, h.sent⟩
  cases h.reload with
  | woken _ hconf hroutes =>
    exact .ruled rfl henable (Watch.follows_read hconf) (Watch.follows_read hroutes)
  | waiting hidle => rw [hidle] at hphase; cases hphase
  | ruled hruled => rw [hruled] at hphase; cases hphase
  | used hdone => rcases hdone with hdone | hdone <;> rw [hdone] at hphase <;> cases hphase

theorem Sound.reloadBpf (h : s.Sound c dc) (step : s.reloadBpf c e alloc = some t) :
    t.Sound c dc := by
  obtain ⟨newMark, enable, rules, route, ctx, kernel, hphase, hbpf, rfl⟩ := reloadBpf_some step
  obtain ⟨conf, reloaded, hkernel⟩ := bpfReload_some hbpf
  have hconfig := Kernel.bpfReloadConfig_config hkernel
  have hbuilt : ctx.lastGen = s.conf.value.ms.generation := by
    obtain ⟨hgen, rfl⟩ | ⟨_, hgen, _⟩ := reloaded.built <;> exact hgen
  refine ⟨?_, h.dns.later (.refl _) rfl rfl, h.matched, h.reports, h.sent⟩
  cases h.reload with
  | ruled hruled henable hconf hroutes =>
    cases hruled.symm.trans hphase
    refine .used (Or.inr rfl) rfl hconf hroutes (Watch.follows_read hconf.seen_le) ?_
    constructor
    · exact hbuilt
    · rw [hconfig, reloaded.enable, henable]
    · rw [hconfig, reloaded.enableDns]
    · rw [hconfig, reloaded.generation]
  | waiting hidle => rw [hidle] at hphase; cases hphase
  | woken hwoken => rw [hwoken] at hphase; cases hphase
  | used hdone => rcases hdone with hdone | hdone <;> rw [hdone] at hphase <;> cases hphase

theorem Sound.reloadDone (h : s.Sound c dc) (step : s.reloadDone = some t) : t.Sound c dc := by
  obtain ⟨hphase, rfl⟩ := reloadDone_some step
  refine ⟨?_, h.dns.later (.refl _) rfl rfl, h.matched, h.reports, h.sent⟩
  cases h.reload with
  | used _ hused hconf hroutes hbpf hloaded =>
    exact .used (Or.inl rfl) hused hconf hroutes hbpf hloaded
  | waiting hidle => rw [hidle] at hphase; cases hphase
  | woken hwoken => rw [hwoken] at hphase; cases hphase
  | ruled hruled => rw [hruled] at hphase; cases hphase

theorem Sound.dnsWake (h : s.Sound c dc) (step : s.dnsWake = some t) : t.Sound c dc := by
  obtain ⟨hnone, rfl⟩ := dnsWake_some step
  refine ⟨h.reload.later (.refl _) (.refl _) rfl rfl rfl rfl, ⟨Nat.le_refl _, fun hwoken _ => ?_⟩,
    h.matched, h.reports, h.sent⟩
  -- Without an update the configuration seen before is still the latest.
  have hunchanged : s.conf.hasChanged s.dnsLoop.conf = false := by
    simpa using hwoken
  refine h.dns.cache ?_ (Watch.hasChanged_eq_false.mp hunchanged)
  rw [hnone]
  nofun

theorem DnsCache.update_dfa {cache : DnsCache} {ms : Matches} {dfa : DnsDfa}
    (h : ms.buildDnsDfa c = .ok dfa) : (cache.update c ms).dfa = some dfa := by
  rw [Rebpf.DnsCache.update, h]

theorem Sound.dnsTurn (h : s.Sound c dc) (step : s.dnsTurn c dc = some t) : t.Sound c dc := by
  obtain ⟨updateCaches, hwoken, rfl⟩ := dnsTurn_some step
  refine ⟨h.reload.later (.refl _) (.refl _) rfl rfl rfl rfl,
    ⟨h.dns.seen_le, fun _ heq dfa hdfa => ?_⟩,
    DnsState.watchDnsRoutes_matched _ _ s.net, h.reports, h.sent⟩
  cases updateCaches with
  | true => exact DnsCache.update_dfa hdfa
  | false =>
    refine h.dns.cache ?_ heq dfa hdfa
    rw [hwoken]
    nofun

theorem sound_step {event : SystemEvent} (h : s.Sound c dc)
    (step : s.step c e dc alloc lookup event = some t) : t.Sound c dc := by
  cases event with
  | routesTurn => exact h.routesTurn step
  | reloadWake newMark => exact h.reloadWake step
  | reloadRules => exact h.reloadRules step
  | reloadBpf => exact h.reloadBpf step
  | reloadDone => exact h.reloadDone step
  | dnsWake => exact h.dnsWake step
  | dnsTurn => exact h.dnsTurn step
  | _ => exact h.around (step_around step rfl)

theorem Started.sound (h : s.Started) : s.Sound c dc where
  reload := by
    refine .waiting ?_ h.used ?_
    · rw [h.reloadLoop]
    · rw [h.reloadLoop]
  dns := by
    have hconf := h.conf
    have hseen : s.dnsLoop.conf = 0 := by
      rw [h.dnsLoop]
      rfl
    exact ⟨by omega, fun _ heq => by omega⟩
  matched rec hrec := by
    rw [h.heap] at hrec
    cases hrec
  reports _ := by
    rw [h.routes, h.routesLoop]
    exact ⟨rfl, h.toChanged⟩
  sent := by
    rw [h.routes]
    exact Nat.le_refl _

/-- Nothing is lost: when all loops wait and have seen everything, the last BPF
reload and the DNS cache are those of the latest configuration and output. -/
structure Settled (c : Crates) (dc : DnsCrates) (s : System) : Prop where
  used : s.used = some { rules := s.conf.value, route := s.routes.value, bpf := s.conf.value }
  built : s.ctx.lastGen = s.conf.value.ms.generation
  enable : s.kernel.config.enable = (usable s.conf.value s.routes.value).isSome
  enableDns : s.kernel.config.enableDns =
    (s.kernel.config.enable && decide (0 < s.conf.value.ms.dnsCount))
  generation : s.kernel.config.generation = s.conf.value.ms.generation
  cache : ∀ dfa, s.conf.value.ms.buildDnsDfa c = .ok dfa →
    s.dns.cache.dfa = some dfa ∧ s.dns.Matched dc

theorem Sound.settled (h : s.Sound c dc) (quiet : s.Quiet) : s.Settled c dc := by
  obtain ⟨⟨_, hto⟩, ⟨hconf, hroutes, _⟩, ⟨hdns, _⟩, hidle, hwaiting⟩ := quiet
  rw [Watch.hasChanged_eq_false] at hto hconf hroutes hdns
  have hcache : ∀ dfa, s.conf.value.ms.buildDnsDfa c = .ok dfa →
      s.dns.cache.dfa = some dfa ∧ s.dns.Matched dc := by
    refine fun dfa hdfa => ⟨h.dns.cache ?_ hdns dfa hdfa, h.matched⟩
    rw [hwaiting]
    nofun
  cases h.reload with
  | waiting _ _ hone =>
    obtain ⟨_, hlt⟩ := h.reports (by omega)
    omega
  | woken hwoken => rw [hidle] at hwoken; cases hwoken
  | ruled hruled => rw [hidle] at hruled; cases hruled
  | @used u _ hused hrules hroute hbpf hloaded =>
    have heq := hrules.latest hconf
    have heq' := hroute.latest hroutes
    have heq'' := hbpf.latest hconf
    obtain ⟨rules, route, bpf⟩ := u
    subst heq heq' heq''
    exact ⟨hused, hloaded.built, hloaded.enable, hloaded.enableDns, hloaded.generation, hcache⟩

/-- The list, and what its last reload has left in the context and in the kernel. -/
def service (s : System) : Service := ⟨s.conf.value.ms, s.ctx, s.kernel⟩

/-- What is asked of the service's edits and reloads. -/
def Fits (c : Crates) (e : Endian) (s : System) : SystemEvent → Prop
  | .change (.edit edit) => s.service.Fits c e (.edit edit)
  | .reloadBpf => ∀ enable newMark, s.service.Fits c e (.reload enable newMark)
  | _ => True

variable (alloc) in
theorem applyChange_service {change : Change} (h : s.applyChange c e change = some t) :
    t.service = s.service ∨ ∃ edit, change = .edit edit ∧
      s.service.step c e alloc (.edit edit) = some t.service := by
  cases change with
  | edit edit =>
    simp only [applyChange] at h
    refine Or.inr ⟨edit, rfl, ?_⟩
    obtain ⟨msg, heq⟩ | ⟨ms, heq⟩ | ⟨ms, heq, _⟩ :=
      Edit.apply_cases (c := c) (e := e) edit s.conf.value.ms
    · rw [heq] at h
      cases Option.some.inj h
      simp only [Service.step, service, heq]
    · rw [heq] at h
      cases h
    · rw [heq] at h
      cases Option.some.inj h
      simp only [Service.step, service, heq]
      rfl
  | _ =>
    cases Option.some.inj h
    exact Or.inl rfl

/-- Among the system's steps, only an edit and a BPF reload are steps of the service. -/
theorem step_service {event : SystemEvent} (h : s.step c e dc alloc lookup event = some t) :
    t.service = s.service ∨
      (∃ edit, event = .change (.edit edit) ∧
        s.service.step c e alloc (.edit edit) = some t.service) ∨
      ∃ enable newMark, event = .reloadBpf ∧
        s.service.step c e alloc (.reload enable newMark) = some t.service := by
  obtain hconf | ⟨change, rfl, hchange⟩ := step_conf h
  · have same (ctx : t.ctx = s.ctx) (kernel : t.kernel = s.kernel) : t.service = s.service := by
      rw [service, hconf, ctx, kernel, service]
    cases event with
    | reloadBpf =>
      obtain ⟨newMark, enable, rules, route, ctx, kernel, _, hbpf, rfl⟩ := reloadBpf_some h
      refine Or.inr (Or.inr ⟨enable, newMark, rfl, ?_⟩)
      simp only [Service.step, service, hbpf]
      rfl
    | routesTurn =>
      obtain ⟨_, rfl, _⟩ := routesTurn_some h
      exact Or.inl (same rfl rfl)
    | reloadWake newMark =>
      obtain ⟨_, _, rfl⟩ := reloadWake_some h
      exact Or.inl (same rfl rfl)
    | reloadRules =>
      obtain ⟨_, _, _, _, _, _, rfl⟩ := reloadRules_some h
      exact Or.inl (same rfl rfl)
    | reloadDone =>
      obtain ⟨_, rfl⟩ := reloadDone_some h
      exact Or.inl (same rfl rfl)
    | dnsWake =>
      obtain ⟨_, rfl⟩ := dnsWake_some h
      exact Or.inl (same rfl rfl)
    | dnsTurn =>
      obtain ⟨_, _, rfl⟩ := dnsTurn_some h
      exact Or.inl (same rfl rfl)
    | _ =>
      have around := step_around h rfl
      exact Or.inl (same around.ctx around.kernel)
  · obtain hsame | ⟨edit, rfl, hedit⟩ := applyChange_service alloc hchange
    · exact Or.inl hsame
    · exact Or.inr (Or.inl ⟨edit, rfl, hedit⟩)

theorem serviceInv_step (aligned : c.PadsToWord)
    (allocs : ∀ n, 1 ≤ n → n ≤ 512 → ∃ bytes, alloc n = some bytes) {event : SystemEvent}
    (h : s.service.Inv c e) (fits : s.Fits c e event)
    (step : s.step c e dc alloc lookup event = some t) : t.service.Inv c e := by
  obtain hsame | ⟨edit, rfl, hedit⟩ | ⟨enable, newMark, rfl, hreload⟩ := step_service step
  · rw [hsame]
    exact h
  · exact Service.inv_step aligned allocs h fits hedit
  · exact Service.inv_step aligned allocs h (fits enable newMark) hreload

/-- When all loops wait and have seen everything, nothing is lost; and where the service's
edits and reloads fit, the kernel runs the list. -/
theorem run_settles {s₀ : System} (started : s₀.Started) {events : List SystemEvent}
    (run : Run (step c e dc alloc lookup) (fun _ _ => True) s₀ events s) (quiet : s.Quiet) :
    s.Settled c dc ∧ (c.PadsToWord → c.NothingFromNone →
      (∀ n, 1 ≤ n → n ≤ 512 → ∃ bytes, alloc n = some bytes) → s₀.service.Started →
      Run (step c e dc alloc lookup) (Fits c e) s₀ events s → s.service.Installed c e) := by
  have settled : s.Settled c dc :=
    (run.invariant (I := Sound c dc) (fun _ _ _ h _ => sound_step h) started.sound).settled quiet
  refine ⟨settled, fun aligned nothing allocs fresh fits => ?_⟩
  have inv := fits.invariant (I := fun s => s.service.Inv c e)
    (fun _ _ _ => serviceInv_step aligned allocs) (fresh.inv nothing)
  exact inv.installed settled.built

/-- The daemon has started without matches. -/
def plainSystem : System :=
  { wgSystem with conf := .new { State.default with enable := true, toDev := "wg0" } }

theorem plainSystem_started : plainSystem.Started :=
  ⟨Nat.le_refl _, Nat.lt_succ_self _, Nat.le_refl _, rfl, rfl, rfl, rfl, rfl, rfl⟩

/-- The list is that of the one rule when it is compiled, and its generation a small one. -/
def fitsSlashA (s : System) : SystemEvent → Bool
  | .change (.edit _) => decide (s.conf.value.ms.generation.toNat + 1 < 2 ^ 64)
  | .reloadBpf => decide (s.conf.value.ms.entries = [slashARule .redirect 7])
  | _ => true

theorem fits_of_fitsSlashA (s : System) (event : SystemEvent) (h : s.fitsSlashA event = true) :
    s.Fits slashACrates .little event := by
  cases event with
  | change change =>
    cases change with
    | edit edit => exact ⟨trivial, fun _ _ _ => of_decide_eq_true h⟩
    | _ => trivial
  | reloadBpf =>
    exact fun _ _ => ⟨slashARule_fits (of_decide_eq_true h), fun _ other => nomatch other⟩
  | _ => trivial

/-- The service is disabled, and a match is added, while a reload has set up the rules, but
not yet the programs. -/
def disabledEvents : List SystemEvent :=
  [.routesTurn, .reloadWake 70001, .reloadRules, .change .disable,
    .change (.edit (.add (slashARule .redirect 7))), .reloadBpf, .reloadDone] ++ turns 70002

theorem run_settles_disabled :
    ∃ s, Run (step slashACrates .little sampleDnsCrates zeroedPages firstMain)
        (Fits slashACrates .little) plainSystem disabledEvents s ∧
      s.Settled slashACrates sampleDnsCrates ∧ s.service.Installed slashACrates .little ∧
      s.kernel.hasDfa = true := by
  have taken : (disabledEvents.foldlM (fun s event => if fitsSlashA s event then
      step slashACrates .little sampleDnsCrates zeroedPages firstMain s event else none)
        plainSystem).any (fun s => decide (s.Quiet ∧ s.kernel.hasDfa = true)) = true := by
    decide +kernel
  obtain ⟨s, taken, rested⟩ := (Option.any_eq_true _ _).mp taken
  obtain ⟨quiet, hasDfa⟩ := of_decide_eq_true rested
  have run : Run (step slashACrates .little sampleDnsCrates zeroedPages firstMain)
      (Fits slashACrates .little) plainSystem disabledEvents s :=
    .of_foldlM_checked taken fits_of_fitsSlashA
  obtain ⟨settled, installed⟩ :=
    run_settles plainSystem_started (run.relax fun _ _ _ => trivial) quiet
  exact ⟨s, run, settled, installed slashACrates_padsToWord slashACrates_nothingFromNone
    zeroedPages_allocs ⟨fun _ => rfl, rfl, rfl⟩ run, hasDfa⟩

end System

end Rebpf
