import Rebpf.DnsServed
import Rebpf.System

namespace Rebpf

open Lib

/-- The steps of the three loops. -/
def SystemEvent.isTurn : SystemEvent → Bool
  | .routesTurn | .reloadWake _ | .reloadRules | .reloadBpf | .reloadDone | .dnsWake | .dnsTurn =>
    true
  | _ => false

/-- The events that change the routes or the rules of the kernel. -/
def SystemEvent.changesNet : SystemEvent → Bool
  | .routeAdded _ | .routeDeleted _ | .reloadRules | .dnsTurn | .callback _ | .sweep _
  | .retire .. => true
  | _ => false

/-- What the kernel announces, and the handling of it. -/
def SystemEvent.isHeard : SystemEvent → Bool
  | .linkChanged _ | .linkGone _ | .routeAdded _ | .routeDeleted _ | .notify _ | .listen
  | .notice => true
  | _ => false

namespace System

variable {c : Crates} {e : Endian} {dc : DnsCrates} {alloc : Nat → Option (Nat → UInt8)}
  {lookup : Net → List Link → UInt32 → Option FibResult} {s t : System}

theorem applyChange_some {change : Change} (h : s.applyChange c e change = some t) :
    ∃ conf, s.conf.Later conf ∧ t = { s with conf } := by
  cases change with
  | edit edit =>
    simp only [applyChange] at h
    obtain ⟨msg, heq⟩ | ⟨ms, heq⟩ | ⟨ms, heq, _⟩ :=
      Edit.apply_cases (c := c) (e := e) edit s.conf.value.ms
    · rw [heq] at h
      cases Option.some.inj h
      exact ⟨s.conf, .refl _, rfl⟩
    · rw [heq] at h
      cases h
    · rw [heq] at h
      cases Option.some.inj h
      exact ⟨_, Watch.later_send _ _, rfl⟩
  | _ =>
    cases Option.some.inj h
    exact ⟨_, Watch.later_send _ _, rfl⟩

/-- Whatever it hears, `watch_multicast` does no more than send on two channels. -/
theorem watchMulticast_eq (lookup : Net → List Link → UInt32 → Option FibResult) (s : System)
    (notice : Notice) :
    ∃ defaultRoute toChanged, s.toChanged.Later toChanged ∧
      s.watchMulticast lookup notice = { s with defaultRoute, toChanged } := by
  cases notice with
  | route table oif =>
    have hupdate : ∃ defaultRoute, (if 0 < s.conf.value.ms.dnsCount then s.updateDefault lookup
        else s) = { s with defaultRoute } := by
      unfold updateDefault
      split
      · dsimp only
        split <;> exact ⟨_, rfl⟩
      · exact ⟨_, rfl⟩
    obtain ⟨defaultRoute, hupdate⟩ := hupdate
    simp only [watchMulticast, hupdate]
    split
    · exact ⟨_, _, .refl _, rfl⟩
    · split
      · exact ⟨_, _, .refl _, rfl⟩
      · split
        · exact ⟨_, _, Watch.later_send _ _, rfl⟩
        · exact ⟨_, _, .refl _, rfl⟩
  | link ifindex ifname =>
    simp only [watchMulticast]
    split
    · exact ⟨_, _, Watch.later_send _ _, rfl⟩
    · split
      · exact ⟨_, _, .refl _, rfl⟩
      · split
        · exact ⟨_, _, Watch.later_send _ _, rfl⟩
        · exact ⟨_, _, .refl _, rfl⟩

theorem callback_some {now : Nat} (h : s.callback dc now = some t) :
    ∃ data ring, s.ring = data :: ring ∧
      ((∃ f, DnsState.parse dc s.dnsCtx now data s.dns s.net = .error f ∧ t = { s with ring }) ∨
        ∃ dns net, DnsState.parse dc s.dnsCtx now data s.dns s.net = .ok (dns, net) ∧
          t = { s with ring, dns, net }) := by
  unfold callback at h
  split at h
  next => cases h
  next data ring hring =>
    refine ⟨data, ring, hring, ?_⟩
    split at h
    next dns net hparse =>
      cases Option.some.inj h
      exact Or.inr ⟨dns, net, hparse, rfl⟩
    next f hparse =>
      cases Option.some.inj h
      exact Or.inl ⟨f, hparse, rfl⟩

/-- What the loops find changed by what happens outside of them. -/
structure Around (dc : DnsCrates) (s t : System) : Prop where
  conf : s.conf.Later t.conf
  toChanged : s.toChanged.Later t.toChanged
  doReload : s.doReload.Later t.doReload
  routes : t.routes = s.routes
  routesLoop : t.routesLoop = s.routesLoop
  reloadLoop : t.reloadLoop = s.reloadLoop
  dnsLoop : t.dnsLoop = s.dnsLoop
  mark : t.mark = s.mark
  ctx : t.ctx = s.ctx
  kernel : t.kernel = s.kernel
  used : t.used = s.used
  dnsTable : t.dnsTable = s.dnsTable
  served : DnsState.Served dc s.dns t.dns

theorem Around.of_dns {ring : List (Except String DnsMessage)} {dns : DnsState} {net : Net}
    (h : DnsState.Served dc s.dns dns) : Around dc s { s with ring, dns, net } :=
  ⟨.refl _, .refl _, .refl _, rfl, rfl, rfl, rfl, rfl, rfl, rfl, rfl, rfl, h⟩

theorem Around.of_kernel {defaultRoute : Watch (Option Route)} {net : Net} {links : List Link}
    {notices : List Notice} {ring : List (Except String DnsMessage)} :
    Around dc s { s with defaultRoute, net, links, notices, ring } :=
  ⟨.refl _, .refl _, .refl _, rfl, rfl, rfl, rfl, rfl, rfl, rfl, rfl, rfl, .refl _⟩

theorem step_around {event : SystemEvent} (h : s.step c e dc alloc lookup event = some t)
    (outside : event.isTurn = false) : Around dc s t := by
  cases event with
  | change change =>
    obtain ⟨conf, hlater, rfl⟩ := applyChange_some h
    exact ⟨hlater, .refl _, .refl _, rfl, rfl, rfl, rfl, rfl, rfl, rfl, rfl, rfl, .refl _⟩
  | forceReload =>
    cases Option.some.inj h
    exact ⟨.refl _, .refl _, Watch.later_send _ _, rfl, rfl, rfl, rfl, rfl, rfl, rfl, rfl, rfl,
      .refl _⟩
  | linkChanged link =>
    cases Option.some.inj h
    exact .of_kernel
  | linkGone ifindex =>
    obtain ⟨link, _, h⟩ := Option.bind_eq_some_iff.mp h
    cases Option.some.inj h
    exact .of_kernel
  | routeAdded route =>
    simp only [step] at h
    split at h
    · cases Option.some.inj h
      exact .of_kernel
    · cases h
  | routeDeleted route =>
    simp only [step] at h
    split at h
    · cases Option.some.inj h
      exact .of_kernel
    · cases h
  | notify notice =>
    cases Option.some.inj h
    exact .of_kernel
  | listen =>
    cases Option.some.inj h
    exact .of_kernel
  | notice =>
    simp only [step] at h
    split at h
    next => cases h
    next notice notices _ =>
      obtain ⟨defaultRoute, toChanged, hlater, heq⟩ :=
        watchMulticast_eq lookup { s with notices } notice
      rw [heq] at h
      cases Option.some.inj h
      exact ⟨.refl _, hlater, .refl _, rfl, rfl, rfl, rfl, rfl, rfl, rfl, rfl, rfl, .refl _⟩
  | packet data =>
    simp only [step] at h
    split at h
    · cases Option.some.inj h
      exact .of_kernel
    · cases Option.some.inj h
      exact .of_kernel
  | callback now =>
    obtain ⟨data, ring, _, ⟨_, _, rfl⟩ | ⟨dns, net, hparse, rfl⟩⟩ := callback_some h
    · exact .of_kernel
    · exact .of_dns (DnsState.parse_served hparse)
  | sweep now =>
    cases Option.some.inj h
    exact .of_dns (DnsState.watchDnsTtl_served _ _)
  | retire name dest =>
    cases Option.some.inj h
    exact .of_dns (DnsState.removeRecords_served _ _ _ _)
  | _ => cases outside

theorem routesTurn_some (h : s.routesTurn = some t) :
    ∃ routes, t = { s with
        routes, routesLoop := { conf := s.conf.version, toChanged := s.toChanged.version } } ∧
      ((routes = s.routes ∧ s.routes.value = getLink s.net s.links s.conf.value.toDev ∧
          s.routes.value.isSome) ∨
        routes = s.routes.send (getLink s.net s.links s.conf.value.toDev)) := by
  unfold routesTurn at h
  split at h
  next =>
    dsimp only at h
    split at h
    next newRoute hlink =>
      split at h
      next heq =>
        cases Option.some.inj h
        exact ⟨_, rfl, Or.inl ⟨rfl, heq.trans hlink.symm, by rw [heq]; rfl⟩⟩
      next =>
        cases Option.some.inj h
        exact ⟨_, rfl, Or.inr (by rw [hlink])⟩
    next hlink =>
      cases Option.some.inj h
      exact ⟨_, rfl, Or.inr (by rw [hlink])⟩
  next => cases h

theorem reloadWake_some {newMark : UInt32} (h : s.reloadWake newMark = some t) :
    s.reloadLoop.phase = .idle ∧ isRandTable newMark = true ∧
      t = { s with reloadLoop :=
        { conf := s.conf.version, routes := s.routes.version, doReload := s.doReload.version
          phase := .woken newMark } } := by
  simp only [reloadWake] at h
  split at h
  next hready =>
    cases Option.some.inj h
    exact ⟨hready.1, hready.2.1, rfl⟩
  next => cases h

theorem reloadRules_some (h : s.reloadRules c = some t) :
    ∃ newMark enable blocker net, s.reloadLoop.phase = .woken newMark ∧
      Rebpf.reloadRules c newMark s.mark s.conf.value s.routes.value s.net =
        some (enable, blocker, net) ∧
      t = { s with
        mark := some newMark
        net
        reloadLoop := { s.reloadLoop with
          phase := .ruled newMark enable s.conf.value s.routes.value } } := by
  unfold reloadRules at h
  split at h
  next newMark hphase =>
    obtain ⟨⟨enable, blocker, net⟩, hrules, h⟩ := Option.bind_eq_some_iff.mp h
    cases Option.some.inj h
    exact ⟨newMark, enable, blocker, net, hphase, hrules, rfl⟩
  next => cases h

theorem reloadBpf_some (h : s.reloadBpf c e alloc = some t) :
    ∃ newMark enable rules route ctx kernel,
      s.reloadLoop.phase = .ruled newMark enable rules route ∧
      bpfReload c e alloc s.ctx s.conf.value.ms enable newMark s.kernel = some (ctx, kernel) ∧
      t = { s with
        ctx, kernel
        used := some { rules, route, bpf := s.conf.value }
        reloadLoop := { s.reloadLoop with phase := .refreshing } } := by
  unfold reloadBpf at h
  split at h
  next newMark enable rules route hphase =>
    obtain ⟨⟨ctx, kernel⟩, hbpf, h⟩ := Option.bind_eq_some_iff.mp h
    cases Option.some.inj h
    exact ⟨newMark, enable, rules, route, ctx, kernel, hphase, hbpf, rfl⟩
  next => cases h

theorem reloadDone_some (h : s.reloadDone = some t) :
    s.reloadLoop.phase = .refreshing ∧
      t = { s with reloadLoop := { s.reloadLoop with phase := .idle } } := by
  unfold reloadDone at h
  split at h
  next hphase =>
    cases Option.some.inj h
    exact ⟨hphase, rfl⟩
  next => cases h

theorem dnsWake_some (h : s.dnsWake = some t) :
    s.dnsLoop.woken = none ∧ t = { s with dnsLoop :=
      { conf := s.conf.version, routes := s.routes.version, defaultRoute := s.defaultRoute.version
        woken := some (s.conf.hasChanged s.dnsLoop.conf) } } := by
  simp only [dnsWake] at h
  split at h
  next hready =>
    cases Option.some.inj h
    exact ⟨hready.1, rfl⟩
  next => cases h

theorem dnsTurn_some (h : s.dnsTurn c dc = some t) :
    ∃ updateCaches, s.dnsLoop.woken = some updateCaches ∧
      t = { s with
        dns := (DnsState.watchDnsRoutes c dc s.dnsCtx updateCaches s.dns s.net).1
        net := (DnsState.watchDnsRoutes c dc s.dnsCtx updateCaches s.dns s.net).2
        dnsLoop := { s.dnsLoop with woken := none } } := by
  unfold dnsTurn at h
  split at h
  next updateCaches hwoken =>
    cases Option.some.inj h
    exact ⟨updateCaches, hwoken, rfl⟩
  next => cases h

/-- What a step leaves as it is. -/
structure Frame (event : SystemEvent) (s t : System) : Prop where
  dnsTable : t.dnsTable = s.dnsTable
  net : event.changesNet = false → t.net = s.net
  notices : event.isHeard = false → t.notices = s.notices
  links : event.isHeard = false → t.links = s.links
  defaultRoute : event.isHeard = false → t.defaultRoute = s.defaultRoute

theorem step_frame {event : SystemEvent} (h : s.step c e dc alloc lookup event = some t) :
    Frame event s t := by
  cases event with
  | change change =>
    obtain ⟨conf, _, rfl⟩ := applyChange_some h
    exact ⟨rfl, fun _ => rfl, fun _ => rfl, fun _ => rfl, fun _ => rfl⟩
  | linkGone ifindex =>
    obtain ⟨link, _, h⟩ := Option.bind_eq_some_iff.mp h
    cases Option.some.inj h
    exact ⟨rfl, fun _ => rfl, nofun, nofun, nofun⟩
  | routeAdded route =>
    simp only [step] at h
    split at h
    next =>
      cases Option.some.inj h
      exact ⟨rfl, nofun, nofun, nofun, nofun⟩
    next => cases h
  | routeDeleted route =>
    simp only [step] at h
    split at h
    next =>
      cases Option.some.inj h
      exact ⟨rfl, nofun, nofun, nofun, nofun⟩
    next => cases h
  | notice =>
    simp only [step] at h
    split at h
    next => cases h
    next notice notices _ =>
      obtain ⟨defaultRoute, toChanged, _, heq⟩ :=
        watchMulticast_eq lookup { s with notices } notice
      rw [heq] at h
      cases Option.some.inj h
      exact ⟨rfl, fun _ => rfl, nofun, nofun, nofun⟩
  | routesTurn =>
    obtain ⟨routes, rfl, _⟩ := routesTurn_some h
    exact ⟨rfl, fun _ => rfl, fun _ => rfl, fun _ => rfl, fun _ => rfl⟩
  | reloadWake newMark =>
    obtain ⟨_, _, rfl⟩ := reloadWake_some h
    exact ⟨rfl, fun _ => rfl, fun _ => rfl, fun _ => rfl, fun _ => rfl⟩
  | reloadRules =>
    obtain ⟨newMark, enable, blocker, net, _, _, rfl⟩ := reloadRules_some h
    exact ⟨rfl, nofun, fun _ => rfl, fun _ => rfl, fun _ => rfl⟩
  | reloadBpf =>
    obtain ⟨newMark, enable, rules, route, ctx, kernel, _, _, rfl⟩ := reloadBpf_some h
    exact ⟨rfl, fun _ => rfl, fun _ => rfl, fun _ => rfl, fun _ => rfl⟩
  | reloadDone =>
    obtain ⟨_, rfl⟩ := reloadDone_some h
    exact ⟨rfl, fun _ => rfl, fun _ => rfl, fun _ => rfl, fun _ => rfl⟩
  | dnsWake =>
    obtain ⟨_, rfl⟩ := dnsWake_some h
    exact ⟨rfl, fun _ => rfl, fun _ => rfl, fun _ => rfl, fun _ => rfl⟩
  | dnsTurn =>
    obtain ⟨updateCaches, _, rfl⟩ := dnsTurn_some h
    exact ⟨rfl, nofun, fun _ => rfl, fun _ => rfl, fun _ => rfl⟩
  | packet data =>
    simp only [step] at h
    split at h
    · cases Option.some.inj h
      exact ⟨rfl, fun _ => rfl, fun _ => rfl, fun _ => rfl, fun _ => rfl⟩
    · cases Option.some.inj h
      exact ⟨rfl, fun _ => rfl, fun _ => rfl, fun _ => rfl, fun _ => rfl⟩
  | callback now =>
    obtain ⟨data, ring, _, ⟨_, _, rfl⟩ | ⟨dns, net, _, rfl⟩⟩ := callback_some h
    · exact ⟨rfl, nofun, fun _ => rfl, fun _ => rfl, fun _ => rfl⟩
    · exact ⟨rfl, nofun, fun _ => rfl, fun _ => rfl, fun _ => rfl⟩
  | sweep now =>
    cases Option.some.inj h
    exact ⟨rfl, nofun, fun _ => rfl, fun _ => rfl, fun _ => rfl⟩
  | retire name dest =>
    cases Option.some.inj h
    exact ⟨rfl, nofun, fun _ => rfl, fun _ => rfl, fun _ => rfl⟩
  | forceReload =>
    cases Option.some.inj h
    exact ⟨rfl, fun _ => rfl, fun _ => rfl, fun _ => rfl, fun _ => rfl⟩
  | linkChanged link =>
    cases Option.some.inj h
    exact ⟨rfl, fun _ => rfl, nofun, nofun, nofun⟩
  | notify notice =>
    cases Option.some.inj h
    exact ⟨rfl, fun _ => rfl, nofun, nofun, nofun⟩
  | listen =>
    cases Option.some.inj h
    exact ⟨rfl, fun _ => rfl, nofun, nofun, nofun⟩

/-- Only a call of a client changes the state. -/
theorem step_conf {event : SystemEvent} (h : s.step c e dc alloc lookup event = some t) :
    t.conf = s.conf ∨ ∃ change, event = .change change ∧ s.applyChange c e change = some t := by
  cases event with
  | change change => exact Or.inr ⟨change, rfl, h⟩
  | linkGone ifindex =>
    obtain ⟨link, _, h⟩ := Option.bind_eq_some_iff.mp h
    cases Option.some.inj h
    exact Or.inl rfl
  | routeAdded route | routeDeleted route | packet data =>
    simp only [step] at h
    split at h <;> cases h
    all_goals exact Or.inl rfl
  | notice =>
    simp only [step] at h
    split at h
    next => cases h
    next notice notices _ =>
      obtain ⟨defaultRoute, toChanged, _, heq⟩ :=
        watchMulticast_eq lookup { s with notices } notice
      rw [heq] at h
      cases Option.some.inj h
      exact Or.inl rfl
  | routesTurn =>
    obtain ⟨routes, rfl, _⟩ := routesTurn_some h
    exact Or.inl rfl
  | reloadWake newMark =>
    obtain ⟨_, _, rfl⟩ := reloadWake_some h
    exact Or.inl rfl
  | reloadRules =>
    obtain ⟨_, _, _, _, _, _, rfl⟩ := reloadRules_some h
    exact Or.inl rfl
  | reloadBpf =>
    obtain ⟨_, _, _, _, _, _, _, _, rfl⟩ := reloadBpf_some h
    exact Or.inl rfl
  | reloadDone =>
    obtain ⟨_, rfl⟩ := reloadDone_some h
    exact Or.inl rfl
  | dnsWake =>
    obtain ⟨_, rfl⟩ := dnsWake_some h
    exact Or.inl rfl
  | dnsTurn =>
    obtain ⟨_, _, rfl⟩ := dnsTurn_some h
    exact Or.inl rfl
  | callback now =>
    obtain ⟨data, ring, _, ⟨_, _, rfl⟩ | ⟨dns, net, _, rfl⟩⟩ := callback_some h
    · exact Or.inl rfl
    · exact Or.inl rfl
  | _ =>
    cases Option.some.inj h
    exact Or.inl rfl

end System

end Rebpf
