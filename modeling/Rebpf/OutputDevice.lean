import Rebpf.Settled

namespace Rebpf

open Lib

def Link.toRoute (link : Link) (gateway : Option UInt32) : Route where
  isUp := link.isUp
  ifindex := link.ifindex
  ifname := link.ifname
  addrs := link.addrs
  gateway := gateway

theorem getLink_eq (net : Net) (links : List Link) (ifname : String) :
    ∃ gateway, getLink net links ifname =
      (links.find? (·.ifname == ifname)).map (·.toRoute gateway) := by
  cases hfind : links.find? (·.ifname == ifname) with
  | none => exact ⟨none, by simp [getLink, hfind]⟩
  | some link => exact ⟨_, by simp [getLink, hfind]; rfl⟩

/-- Taking devices away does not change which device is found, if it is not one of them. -/
theorem find_links_filter {links : List Link} {ifname : String} {ifindex : UInt32}
    (h : ∀ link, links.find? (·.ifname == ifname) = some link → link.ifindex ≠ ifindex) :
    (links.filter (·.ifindex != ifindex)).find? (·.ifname == ifname) =
      links.find? (·.ifname == ifname) := by
  induction links with
  | nil => rfl
  | cons link links ih =>
    by_cases hname : link.ifname = ifname
    · have hne : link.ifindex ≠ ifindex := h link (by simp [hname])
      simp [hname, hne]
    · have hrest : (link :: links).find? (·.ifname == ifname) =
          links.find? (·.ifname == ifname) := by simp [hname]
      rw [hrest] at h ⊢
      rw [← ih h]
      by_cases hne : link.ifindex = ifindex
      · simp [hne]
      · simp [hne, hname]

namespace System

variable {c : Crates} {e : Endian} {dc : DnsCrates} {alloc : Nat → Option (Nat → UInt8)}
  {lookup : Net → List Link → UInt32 → Option FibResult} {s t : System}

def outputDevice (s : System) : Option Link :=
  s.links.find? (·.ifname == s.conf.value.toDev)

/-- `routes_changed` holds the output device as it is, whatever its gateway. -/
def OutputSeen (s : System) : Prop :=
  ∃ gateway, s.routes.value = s.outputDevice.map (·.toRoute gateway)

/-- The message makes `watch_multicast` send `to_changed`. -/
def Tells (s : System) : Notice → Prop
  | .route _ _ => False
  | .link ifindex ifname => ifname = s.conf.value.toDev ∨
      ∃ link, s.routes.value = some link ∧ (link.ifindex = ifindex ∨ link.ifname = ifname)

/-- `watch_routes` has a change to see. -/
def RoutesDue (s : System) : Prop :=
  s.routesLoop.conf ≠ s.conf.version ∨ s.routesLoop.toChanged ≠ s.toChanged.version

/-- The output device is known, or `watch_routes` will look at it again. -/
structure DeviceSound (s : System) : Prop where
  conf : s.routesLoop.conf ≤ s.conf.version
  toChanged : s.routesLoop.toChanged ≤ s.toChanged.version
  known : s.RoutesDue ∨ (∃ notice ∈ s.notices, s.Tells notice) ∨ s.OutputSeen

/-- `watch_routes` takes no turn, and the channels go on from where they were. -/
structure RoutesRests (s t : System) : Prop where
  conf : s.conf.Later t.conf
  toChanged : s.toChanged.Later t.toChanged
  routes : t.routes = s.routes
  routesLoop : t.routesLoop = s.routesLoop

theorem RoutesRests.of_around (h : Around dc s t) : RoutesRests s t :=
  ⟨h.conf, h.toChanged, h.routes, h.routesLoop⟩

/-- Nothing is left to do about the devices but what there was to do before. -/
theorem DeviceSound.rests (h : s.DeviceSound) (rests : RoutesRests s t)
    (known : t.conf.value = s.conf.value →
      (∃ notice ∈ s.notices, s.Tells notice) ∨ s.OutputSeen →
      t.RoutesDue ∨ (∃ notice ∈ t.notices, t.Tells notice) ∨ t.OutputSeen) : t.DeviceSound := by
  have hle := rests.conf.le
  have hle' := rests.toChanged.le
  have hconf := h.conf
  have htoChanged := h.toChanged
  refine ⟨by rw [rests.routesLoop]; omega, by rw [rests.routesLoop]; omega, ?_⟩
  by_cases hdue : t.RoutesDue
  · exact Or.inl hdue
  · simp only [RoutesDue, not_or, not_not, rests.routesLoop] at hdue
    have hsame := rests.conf.same (by omega)
    refine known hsame (h.known.resolve_left ?_)
    rintro (hne | hne) <;> omega

theorem tells_congr (hconf : t.conf.value = s.conf.value) (hroutes : t.routes = s.routes)
    (notice : Notice) : t.Tells notice ↔ s.Tells notice := by
  cases notice with
  | route table oif => exact Iff.rfl
  | link ifindex ifname => simp only [Tells, hconf, hroutes]

/-- The devices stay, and no message is taken from the queue. -/
theorem DeviceSound.keep (h : s.DeviceSound) (rests : RoutesRests s t) {new : List Notice}
    (links : t.links = s.links) (notices : t.notices = s.notices ++ new) : t.DeviceSound := by
  refine h.rests rests fun hconf known => ?_
  rcases known with ⟨notice, hnotice, htells⟩ | ⟨gateway, hseen⟩
  · refine Or.inr (Or.inl ⟨notice, ?_, (tells_congr hconf rests.routes notice).mpr htells⟩)
    rw [notices]
    exact List.mem_append_left _ hnotice
  · refine Or.inr (Or.inr ⟨gateway, ?_⟩)
    rw [rests.routes, hseen, outputDevice, outputDevice, links, hconf]

/-- What becomes of a device is told, or is not about the output. -/
theorem DeviceSound.device (h : s.DeviceSound) (rests : RoutesRests s t) {ifindex : UInt32}
    {ifname : String} (notices : t.notices = s.notices ++ [.link ifindex ifname])
    (links : ∀ name, name ≠ ifname → t.links.find? (·.ifname == name) =
      (s.links.filter (·.ifindex != ifindex)).find? (·.ifname == name)) : t.DeviceSound := by
  refine h.rests rests fun hconf known => ?_
  by_cases htells : t.Tells (.link ifindex ifname)
  · refine Or.inr (Or.inl ⟨_, ?_, htells⟩)
    rw [notices]
    exact List.mem_append_right _ (List.mem_singleton_self _)
  · rcases known with ⟨notice, hnotice, hold⟩ | ⟨gateway, hseen⟩
    · refine Or.inr (Or.inl ⟨notice, ?_, (tells_congr hconf rests.routes notice).mpr hold⟩)
      rw [notices]
      exact List.mem_append_left _ hnotice
    · refine Or.inr (Or.inr ⟨gateway, ?_⟩)
      simp only [Tells, not_or, not_exists, not_and, hconf, rests.routes] at htells
      rw [rests.routes, hseen, outputDevice, outputDevice, hconf, links _ (Ne.symm htells.1),
        find_links_filter]
      intro link hlink
      have hroute : s.routes.value = some (link.toRoute gateway) := by
        rw [hseen, outputDevice, hlink]
        rfl
      exact (htells.2 _ hroute).1

/-- The first message is handled. -/
theorem DeviceSound.handled (h : s.DeviceSound) {notice : Notice} {notices : List Notice}
    (hnotices : s.notices = notice :: notices) :
    (watchMulticast lookup { s with notices } notice).DeviceSound := by
  obtain ⟨defaultRoute, toChanged, hlater, heq⟩ :=
    watchMulticast_eq lookup { s with notices } notice
  have rests : RoutesRests s (watchMulticast lookup { s with notices } notice) := by
    rw [heq]
    exact ⟨.refl _, hlater, rfl, rfl⟩
  refine h.rests rests fun _ known => ?_
  rcases known with ⟨told, htold, htells⟩ | ⟨gateway, hseen⟩
  · rw [hnotices] at htold
    rcases List.mem_cons.mp htold with rfl | htold
    · have hsent : watchMulticast lookup { s with notices } told =
          sendToChanged { s with notices } := by
        cases told with
        | route table oif => exact htells.elim
        | link ifindex ifname =>
          simp only [watchMulticast]
          by_cases hname : ifname = s.conf.value.toDev
          · rw [if_pos hname]
          · obtain ⟨link, hlink, hmatch⟩ := htells.resolve_left hname
            simp only [if_neg hname, hlink, if_pos hmatch]
      rw [hsent]
      have hbelow := h.toChanged
      refine Or.inl (Or.inr ?_)
      show s.routesLoop.toChanged ≠ s.toChanged.version + 1
      omega
    · refine Or.inr (Or.inl ⟨told, ?_, ?_⟩)
      · rw [heq]
        exact htold
      · rw [heq]
        exact (tells_congr rfl rfl told).mpr htells
  · refine Or.inr (Or.inr ⟨gateway, ?_⟩)
    rw [heq]
    exact hseen

theorem DeviceSound.routesTurn (h : s.routesTurn = some t) : t.DeviceSound := by
  obtain ⟨routes, rfl, hroutes⟩ := routesTurn_some h
  refine ⟨Nat.le_refl _, Nat.le_refl _, Or.inr (Or.inr ?_)⟩
  obtain ⟨gateway, hlink⟩ := getLink_eq s.net s.links s.conf.value.toDev
  refine ⟨gateway, Eq.trans ?_ hlink⟩
  rcases hroutes with ⟨rfl, heq, _⟩ | rfl
  · exact heq
  · rfl

theorem deviceSound_step {event : SystemEvent} (h : s.DeviceSound)
    (step : s.step c e dc alloc lookup event = some t) : t.DeviceSound := by
  cases event with
  | routesTurn => exact .routesTurn step
  | reloadWake newMark =>
    obtain ⟨_, _, rfl⟩ := reloadWake_some step
    exact h.keep ⟨.refl _, .refl _, rfl, rfl⟩ rfl (List.append_nil _).symm
  | reloadRules =>
    obtain ⟨newMark, enable, blocker, net, _, _, rfl⟩ := reloadRules_some step
    exact h.keep ⟨.refl _, .refl _, rfl, rfl⟩ rfl (List.append_nil _).symm
  | reloadBpf =>
    obtain ⟨newMark, enable, rules, route, ctx, kernel, _, _, rfl⟩ := reloadBpf_some step
    exact h.keep ⟨.refl _, .refl _, rfl, rfl⟩ rfl (List.append_nil _).symm
  | reloadDone =>
    obtain ⟨_, rfl⟩ := reloadDone_some step
    exact h.keep ⟨.refl _, .refl _, rfl, rfl⟩ rfl (List.append_nil _).symm
  | dnsWake =>
    obtain ⟨_, rfl⟩ := dnsWake_some step
    exact h.keep ⟨.refl _, .refl _, rfl, rfl⟩ rfl (List.append_nil _).symm
  | dnsTurn =>
    obtain ⟨updateCaches, _, rfl⟩ := dnsTurn_some step
    exact h.keep ⟨.refl _, .refl _, rfl, rfl⟩ rfl (List.append_nil _).symm
  | notice =>
    simp only [System.step] at step
    split at step
    next => cases step
    next notice notices hnotices =>
      cases Option.some.inj step
      exact h.handled hnotices
  | linkChanged link =>
    have rests := RoutesRests.of_around (step_around step rfl)
    cases Option.some.inj step
    refine h.device rests rfl fun name hne => ?_
    simp [List.find?_cons_of_neg, hne.symm]
  | linkGone ifindex =>
    have rests := RoutesRests.of_around (step_around step rfl)
    obtain ⟨link, _, step⟩ := Option.bind_eq_some_iff.mp step
    cases Option.some.inj step
    exact h.device rests rfl fun _ _ => rfl
  | notify notice =>
    have rests := RoutesRests.of_around (step_around step rfl)
    cases Option.some.inj step
    exact h.keep rests rfl rfl
  | routeAdded route =>
    have rests := RoutesRests.of_around (step_around step rfl)
    simp only [System.step] at step
    split at step
    next => cases Option.some.inj step; exact h.keep rests rfl rfl
    next => cases step
  | routeDeleted route =>
    have rests := RoutesRests.of_around (step_around step rfl)
    simp only [System.step] at step
    split at step
    next => cases Option.some.inj step; exact h.keep rests rfl rfl
    next => cases step
  | listen =>
    have rests := RoutesRests.of_around (step_around step rfl)
    cases Option.some.inj step
    exact h.keep rests rfl (List.append_nil _).symm
  | _ =>
    have frame := step_frame step
    have hnotices : t.notices = s.notices ++ [] := by rw [frame.notices rfl, List.append_nil]
    exact h.keep (.of_around (step_around step rfl)) (frame.links rfl) hnotices

theorem Started.deviceSound (h : s.Started) : s.DeviceSound where
  conf := by
    rw [h.routesLoop]
    exact h.conf
  toChanged := by
    rw [h.routesLoop]
    exact Nat.le_of_lt h.toChanged
  known := by
    refine Or.inl (Or.inr ?_)
    rw [h.routesLoop]
    exact Nat.ne_of_lt h.toChanged

/-- With every message handled and every change seen, the output is known. -/
theorem DeviceSound.outputSeen (h : s.DeviceSound) (notices : s.notices = []) (quiet : s.Quiet) :
    s.OutputSeen := by
  obtain ⟨hconf, htoChanged⟩ := quiet.routesLoop
  rw [Watch.hasChanged_eq_false] at hconf htoChanged
  rcases h.known with (hne | hne) | ⟨notice, hnotice, _⟩ | hseen
  · exact absurd hconf hne
  · exact absurd htoChanged hne
  · rw [notices] at hnotice
    cases hnotice
  · exact hseen

end System

end Rebpf
