import Rebpf.Netlink

namespace Rebpf

open Lib

variable {c : Crates} {newMark : UInt32} {conf : State} {net net' : Net}

/-- The network configuration once the rules of the mark before are gone. -/
def Net.cleared (oldMark : Option UInt32) (net : Net) : Net :=
  match oldMark with
  | some old => net.clearRules old
  | none => net

/-- The rules of an enabled reload, in the order of the requests. -/
def setupRules (c : Crates) (newMark : UInt32) (conf : State) (link : Route) : List FibRule :=
  link.addrs.map (srcRule newMark) ++ markRule newMark ::
    conf.ms.entries.filterMap (ipv4Rule c newMark) ++
    if conf.config.allowLan then [] else [noLanRule newMark]

def lanRoutes (newMark : UInt32) (routes : List FibRoute) : List FibRoute :=
  (routes.filter fun r => r.table == rtTableMain && decide (1 < r.dst.prefixLen)).map
    ({ · with table := newMark })

def setupRoutes (newMark : UInt32) (conf : State) (link : Route) (routes : List FibRoute) :
    List FibRoute :=
  defaultRoute newMark link ::
    if conf.config.allowLan then lanRoutes newMark (routes ++ [defaultRoute newMark link]) else []

/-- The output of a reload that sets it up. -/
def usable (conf : State) (route : Option Route) : Option Route :=
  route.filter fun link => link.isUp && conf.enable

theorem usable_eq_some {route : Option Route} {link : Route} :
    usable conf route = some link ↔
      route = some link ∧ link.isUp = true ∧ conf.enable = true := by
  simp [usable, Option.filter_eq_some_iff]

theorem usable_disabled (h : conf.enable = false) (route : Option Route) :
    usable conf route = none := by
  rw [usable, Option.filter_eq_none_iff]
  intro link _
  simp [h]

/-- All rules of a reload. -/
def reloadAdds (c : Crates) (newMark : UInt32) (conf : State) (route : Option Route) :
    List FibRule :=
  match usable conf route with
  | some link => setupRules c newMark conf link
  | none =>
    if blockerOf conf route ≠ "" ∧ conf.config.dropEgressWithoutOutput then [dropRule newMark]
    else []

def reloadRoutes (newMark : UInt32) (conf : State) (route : Option Route)
    (routes : List FibRoute) : List FibRoute :=
  match usable conf route with
  | some link => setupRoutes newMark conf link routes
  | none => []

theorem newRule_eq {excl : Bool} {rule : FibRule} (h : net.newRule excl rule = some net') :
    net' = { net with rules := net.rules ++ [rule] } := by
  unfold Net.newRule at h
  split at h
  next => cases h
  next => exact (Option.some.inj h).symm

theorem newRules_eq {α : Type} {excl : Bool} {f : α → FibRule} {xs : List α}
    (h : xs.foldlM (fun net x => net.newRule excl (f x)) net = some net') :
    net' = { net with rules := net.rules ++ xs.map f } := by
  induction xs generalizing net with
  | nil =>
    cases Option.some.inj h
    rw [List.map_nil, List.append_nil]
  | cons x xs ih =>
    rw [List.foldlM_cons] at h
    obtain ⟨mid, hmid, h⟩ := Option.bind_eq_some_iff.mp h
    rw [ih h, newRule_eq hmid, List.map_cons, List.append_assoc, List.singleton_append]

theorem newRoute_eq {route : FibRoute} (h : net.newRoute route = some net') :
    net' = { net with routes := net.routes ++ [route] } := by
  unfold Net.newRoute at h
  split at h
  next => cases h
  next => exact (Option.some.inj h).symm

theorem setupOutput_eq {link : Route} (h : setupOutput c newMark conf link net = some net') :
    net'.rules = net.rules ++ setupRules c newMark conf link ∧
      net'.routes = net.routes ++ setupRoutes newMark conf link net.routes := by
  obtain ⟨net₁, h₁, h⟩ := Option.bind_eq_some_iff.mp h
  obtain ⟨net₂, h₂, h⟩ := Option.bind_eq_some_iff.mp h
  obtain ⟨net₃, h₃, h⟩ := Option.bind_eq_some_iff.mp h
  obtain ⟨net₄, h₄, h⟩ := Option.bind_eq_some_iff.mp h
  have hrules₃ := newRules_eq (f := fun rule => rule) h₃
  have hnet₄ := newRoute_eq h₄
  rw [hrules₃, newRule_eq h₂, newRules_eq h₁, List.map_id'] at hnet₄
  have hlan : net'.rules = net₄.rules ++ (if conf.config.allowLan then [] else [noLanRule newMark]) ∧
      net'.routes = net₄.routes ++
        if conf.config.allowLan then lanRoutes newMark net₄.routes else [] := by
    by_cases hallow : conf.config.allowLan = true
    · simp only [hallow, if_true] at h ⊢
      cases Option.some.inj h
      split <;> exact ⟨(List.append_nil _).symm, rfl⟩
    · simp only [hallow] at h ⊢
      obtain ⟨net₅, h₅, h⟩ := Option.bind_eq_some_iff.mp h
      cases Option.some.inj h
      rw [newRule_eq h₅]
      split <;> exact ⟨rfl, (List.append_nil _).symm⟩
  rw [hlan.1, hlan.2, hnet₄]
  constructor
  · simp [setupRules]
  · simp [setupRoutes]

/-- Every reload clears the mark before and then only adds. -/
theorem reloadRules_eq {oldMark : Option UInt32} {route : Option Route} {enable : Bool}
    {blocker : String} (h : reloadRules c newMark oldMark conf route net = some (enable, blocker, net')) :
    enable = (usable conf route).isSome ∧
      net'.rules = (net.cleared oldMark).rules ++ reloadAdds c newMark conf route ∧
      net'.routes = (net.cleared oldMark).routes ++
        reloadRoutes newMark conf route (net.cleared oldMark).routes := by
  change (match usable conf route with
    | some link => (setupOutput c newMark conf link (net.cleared oldMark)).bind
        fun net => some (true, "", net)
    | none => _) = _ at h
  unfold reloadAdds reloadRoutes
  cases husable : usable conf route with
  | some link =>
    rw [husable] at h
    obtain ⟨net₁, hsetup, h⟩ := Option.bind_eq_some_iff.mp h
    cases Option.some.inj h
    exact ⟨rfl, setupOutput_eq hsetup⟩
  | none =>
    rw [husable] at h
    dsimp only at h ⊢
    split at h
    next hdrop =>
      obtain ⟨net₁, hnew, h⟩ := Option.bind_eq_some_iff.mp h
      cases Option.some.inj h
      rw [if_pos hdrop, newRule_eq hnew]
      exact ⟨rfl, rfl, (List.append_nil _).symm⟩
    next hdrop =>
      cases Option.some.inj h
      rw [if_neg hdrop]
      exact ⟨rfl, (List.append_nil _).symm, (List.append_nil _).symm⟩

end Rebpf
