import Rebpf.MarkCoverage

namespace Rebpf

open Lib

/-- The rule is for every IPv4 packet with the mark. -/
def FibRule.Takes (mark : UInt32) (rule : FibRule) : Prop :=
  rule.src = none ∧ rule.dst = none ∧ rule.fwmark = some mark ∧ rule.fwmask = none

/-- What carries the mark is sent to a table with the output's default route, or nowhere. -/
def Net.Guards (net : Net) (mark : UInt32) (link : Route) : Prop :=
  ∃ rule ∈ net.rules, rule.Takes mark ∧ (rule.action = .unreachable ∨
    rule.action = .toTbl ∧ ∃ table, rule.table = some table ∧ defaultRoute table link ∈ net.routes)

/-- The mark's own rule and the default route of its own table are there, and what ends the
rules when allow_lan is off. -/
structure Net.Carries (net : Net) (mark : UInt32) (conf : State) (link : Route) : Prop where
  rule : markRule mark ∈ net.rules
  route : defaultRoute mark link ∈ net.routes
  noLan : conf.config.allowLan = false → noLanRule mark ∈ net.rules

theorem Net.guards_of_rule {net : Net} {mark : UInt32} {link : Route}
    (rule : markRule mark ∈ net.rules) (route : defaultRoute mark link ∈ net.routes) :
    net.Guards mark link :=
  ⟨markRule mark, rule, ⟨rfl, rfl, rfl, rfl⟩, Or.inr ⟨rfl, mark, rfl, route⟩⟩

theorem Net.Carries.guards {net : Net} {mark : UInt32} {conf : State} {link : Route}
    (h : net.Carries mark conf link) : net.Guards mark link :=
  Net.guards_of_rule h.rule h.route

theorem Net.guards_of_noLan {net : Net} {mark : UInt32} (link : Route)
    (noLan : noLanRule mark ∈ net.rules) : net.Guards mark link :=
  ⟨noLanRule mark, noLan, ⟨rfl, rfl, rfl, rfl⟩, Or.inl rfl⟩

namespace NetRequest

/-- The requests of `clear_rules`. -/
def Clears : NetRequest → Prop
  | .dumpTable _ | .delRoute _ _ | .delRules _ _ | .delNat _ => True
  | _ => False

/-- Those of its requests that are about routes. -/
def OfRoutes : NetRequest → Prop
  | .dumpTable _ | .delRoute _ _ => True
  | _ => False

/-- The requests that set an iteration up. -/
def Adds : NetRequest → Prop
  | .newRule _ _ | .newRoute _ | .dumpMain _ | .cloneRoute _ | .newNat _ => True
  | _ => False

variable {request : NetRequest} {net net' : Net} {todo todo' : List NetRequest}

theorem Clears.exec (h : request.Clears) (taken : request.exec net todo = some (net', todo')) :
    (∀ route ∈ net'.routes, route ∈ net.routes) ∧
      ((∀ r ∈ todo, r.Clears) → ∀ r ∈ todo', r.Clears) := by
  cases request with
  | dumpTable table =>
    cases Option.some.inj taken
    refine ⟨fun _ hroute => hroute, fun hall r hr => ?_⟩
    rcases List.mem_append.mp hr with hr | hr
    · obtain ⟨_, _, rfl⟩ := List.mem_map.mp hr
      trivial
    · exact hall r hr
  | delRoute table dst =>
    cases Option.some.inj taken
    exact ⟨fun _ hroute => (List.mem_filter.mp hroute).1, fun hall => hall⟩
  | delRules test turns =>
    cases turns with
    | zero =>
      cases Option.some.inj taken
      exact ⟨fun _ hroute => hroute, fun hall => hall⟩
    | succ turns =>
      simp only [NetRequest.exec] at taken
      split at taken
      next =>
        cases Option.some.inj taken
        refine ⟨fun _ hroute => hroute, fun hall r hr => ?_⟩
        rcases List.mem_cons.mp hr with rfl | hr
        · trivial
        · exact hall r hr
      next =>
        cases Option.some.inj taken
        exact ⟨fun _ hroute => hroute, fun hall => hall⟩
  | delNat mark =>
    cases Option.some.inj taken
    exact ⟨fun _ hroute => hroute, fun hall => hall⟩
  | _ => cases h

theorem OfRoutes.exec (h : request.OfRoutes) (taken : request.exec net todo = some (net', todo')) :
    net'.rules = net.rules ∧ ∃ more, (∀ r ∈ more, OfRoutes r) ∧ todo' = more ++ todo := by
  cases request with
  | dumpTable table =>
    cases Option.some.inj taken
    refine ⟨rfl, _, fun r hr => ?_, rfl⟩
    obtain ⟨_, _, rfl⟩ := List.mem_map.mp hr
    trivial
  | delRoute table dst =>
    cases Option.some.inj taken
    exact ⟨rfl, [], nofun, rfl⟩
  | _ => cases h

/-- A loop of deletions goes on with fewer turns, or is over. -/
theorem delRules_left {test : FibRule → Bool} {turns : Nat}
    (taken : exec net todo (.delRules test turns) = some (net', todo')) :
    todo' = todo ∨ ∃ left < turns, todo' = .delRules test left :: todo := by
  cases turns with
  | zero =>
    cases Option.some.inj taken
    exact Or.inl rfl
  | succ turns =>
    simp only [exec] at taken
    split at taken
    · cases Option.some.inj taken
      exact Or.inr ⟨turns, Nat.lt_succ_self turns, rfl⟩
    · cases Option.some.inj taken
      exact Or.inl rfl

/-- What a request that adds makes of the configuration and of the requests left. -/
structure Added (request : NetRequest) (net net' : Net) (todo todo' : List NetRequest) : Prop where
  rules : ∀ rule ∈ net.rules, rule ∈ net'.rules
  routes : ∀ route ∈ net.routes, route ∈ net'.routes
  rule : ∀ excl rule, request = .newRule excl rule → rule ∈ net'.rules
  route : ∀ route, request = .newRoute route → route ∈ net'.routes
  left : ∀ r ∈ todo, r ∈ todo'
  adds : (∀ r ∈ todo, r.Adds) → ∀ r ∈ todo', r.Adds

theorem Adds.exec (h : request.Adds) (taken : request.exec net todo = some (net', todo')) :
    request.Added net net' todo todo' := by
  cases request with
  | newRule excl rule =>
    obtain ⟨mid, hnew, taken⟩ := Option.map_eq_some_iff.mp taken
    cases taken
    rw [newRule_eq hnew]
    refine ⟨fun _ hrule => List.mem_append_left _ hrule, fun _ hroute => hroute, ?_, ?_,
      fun _ hr => hr, fun hall => hall⟩
    · rintro _ _ ⟨⟩
      exact List.mem_append_right _ (List.mem_singleton_self _)
    · rintro _ ⟨⟩
  | newRoute route =>
    obtain ⟨mid, hnew, taken⟩ := Option.map_eq_some_iff.mp taken
    cases taken
    rw [newRoute_eq hnew]
    refine ⟨fun _ hrule => hrule, fun _ hroute => List.mem_append_left _ hroute, ?_, ?_,
      fun _ hr => hr, fun hall => hall⟩
    · rintro _ _ ⟨⟩
    · rintro _ ⟨⟩
      exact List.mem_append_right _ (List.mem_singleton_self _)
  | dumpMain newMark =>
    cases Option.some.inj taken
    refine ⟨fun _ hrule => hrule, fun _ hroute => hroute, ?_, ?_,
      fun _ hr => List.mem_append_right _ hr, fun hall r hr => ?_⟩
    · rintro _ _ ⟨⟩
    · rintro _ ⟨⟩
    · rcases List.mem_append.mp hr with hr | hr
      · obtain ⟨_, _, rfl⟩ := List.mem_map.mp hr
        trivial
      · exact hall r hr
  | cloneRoute route =>
    cases Option.some.inj taken
    refine ⟨fun _ hrule => hrule, fun _ hroute => List.mem_append_left _ hroute, ?_, ?_,
      fun _ hr => hr, fun hall => hall⟩
    · rintro _ _ ⟨⟩
    · rintro _ ⟨⟩
  | newNat rule =>
    cases Option.some.inj taken
    refine ⟨fun _ hrule => hrule, fun _ hroute => hroute, ?_, ?_, fun _ hr => hr,
      fun hall => hall⟩
    · rintro _ _ ⟨⟩
    · rintro _ ⟨⟩
  | _ => cases h

end NetRequest

/-- What is not there yet of the mark's rules and default route is still to be added. -/
structure Planned (mark : UInt32) (conf : State) (link : Route) (net : Net)
    (todo : List NetRequest) : Prop where
  rule : markRule mark ∈ net.rules ∨ ∃ excl, .newRule excl (markRule mark) ∈ todo
  route : defaultRoute mark link ∈ net.routes ∨ .newRoute (defaultRoute mark link) ∈ todo
  noLan : conf.config.allowLan = false →
    noLanRule mark ∈ net.rules ∨ ∃ excl, .newRule excl (noLanRule mark) ∈ todo
  adds : ∀ r ∈ todo, r.Adds

/-- As long as the default route of the table that is cleared is there, so is the rule:
the routes are deleted first. -/
inductive Clearing (mark : UInt32) (link : Route) : Net → List NetRequest → Prop
  | whole {net} : markRule mark ∈ net.rules → defaultRoute mark link ∈ net.routes →
      Clearing mark link net (clearRequests mark)
  | routes {net} {dsts : List Ipv4Net} {rest} : markRule mark ∈ net.rules →
      (defaultRoute mark link ∈ net.routes → ⟨0, 0⟩ ∈ dsts) → (∀ r ∈ rest, NetRequest.Clears r) →
      Clearing mark link net (dsts.map (.delRoute mark) ++ rest)
  | gone {net todo} : defaultRoute mark link ∉ net.routes → (∀ r ∈ todo, NetRequest.Clears r) →
      Clearing mark link net todo

/-- Where `clear_rules` stands: the rule that ends the mark's rules is there until it begins
to delete the rules to the mark's table. -/
inductive Barring (mark : UInt32) : Net → List NetRequest → Prop
  | routes {net reqs} : noLanRule mark ∈ net.rules → (∀ r ∈ reqs, NetRequest.OfRoutes r) →
      Barring mark net (reqs ++ (clearRequests mark).tail)
  | toTable {net turns} : turns < 1000 →
      Barring mark net (.delRules (fun r => r.table == some mark) turns ::
        (clearRequests mark).drop 2)
  | marked {net turns} :
      Barring mark net [.delRules (fun r => r.fwmark == some mark) turns, .delNat mark]
  | nat {net} : Barring mark net [.delNat mark]
  | done {net} : Barring mark net []

section

variable {mark : UInt32} {conf : State} {link : Route} {net net' : Net} {request : NetRequest}
  {todo todo' : List NetRequest}

theorem NetRequest.Added.newRule {rule : FibRule} (added : request.Added net net' todo todo')
    (h : rule ∈ net.rules ∨ ∃ excl, .newRule excl rule ∈ request :: todo) :
    rule ∈ net'.rules ∨ ∃ excl, .newRule excl rule ∈ todo' := by
  obtain hold | ⟨excl, hleft⟩ := h
  · exact Or.inl (added.rules _ hold)
  · obtain heq | hrest := List.mem_cons.mp hleft
    · exact Or.inl (added.rule excl _ heq.symm)
    · exact Or.inr ⟨excl, added.left _ hrest⟩

theorem Planned.exec (h : Planned mark conf link net (request :: todo))
    (taken : request.exec net todo = some (net', todo')) : Planned mark conf link net' todo' := by
  have added := (h.adds request List.mem_cons_self).exec taken
  refine ⟨added.newRule h.rule, ?_, fun off => added.newRule (h.noLan off),
    added.adds fun r hr => h.adds r (List.mem_cons_of_mem _ hr)⟩
  · obtain hold | hleft := h.route
    · exact Or.inl (added.routes _ hold)
    · obtain heq | hrest := List.mem_cons.mp hleft
      · exact Or.inl (added.route _ heq.symm)
      · exact Or.inr (added.left _ hrest)

theorem Planned.carries (h : Planned mark conf link net []) : net.Carries mark conf link :=
  ⟨h.rule.resolve_right nofun, h.route.resolve_right nofun,
    fun off => (h.noLan off).resolve_right nofun⟩

theorem planned_requests {c : Crates} {plan : Plan}
    (husable : usable plan.conf plan.route = some link) (net : Net) :
    Planned plan.newMark plan.conf link net (plan.requests c) := by
  rw [Plan.requests, husable]
  refine ⟨Or.inr ⟨true, ?_⟩, Or.inr ?_, fun off => Or.inr ⟨true, ?_⟩, fun r hr => ?_⟩
  · simp [setupRequests]
  · simp [setupRequests]
  · simp [setupRequests, off]
  · simp only [setupRequests, List.mem_append, List.mem_cons, List.mem_map] at hr
    obtain (⟨_, _, rfl⟩ | rfl | ⟨_, _, rfl⟩) | rfl | rfl | hr := hr
    · trivial
    · trivial
    · trivial
    · trivial
    · split <;> trivial
    · split at hr
      · cases List.mem_singleton.mp hr
        trivial
      · cases hr

theorem Clearing.guards (h : Clearing mark link net todo)
    (route : defaultRoute mark link ∈ net.routes) : net.Guards mark link := by
  cases h with
  | whole hrule => exact Net.guards_of_rule hrule route
  | routes hrule => exact Net.guards_of_rule hrule route
  | gone hgone => exact absurd route hgone

theorem Clearing.exec (h : Clearing mark link net (request :: todo))
    (taken : request.exec net todo = some (net', todo')) : Clearing mark link net' todo' := by
  generalize hall : request :: todo = all at h
  cases h with
  | whole hrule =>
    obtain ⟨rfl, rfl⟩ := List.cons.inj hall
    cases Option.some.inj taken
    have hmap : (net.routes.filter (·.table == mark)).map (NetRequest.delRoute mark ·.dst) =
        ((net.routes.filter (·.table == mark)).map (·.dst)).map (.delRoute mark) := by
      rw [List.map_map]
      rfl
    rw [hmap]
    refine .routes hrule (fun hroute => ?_) (by simp [NetRequest.Clears])
    exact List.mem_map.mpr ⟨_, List.mem_filter.mpr ⟨hroute, by simp [defaultRoute]⟩, rfl⟩
  | @routes dsts rest hrule hleft hrest =>
    cases dsts with
    | nil =>
      have hclears : ∀ r ∈ request :: todo, r.Clears := by
        rw [hall]
        exact hrest
      have hgone : defaultRoute mark link ∉ net.routes := fun hroute => by cases hleft hroute
      obtain ⟨hsub, hkeep⟩ := (hclears request List.mem_cons_self).exec taken
      exact .gone (fun hroute => hgone (hsub _ hroute))
        (hkeep fun r hr => hclears r (List.mem_cons_of_mem _ hr))
    | cons dst dsts =>
      obtain ⟨rfl, rfl⟩ := List.cons.inj hall
      cases Option.some.inj taken
      refine .routes hrule (fun hroute => ?_) hrest
      obtain ⟨hold, hkept⟩ := List.mem_filter.mp hroute
      refine ((List.mem_cons.mp (hleft hold)).resolve_left fun heq => ?_)
      rw [← heq] at hkept
      simp [defaultRoute] at hkept
  | gone hgone hclears =>
    subst hall
    obtain ⟨hsub, hkeep⟩ := (hclears request List.mem_cons_self).exec taken
    exact .gone (fun hroute => hgone (hsub _ hroute))
      (hkeep fun r hr => hclears r (List.mem_cons_of_mem _ hr))

theorem Barring.exec (h : Barring mark net (request :: todo))
    (taken : request.exec net todo = some (net', todo')) : Barring mark net' todo' := by
  generalize hall : request :: todo = all at h
  cases h with
  | @routes reqs noLan ofRoutes =>
    cases reqs with
    | nil =>
      obtain ⟨rfl, rfl⟩ := List.cons.inj hall
      obtain rfl | ⟨left, below, rfl⟩ := NetRequest.delRules_left taken
      · exact .marked
      · exact .toTable below
    | cons first reqs =>
      obtain ⟨rfl, rfl⟩ := List.cons.inj hall
      obtain ⟨hrules, more, hmore, rfl⟩ := (ofRoutes _ List.mem_cons_self).exec taken
      change Barring mark net' (more ++ (reqs ++ (clearRequests mark).tail))
      rw [← List.append_assoc]
      refine .routes (hrules ▸ noLan) fun r hr => ?_
      obtain hr | hr := List.mem_append.mp hr
      · exact hmore r hr
      · exact ofRoutes r (List.mem_cons_of_mem _ hr)
  | @toTable turns below =>
    obtain ⟨rfl, rfl⟩ := List.cons.inj hall
    obtain rfl | ⟨left, less, rfl⟩ := NetRequest.delRules_left taken
    · exact .marked
    · exact .toTable (less.trans below)
  | marked =>
    obtain ⟨rfl, rfl⟩ := List.cons.inj hall
    obtain rfl | ⟨left, _, rfl⟩ := NetRequest.delRules_left taken
    · exact .nat
    · exact .marked
  | nat =>
    obtain ⟨rfl, rfl⟩ := List.cons.inj hall
    cases Option.some.inj taken
    exact .done
  | done => cases hall

theorem Barring.noLan (h : Barring mark net todo) (before : (clearRequests mark).tail <:+ todo) :
    noLanRule mark ∈ net.rules := by
  cases h with
  | routes noLan => exact noLan
  | @toTable turns below =>
    obtain ⟨hturns, _⟩ := List.cons.inj (before.eq_of_length rfl)
    cases hturns
    exact absurd below (by decide)
  | marked | nat | done =>
    have hlength := before.length_le
    simp [clearRequests] at hlength

end

/-- No socket carries the mark, and none will get it by the present CONFIG. -/
structure Daemon.Unused (d : Daemon) (mark : UInt32) : Prop where
  sockets : ∀ sock ∈ d.sockets, sock.mark ≠ mark
  config : d.kernel.config.mark ≠ mark
  zero : 0 ≠ mark

namespace WatchReload

variable {c : Crates} {e : Endian} {alloc : Nat → Option (Nat → UInt8)}
  {programs : TaskId → Option Dentry × UInt32} {s t : WatchReload} {mark : UInt32} {link : Route}

/-- The marks drawn are new. -/
def DrawsNew (s : WatchReload) : WatchReloadEvent → Prop
  | .start newMark => (∀ sock ∈ s.daemon.sockets, sock.mark ≠ newMark) ∧
      s.daemon.kernel.config.mark ≠ newMark
  | _ => True

/-- The last reload set the output up from this configuration. -/
def SetUp (s : WatchReload) (conf : State) (link : Route) : Prop :=
  ∃ route, s.daemon.seen = some (conf, route) ∧ usable conf route = some link

/-- The last reload set the output up. -/
def FromOutput (s : WatchReload) (link : Route) : Prop := ∃ conf, s.SetUp conf link

/-- The mark is that of the last reload, and the iteration, if there is one, has not deleted
yet the default route of its table or the rule that ends its rules when allow_lan is off; or
it is the new one of an iteration that has read a usable output. -/
def Serves (s : WatchReload) (mark : UInt32) (link : Route) : Prop :=
  match s.stage with
  | .idle => s.daemon.mark = some mark ∧ s.FromOutput link
  | .clearing oldMark _ _ =>
    oldMark = some mark ∧ s.FromOutput link ∧
      (defaultRoute mark link ∈ s.daemon.net.routes ∨ noLanRule mark ∈ s.daemon.net.rules)
  | .adding plan _ | .loading plan _ _ | .sweeping plan _ _ =>
    plan.newMark = mark ∧ usable plan.conf plan.route = some link

/-- The rules of the mark before go first, and those of the new mark are complete before
CONFIG holds it. -/
inductive Windowed : WatchReload → Prop
  | idle {d} : (∀ mark conf link, d.mark = some mark → SetUp ⟨d, .idle⟩ conf link →
        d.net.Carries mark conf link) → Windowed ⟨d, .idle⟩
  | clearing {d oldMark newMark todo} : d.mark = some newMark → d.Unused newMark →
      (∀ mark conf link, oldMark = some mark → SetUp ⟨d, .idle⟩ conf link →
        Clearing mark link d.net todo ∧
          (conf.config.allowLan = false → Barring mark d.net todo)) →
      Windowed ⟨d, .clearing oldMark newMark todo⟩
  | adding {d plan todo} : d.mark = some plan.newMark → d.Unused plan.newMark →
      (∀ link, usable plan.conf plan.route = some link →
        Planned plan.newMark plan.conf link d.net todo) → Windowed ⟨d, .adding plan todo⟩
  | loading {d plan bpf todo} : d.mark = some plan.newMark →
      (∀ link, usable plan.conf plan.route = some link →
        d.net.Carries plan.newMark plan.conf link) → Windowed ⟨d, .loading plan bpf todo⟩
  | sweeping {d plan left reported} : d.mark = some plan.newMark →
      (∀ link, usable plan.conf plan.route = some link →
        d.net.Carries plan.newMark plan.conf link) → Windowed ⟨d, .sweeping plan left reported⟩

theorem Windowed.around {d d' : Daemon} {stage : Stage} (h : Windowed ⟨d, stage⟩)
    (mark : d'.mark = d.mark) (seen : d'.seen = d.seen) (net : d'.net = d.net)
    (unused : ∀ m, d.Unused m → d'.Unused m) : Windowed ⟨d', stage⟩ := by
  have hfrom : ∀ conf link, SetUp ⟨d', .idle⟩ conf link → SetUp ⟨d, .idle⟩ conf link := by
    rintro conf link ⟨route, hseen, husable⟩
    exact ⟨route, seen ▸ hseen, husable⟩
  cases h with
  | idle hall =>
    refine .idle fun m conf link hmark houtput => ?_
    rw [net]
    exact hall m conf link (mark ▸ hmark) (hfrom conf link houtput)
  | clearing hmark hunused hall =>
    refine .clearing (mark.trans hmark) (unused _ hunused) fun m conf link hold houtput => ?_
    rw [net]
    exact hall m conf link hold (hfrom conf link houtput)
  | adding hmark hunused hall =>
    refine .adding (mark.trans hmark) (unused _ hunused) fun link husable => ?_
    rw [net]
    exact hall link husable
  | loading hmark hall =>
    refine .loading (mark.trans hmark) fun link husable => ?_
    rw [net]
    exact hall link husable
  | sweeping hmark hall =>
    refine .sweeping (mark.trans hmark) fun link husable => ?_
    rw [net]
    exact hall link husable

theorem cgroupSocketCreate_config {k : Kernel} {family : Nat} {task : Task}
    (h : (k.cgroupSocketCreate e alloc family task).1 = some mark) : mark = k.config.mark := by
  unfold Kernel.cgroupSocketCreate at h
  split at h
  next => cases h
  next =>
    split at h
    next => cases h
    next =>
      split at h
      next => cases h
      next hd =>
        have hconfig := (Kernel.needsMark_hooked e alloc (by simpa using hd) task).config
        dsimp only at h
        split at h
        next => cases h
        next =>
          rw [hconfig] at h
          exact (Option.some.inj h).symm

theorem Windowed.socket (h : Windowed s) (family : Nat) (id : TaskId) :
    Windowed (s.socket e alloc programs family id) := by
  have hook := Kernel.cgroupSocketCreate_hooked e alloc s.daemon.kernel family (taskOf programs id)
  have config := fun mark => @cgroupSocketCreate_config e alloc mark s.daemon.kernel family
    (taskOf programs id)
  unfold WatchReload.socket
  generalize s.daemon.kernel.cgroupSocketCreate e alloc family (taskOf programs id) = r
    at hook config
  refine h.around rfl rfl rfl fun m hunused => ?_
  obtain ⟨hsockets, hconfig, hzero⟩ := hunused
  refine ⟨fun sock hsock => ?_, ?_, hzero⟩
  · rcases List.mem_append.mp hsock with hold | hnew
    · exact hsockets sock hold
    · obtain rfl := List.mem_singleton.mp hnew
      cases hmark : r.1 with
      | none => exact hzero
      | some mark =>
        rw [config mark hmark]
        exact hconfig
  · rw [show r.2.config = s.daemon.kernel.config from hook.config]
    exact hconfig

theorem Windowed.start {newMark : UInt32} (h : Windowed s) (ok : s.DrawsNew (.start newMark))
    (step : s.start newMark = some t) : Windowed t := by
  obtain ⟨hstage, hrand, rfl⟩ := start_some step
  obtain ⟨d, stage⟩ := s
  cases hstage
  have hzero : 0 ≠ newMark := by
    rintro rfl
    exact absurd hrand (by decide)
  cases h with
  | idle hall =>
    refine .clearing rfl ⟨ok.1, ok.2, hzero⟩ fun mark conf link hold houtput => ?_
    have carries := hall mark conf link hold houtput
    dsimp only at hold ⊢
    rw [hold]
    refine ⟨.whole carries.rule carries.route, fun off => ?_⟩
    have ofRoutes : ∀ r ∈ [NetRequest.dumpTable mark], r.OfRoutes :=
      List.forall_mem_singleton.mpr trivial
    exact .routes (carries.noLan off) ofRoutes

theorem Windowed.request (h : Windowed s) (step : s.request = some t) : Windowed t := by
  obtain ⟨request, todo, net, todo', taken, ⟨oldMark, newMark, hstage, rfl⟩ | ⟨plan, hstage, rfl⟩⟩ :=
    request_some step
  · obtain ⟨d, stage⟩ := s
    cases hstage
    cases h with
    | clearing hmark hunused hall =>
      exact .clearing hmark ⟨hunused.sockets, hunused.config, hunused.zero⟩
        fun mark conf link hold houtput =>
          ⟨(hall mark conf link hold houtput).1.exec taken,
            fun off => ((hall mark conf link hold houtput).2 off).exec taken⟩
  · obtain ⟨d, stage⟩ := s
    cases hstage
    cases h with
    | adding hmark hunused hall =>
      exact .adding hmark ⟨hunused.sockets, hunused.config, hunused.zero⟩
        fun link husable => (hall link husable).exec taken

theorem windowed_step {event : WatchReloadEvent} (h : Windowed s) (ok : s.DrawsNew event)
    (step : s.step c e alloc programs event = some t) : Windowed t := by
  cases event with
  | config conf =>
    cases Option.some.inj step
    exact h.around rfl rfl rfl fun m hunused => ⟨hunused.sockets, hunused.config, hunused.zero⟩
  | output route =>
    cases Option.some.inj step
    exact h.around rfl rfl rfl fun m hunused => ⟨hunused.sockets, hunused.config, hunused.zero⟩
  | socket family id =>
    cases Option.some.inj step
    exact h.socket family id
  | start newMark => exact h.start ok step
  | request => exact h.request step
  | read =>
    obtain ⟨oldMark, newMark, hstage, rfl⟩ := read_some step
    obtain ⟨d, stage⟩ := s
    cases hstage
    cases h with
    | clearing hmark hunused _ =>
      exact .adding hmark hunused fun link husable => planned_requests husable d.net
  | build =>
    obtain ⟨plan, ctx, bpf, hstage, _, _, rfl⟩ := build_some step
    obtain ⟨d, stage⟩ := s
    cases hstage
    cases h with
    | adding hmark _ hall => exact .loading hmark fun link husable => (hall link husable).carries
  | stmt =>
    obtain ⟨plan, bpf, stmt, todo, r, hstage, _, rfl⟩ := stmt_some step
    obtain ⟨d, stage⟩ := s
    cases hstage
    cases h with
    | loading hmark hall => exact .loading hmark hall
  | iterate =>
    obtain ⟨plan, bpf, hstage, rfl⟩ := iterate_some step
    obtain ⟨d, stage⟩ := s
    cases hstage
    cases h with
    | loading hmark hall => exact .sweeping hmark hall
  | report i =>
    obtain ⟨plan, left, reported, sock, hstage, _, report, kernel, _, rfl⟩ := report_some step
    obtain ⟨d, stage⟩ := s
    cases hstage
    cases h with
    | sweeping hmark hall => exact .sweeping hmark hall
  | setMark i =>
    obtain ⟨plan, left, reported, hstage, _, rfl⟩ := setMark_some step
    obtain ⟨d, stage⟩ := s
    cases hstage
    cases h with
    | sweeping hmark hall => exact .sweeping hmark hall
  | finish =>
    obtain ⟨plan, hstage, rfl⟩ := finish_some step
    obtain ⟨d, stage⟩ := s
    cases hstage
    cases h with
    | sweeping hmark hall =>
      refine .idle fun mark conf link hcurrent ⟨route, hseen, husable⟩ => ?_
      cases Option.some.inj hseen
      cases Option.some.inj (hmark.symm.trans hcurrent)
      exact hall link husable

/-- What carries a mark in service is guarded. -/
theorem Windowed.guards (h : Windowed s) (serves : s.Serves mark link) :
    ∀ sock ∈ s.daemon.sockets, sock.mark = mark → s.daemon.net.Guards mark link := by
  intro sock hsock hcarries
  cases h with
  | idle hall =>
    obtain ⟨hmark, conf, houtput⟩ := serves
    exact (hall mark conf link hmark houtput).guards
  | clearing _ _ hall =>
    obtain ⟨hold, ⟨conf, houtput⟩, route | noLan⟩ := serves
    · exact (hall mark conf link hold houtput).1.guards route
    · exact Net.guards_of_noLan link noLan
  | adding _ hunused _ =>
    obtain ⟨rfl, _⟩ := serves
    exact absurd hcarries (hunused.sockets sock hsock)
  | loading _ hall =>
    obtain ⟨rfl, husable⟩ := serves
    exact (hall link husable).guards
  | sweeping _ hall =>
    obtain ⟨rfl, husable⟩ := serves
    exact (hall link husable).guards

/-- At every point of an iteration the sockets with its new mark are guarded, and those with
the mark before are, until the default route of its table is deleted and, when allow_lan was
off, the rule that makes the rest unreachable as well. -/
theorem run_guarded {s₀ : WatchReload} (idle : s₀.stage = .idle) (unseen : s₀.daemon.seen = none)
    {events : List WatchReloadEvent}
    (run : Run (step c e alloc programs) DrawsNew s₀ events s) :
    (∀ mark link, s.Serves mark link → ∀ sock ∈ s.daemon.sockets, sock.mark = mark →
      s.daemon.net.Guards mark link) ∧
    (∀ oldMark newMark todo, s.stage = .clearing oldMark newMark todo →
      ∀ sock ∈ s.daemon.sockets, sock.mark ≠ newMark) ∧
    ∀ mark newMark todo conf link, s.stage = .clearing (some mark) newMark todo →
      s.SetUp conf link → conf.config.allowLan = false → (clearRequests mark).tail <:+ todo →
      noLanRule mark ∈ s.daemon.net.rules := by
  have start : Windowed s₀ := by
    obtain ⟨d, stage⟩ := s₀
    cases idle
    refine .idle fun mark conf link _ ⟨route, hseen, _⟩ => ?_
    rw [show d.seen = none from unseen] at hseen
    cases hseen
  have windowed := run.invariant (fun _ _ _ => windowed_step) start
  refine ⟨fun mark link => windowed.guards, fun oldMark newMark todo hstage => ?_,
    fun mark newMark todo conf link hstage houtput off before => ?_⟩
  · obtain ⟨d, stage⟩ := s
    cases hstage
    cases windowed with
    | clearing _ hunused _ => exact hunused.sockets
  · obtain ⟨d, stage⟩ := s
    cases hstage
    cases windowed with
    | clearing _ _ hall => exact ((hall mark conf link rfl houtput).2 off).noLan before

/-- An iteration in the middle of its sweep. -/
def sweepingEvents : List WatchReloadEvent :=
  [.start 70001, .read, .request, .request, .request, .build, .stmt, .stmt, .stmt, .stmt,
    .iterate, .report 0, .setMark 0]

def noLanDaemon : Daemon :=
  { loadedDaemon with
    conf := { loadedDaemon.conf with config := { Config.default with allowLan := false } } }

/-- The next iteration deletes the default route of the mark before. -/
def unroutedEvents : List WatchReloadEvent :=
  sweepingEvents ++ [.finish, .start 70002, .request, .request]

set_option maxRecDepth 4000 in
theorem run_guarded_sweeping :
    (∃ s, Run (step slashACrates .little zeroedPages slashAPrograms) DrawsNew
        ⟨loadedDaemon, .idle⟩ sweepingEvents s ∧
      ∃ sock ∈ s.daemon.sockets, sock.mark = 70001 ∧
        s.daemon.net.Guards 70001 ⟨true, 2, "wg0", [], none⟩) ∧
    ∃ s, Run (step slashACrates .little zeroedPages slashAPrograms) DrawsNew
        ⟨noLanDaemon, .idle⟩ unroutedEvents s ∧ s.daemon.net.routes = [] ∧
      ∃ sock ∈ s.daemon.sockets, sock.mark = 70001 ∧
        s.daemon.net.Guards 70001 ⟨true, 2, "wg0", [], none⟩ := by
  constructor
  · have run : ∃ s, Run (step slashACrates .little zeroedPages slashAPrograms) DrawsNew
        ⟨loadedDaemon, .idle⟩ sweepingEvents s ∧ s.Serves 70001 ⟨true, 2, "wg0", [], none⟩ ∧
        ∃ sock ∈ s.daemon.sockets, sock.mark = 70001 :=
      ⟨_, .cons ⟨by decide, by decide⟩ rfl (.cons trivial rfl (.cons trivial rfl (.cons trivial rfl
        (.cons trivial rfl (.cons trivial rfl (.cons trivial rfl (.cons trivial rfl
        (.cons trivial rfl (.cons trivial rfl (.cons trivial rfl (.cons trivial rfl
        (.single trivial rfl)))))))))))), ⟨rfl, rfl⟩, _, List.mem_cons_self, rfl⟩
    obtain ⟨s, run, serves, sock, hsock, hmark⟩ := run
    exact ⟨s, run, sock, hsock, hmark, (run_guarded rfl rfl run).1 _ _ serves sock hsock hmark⟩
  · have run : ∃ s, Run (step slashACrates .little zeroedPages slashAPrograms) DrawsNew
        ⟨noLanDaemon, .idle⟩ unroutedEvents s ∧ s.daemon.net.routes = [] ∧
        (∃ newMark todo conf, s.stage = .clearing (some 70001) newMark todo ∧
          s.SetUp conf ⟨true, 2, "wg0", [], none⟩ ∧ conf.config.allowLan = false ∧
          todo = (clearRequests 70001).tail) ∧
        ∃ sock ∈ s.daemon.sockets, sock.mark = 70001 :=
      ⟨_, .cons ⟨by decide, by decide⟩ rfl (.cons trivial rfl (.cons trivial rfl (.cons trivial rfl
        (.cons trivial rfl (.cons trivial rfl (.cons trivial rfl (.cons trivial rfl
        (.cons trivial rfl (.cons trivial rfl (.cons trivial rfl (.cons trivial rfl
        (.cons trivial rfl (.cons trivial rfl (.cons ⟨by decide, by decide⟩ rfl
        (.cons trivial rfl (.single trivial rfl)))))))))))))))), rfl,
        ⟨_, _, _, rfl, ⟨_, rfl, rfl⟩, rfl, rfl⟩, _, List.mem_cons_self, rfl⟩
    obtain ⟨s, run, hroutes, ⟨newMark, todo, conf, hstage, setUp, off, rfl⟩, sock, hsock,
      hmark⟩ := run
    have noLan := (run_guarded rfl rfl run).2.2 _ _ _ _ _ hstage setUp off List.suffix_rfl
    exact ⟨s, run, hroutes, sock, hsock, hmark, Net.guards_of_noLan _ noLan⟩

/-- What the iteration has read, or would read now. -/
def plan (s : WatchReload) : Option Plan :=
  match s.stage with
  | .idle => none
  | .clearing _ newMark _ => some ⟨newMark, s.daemon.conf, s.daemon.route⟩
  | .adding plan _ | .loading plan _ _ | .sweeping plan _ _ => some plan

/-- An iteration is under way from one usable output to another. -/
def Between (s : WatchReload) : Prop :=
  (∃ link, s.FromOutput link) ∧ ∃ plan, s.plan = some plan ∧ plan.enable = true

/-- The next iteration begins to clear the rules of the mark before. -/
def windowEvents : List WatchReloadEvent :=
  sweepingEvents ++ [.finish, .start 70002, .request, .request, .request]

set_option maxRecDepth 4000 in
/-- The mark before is no longer routed, and the new one not yet set. -/
theorem run_not_guarded :
    ¬∀ {c : Crates} {e : Endian} {alloc : Nat → Option (Nat → UInt8)}
      {programs : TaskId → Option Dentry × UInt32} {s₀ s : WatchReload}, s₀.stage = .idle →
      s₀.daemon.seen = none → ∀ {events : List WatchReloadEvent},
      Run (step c e alloc programs) DrawsNew s₀ events s → s.Between →
      ∀ sock ∈ s.daemon.sockets, sock.family = afInet → .start sock.mark ∈ events →
        s.daemon.kernel.Redirects e alloc (taskOf programs sock.task) →
        ∃ link, s.daemon.net.Guards sock.mark link := by
  intro h
  have run : ∃ s, Run (step slashACrates .little zeroedPages slashAPrograms) DrawsNew
      ⟨loadedDaemon, .idle⟩ windowEvents s ∧ s.Between ∧ s.daemon.net.rules = [] ∧
      ∃ sock ∈ s.daemon.sockets, sock.family = afInet ∧ .start sock.mark ∈ windowEvents ∧
        s.daemon.kernel.Redirects .little zeroedPages (taskOf slashAPrograms sock.task) := by
    refine ⟨_, .cons ⟨by decide, by decide⟩ rfl (.cons trivial rfl (.cons trivial rfl
      (.cons trivial rfl (.cons trivial rfl (.cons trivial rfl (.cons trivial rfl
      (.cons trivial rfl (.cons trivial rfl (.cons trivial rfl (.cons trivial rfl
      (.cons trivial rfl (.cons trivial rfl (.cons trivial rfl
      (.cons ⟨by decide, by decide⟩ rfl (.cons trivial rfl (.cons trivial rfl
      (.single trivial rfl))))))))))))))))), ⟨⟨_, _, _, rfl, rfl⟩, _, rfl, rfl⟩, rfl,
      _, List.mem_cons_self, rfl, List.mem_cons_self, rfl, by decide +kernel⟩
  obtain ⟨s, run, between, hempty, sock, hsock, hfamily, hdrawn, hredirects⟩ := run
  obtain ⟨link, rule, hrule, _⟩ := h rfl rfl run between sock hsock hfamily hdrawn hredirects
  rw [hempty] at hrule
  cases hrule

end WatchReload

end Rebpf
