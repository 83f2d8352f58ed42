import Rebpf.Reload
import Rebpf.ReloadRules
import Rebpf.Daemon

namespace Rebpf

open Lib

/-- The requests that an iteration of `watch_reload` has left to make. A loop of
deletions is left with so many turns. -/
inductive NetRequest
  | dumpTable (table : UInt32)
  | delRoute (table : UInt32) (dst : Ipv4Net)
  | delRules (test : FibRule → Bool) (turns : Nat)
  | delNat (mark : UInt32)
  | newRule (excl : Bool) (rule : FibRule)
  | newRoute (route : FibRoute)
  | dumpMain (newMark : UInt32)
  | cloneRoute (route : FibRoute)
  | newNat (rule : NatRule)

def NetRequest.exec (net : Net) (todo : List NetRequest) : NetRequest → Option (Net × List NetRequest)
  | .dumpTable table =>
    some (net, (net.routes.filter (·.table == table)).map (.delRoute table ·.dst) ++ todo)
  | .delRoute table dst => some (net.delRoute table dst, todo)
  | .delRules _ 0 => some (net, todo)
  | .delRules test (turns + 1) =>
    if net.rules.any test then
      some ({ net with rules := net.rules.eraseP test }, .delRules test turns :: todo)
    else some (net, todo)
  | .delNat mark => some ({ net with nat := net.nat.filter fun r => r.mark != mark }, todo)
  | .newRule excl rule => (net.newRule excl rule).map (·, todo)
  | .newRoute route => (net.newRoute route).map (·, todo)
  | .dumpMain newMark => some (net, (lanRoutes newMark net.routes).map .cloneRoute ++ todo)
  | .cloneRoute route => some ({ net with routes := net.routes ++ [route] }, todo)
  | .newNat rule => some ({ net with nat := rule :: net.nat }, todo)

/-- `clear_rules`. -/
def clearRequests (oldMark : UInt32) : List NetRequest :=
  [.dumpTable oldMark, .delRules (fun r => r.table == some oldMark) 1000,
    .delRules (fun r => r.fwmark == some oldMark) 1000, .delNat oldMark]

/-- What an iteration works from: its mark and what it has read. -/
structure Plan where
  newMark : UInt32
  conf : State
  route : Option Route

section

variable (c : Crates)

def setupRequests (newMark : UInt32) (conf : State) (link : Route) : List NetRequest :=
  link.addrs.map (.newRule true <| srcRule newMark ·) ++
    .newRule true (markRule newMark) ::
    (conf.ms.entries.filterMap (ipv4Rule c newMark)).map (.newRule false) ++
    .newRoute (defaultRoute newMark link) ::
    (if conf.config.allowLan then .dumpMain newMark else .newRule true (noLanRule newMark)) ::
    if conf.config.spoofDns then
      [.newNat { mark := newMark, addr := conf.config.spoofDnsIpv4, port := 53 }]
    else []

namespace Plan

def enable (plan : Plan) : Bool := (usable plan.conf plan.route).isSome

def drops (plan : Plan) : Bool :=
  !plan.enable && blockerOf plan.conf plan.route != "" &&
    plan.conf.config.dropEgressWithoutOutput

def blocker (plan : Plan) : String :=
  if plan.enable then ""
  else if plan.drops then blockerOf plan.conf plan.route ++ " (dropping traffic)"
  else blockerOf plan.conf plan.route

def requests (plan : Plan) : List NetRequest :=
  match usable plan.conf plan.route with
  | some link => setupRequests c plan.newMark plan.conf link
  | none => if plan.drops then [.newRule true (dropRule plan.newMark)] else []

end Plan

end

/-- Where an iteration stands: the rules of the mark before are cleared, the new
ones added, `bpf_reload_config` runs, or the sockets are swept. -/
inductive Stage
  | idle
  | clearing (oldMark : Option UInt32) (newMark : UInt32) (todo : List NetRequest)
  | adding (plan : Plan) (todo : List NetRequest)
  | loading (plan : Plan) (bpf : BpfConfig) (todo : List Stmt)
  | sweeping (plan : Plan) (left reported : List Nat)

/-- The daemon in the middle of `watch_reload`. -/
structure WatchReload where
  daemon : Daemon
  stage : Stage

inductive WatchReloadEvent
  | config (conf : State)
  | output (route : Option Route)
  | socket (family : Nat) (id : TaskId)
  | start (newMark : UInt32)
  | request
  | read
  | build
  | stmt
  | iterate
  | report (i : Nat)
  | setMark (i : Nat)
  | finish

section

variable (c : Crates) (e : Endian) (alloc : Nat → Option (Nat → UInt8))
  (programs : TaskId → Option Dentry × UInt32)

namespace WatchReload

def socket (family : Nat) (id : TaskId) (s : WatchReload) : WatchReload :=
  let (mark, kernel) := s.daemon.kernel.cgroupSocketCreate e alloc family (taskOf programs id)
  { s with daemon := { s.daemon with
      kernel, sockets := s.daemon.sockets ++ [{ family, task := id, mark := mark.getD 0 }] } }

def start (newMark : UInt32) (s : WatchReload) : Option WatchReload :=
  match s.stage with
  | .idle =>
    if isRandTable newMark then
      let todo := (s.daemon.mark.map clearRequests).getD []
      some { daemon := { s.daemon with mark := some newMark }
             stage := .clearing s.daemon.mark newMark todo }
    else none
  | _ => none

def request (s : WatchReload) : Option WatchReload :=
  match s.stage with
  | .clearing oldMark newMark (request :: todo) => do
    let (net, todo) ← request.exec s.daemon.net todo
    return { daemon := { s.daemon with net }, stage := .clearing oldMark newMark todo }
  | .adding plan (request :: todo) => do
    let (net, todo) ← request.exec s.daemon.net todo
    return { daemon := { s.daemon with net }, stage := .adding plan todo }
  | _ => none

def read (s : WatchReload) : Option WatchReload :=
  match s.stage with
  | .clearing _ newMark [] =>
    let plan : Plan := { newMark, conf := s.daemon.conf, route := s.daemon.route }
    some { s with stage := .adding plan (plan.requests c) }
  | _ => none

/-- The first half of `bpf_reload`, which reads the configuration again. -/
def build (s : WatchReload) : Option WatchReload :=
  match s.stage with
  | .adding plan [] => do
    let ms := s.daemon.conf.ms
    let bpf : BpfConfig := { BpfConfig.zeroed with
      enable := plan.enable
      enableDns := plan.enable && decide (0 < ms.dnsCount)
      mark := plan.newMark
      generation := ms.generation }
    let (ctx, bpf) ← rebuild c e s.daemon.ctx ms bpf
    return { daemon := { s.daemon with ctx }
             stage := .loading plan { bpf with arenaBuf := ctx.arena } bpfReloadConfigStmts }
  | _ => none

def stmt (s : WatchReload) : Option WatchReload :=
  match s.stage with
  | .loading plan bpf (stmt :: todo) => do
    let r ← stmt.exec alloc bpf s.daemon.kernel todo
    return { daemon := { s.daemon with kernel := r.kernel }, stage := .loading plan bpf r.todo }
  | _ => none

/-- `bpf_refresh_sockets` creates its iterator, which is to visit all sockets there are. -/
def iterate (s : WatchReload) : Option WatchReload :=
  match s.stage with
  | .loading plan _ [] =>
    some { s with stage := .sweeping plan (List.range s.daemon.sockets.length) [] }
  | _ => none

/-- The iterator comes to a socket, in whatever order. -/
def report (i : Nat) (s : WatchReload) : Option WatchReload :=
  match s.stage with
  | .sweeping plan left reported => do
    let sock ← s.daemon.sockets[i]?
    let (report, kernel) :=
      s.daemon.kernel.refreshSocket e alloc sock.family (taskOf programs sock.task)
    return { daemon := { s.daemon with kernel }
             stage := .sweeping plan (left.erase i) (if report then i :: reported else reported) }
  | _ => none

/-- `proc_set_mark` for an entry that has been read. -/
def setMark (i : Nat) (s : WatchReload) : Option WatchReload :=
  match s.stage with
  | .sweeping plan left reported =>
    if i ∈ reported then
      let sockets := s.daemon.sockets.modify i ({ · with mark := plan.newMark })
      some { daemon := { s.daemon with sockets }
             stage := .sweeping plan left (reported.erase i) }
    else none
  | _ => none

def finish (s : WatchReload) : Option WatchReload :=
  match s.stage with
  | .sweeping plan [] [] =>
    some { daemon := { s.daemon with
             blocker := plan.blocker, seen := some (plan.conf, plan.route) }
           stage := .idle }
  | _ => none

def step (s : WatchReload) : WatchReloadEvent → Option WatchReload
  | .config conf => some { s with daemon := { s.daemon with conf } }
  | .output route => some { s with daemon := { s.daemon with route } }
  | .socket family id => some (s.socket e alloc programs family id)
  | .start newMark => s.start newMark
  | .request => s.request
  | .read => s.read c
  | .build => s.build c e
  | .stmt => s.stmt alloc
  | .iterate => s.iterate
  | .report i => s.report e alloc programs i
  | .setMark i => s.setMark i
  | .finish => s.finish

end WatchReload

end

def stepRequest : Net × List NetRequest → Unit → Option (Net × List NetRequest)
  | (net, request :: todo), _ => request.exec net todo
  | (_, []), _ => none

/-- Making requests, one after the other, leads from one configuration to another. -/
def Leads (net : Net) (todo : List NetRequest) (net' : Net) (todo' : List NetRequest) : Prop :=
  ∃ es, Run stepRequest (fun _ _ => True) (net, todo) es (net', todo')

section

variable {net mid net' : Net} {todo todo' todo'' : List NetRequest}

theorem Leads.refl (net : Net) (todo : List NetRequest) : Leads net todo net todo := ⟨[], .nil⟩

theorem Leads.head {request : NetRequest} (taken : request.exec net todo = some (mid, todo'))
    (rest : Leads mid todo' net' todo'') : Leads net (request :: todo) net' todo'' := by
  obtain ⟨es, run⟩ := rest
  exact ⟨() :: es, .cons trivial taken run⟩

theorem Leads.trans (first : Leads net todo mid todo') (rest : Leads mid todo' net' todo'') :
    Leads net todo net' todo'' := by
  obtain ⟨es, run⟩ := first
  obtain ⟨es', run'⟩ := rest
  exact ⟨es ++ es', run.append run'⟩

theorem leads_delRoutes (table : UInt32) (dsts : List Ipv4Net) (net : Net) (todo : List NetRequest) :
    Leads net (dsts.map (.delRoute table) ++ todo)
      { net with routes := net.routes.filter fun r => !(r.table == table && dsts.contains r.dst) }
      todo := by
  induction dsts generalizing net with
  | nil =>
    have hroutes : net.routes.filter (fun r => !(r.table == table && [].contains r.dst)) =
        net.routes := List.filter_eq_self.mpr fun r _ => by simp
    rw [hroutes]
    exact .refl _ _
  | cons dst dsts ih =>
    have hroutes : net.routes.filter
          (fun r => !(r.table == table && (dst :: dsts).contains r.dst)) =
        (net.delRoute table dst).routes.filter
          fun r => !(r.table == table && dsts.contains r.dst) := by
      rw [Net.delRoute, List.filter_filter]
      refine List.filter_congr fun r _ => ?_
      rw [List.contains_cons]
      cases r.table == table <;> cases r.dst == dst <;> cases dsts.contains r.dst <;> rfl
    rw [hroutes]
    exact .head rfl (ih (net.delRoute table dst))

theorem leads_delRules (test : FibRule → Bool) (turns : Nat) (net : Net) (todo : List NetRequest) :
    Leads net (.delRules test turns :: todo)
      { net with rules := Net.delRules test turns net.rules } todo := by
  induction turns generalizing net with
  | zero => exact .head rfl (.refl _ _)
  | succ turns ih =>
    rw [Net.delRules]
    split
    next hany => exact .head (if_pos hany) (ih _)
    next hany => exact .head (if_neg hany) (.refl _ _)

/-- The requests of `clear_rules` do what `clear_rules` does. -/
theorem leads_clearRequests (oldMark : UInt32) (net : Net) :
    Leads net (clearRequests oldMark) (net.clearRules oldMark) [] := by
  have hroutes : net.routes.filter (fun r => !(r.table == oldMark &&
      ((net.routes.filter (·.table == oldMark)).map (·.dst)).contains r.dst)) =
      net.routes.filter fun r => r.table != oldMark := by
    refine List.filter_congr fun r hr => ?_
    cases htable : r.table == oldMark with
    | false => simpa using htable
    | true =>
      have hmem : r.dst ∈ (net.routes.filter (·.table == oldMark)).map (·.dst) :=
        List.mem_map_of_mem (List.mem_filter.mpr ⟨hr, htable⟩)
      have hcontains := List.contains_iff_mem.mpr hmem
      rw [hcontains]
      simpa using htable
  have dump := leads_delRoutes oldMark ((net.routes.filter (·.table == oldMark)).map (·.dst)) net
    [.delRules (fun r => r.table == some oldMark) 1000,
      .delRules (fun r => r.fwmark == some oldMark) 1000, .delNat oldMark]
  rw [hroutes, List.map_map] at dump
  refine .head rfl (dump.trans ((leads_delRules _ 1000 _ _).trans ((leads_delRules _ 1000 _ _).trans ?_)))
  exact .head rfl (.refl _ _)

theorem leads_newRules {α : Type} {excl : Bool} {f : α → FibRule} {xs : List α}
    (h : xs.foldlM (fun net x => net.newRule excl (f x)) net = some net') (todo : List NetRequest) :
    Leads net (xs.map (fun x => .newRule excl (f x)) ++ todo) net' todo := by
  induction xs generalizing net with
  | nil =>
    cases Option.some.inj h
    exact .refl _ _
  | cons x xs ih =>
    rw [List.foldlM_cons] at h
    obtain ⟨mid, hmid, h⟩ := Option.bind_eq_some_iff.mp h
    exact .head (by rw [NetRequest.exec, hmid]; rfl) (ih h)

theorem leads_cloneRoutes (routes : List FibRoute) (net : Net) (todo : List NetRequest) :
    Leads net (routes.map .cloneRoute ++ todo) { net with routes := net.routes ++ routes } todo := by
  induction routes generalizing net with
  | nil =>
    rw [List.append_nil]
    exact .refl _ _
  | cons route routes ih =>
    have rest := ih { net with routes := net.routes ++ [route] }
    rw [List.append_assoc, List.singleton_append] at rest
    exact .head rfl rest

variable {c : Crates} {newMark : UInt32} {conf : State}

/-- The requests of an enabled iteration do what `setup_output` does. -/
theorem leads_setupRequests {link : Route} (h : setupOutput c newMark conf link net = some net') :
    Leads net (setupRequests c newMark conf link) net' [] := by
  obtain ⟨net₁, h₁, h⟩ := Option.bind_eq_some_iff.mp h
  obtain ⟨net₂, h₂, h⟩ := Option.bind_eq_some_iff.mp h
  obtain ⟨net₃, h₃, h⟩ := Option.bind_eq_some_iff.mp h
  obtain ⟨net₄, h₄, h⟩ := Option.bind_eq_some_iff.mp h
  rw [setupRequests, List.append_assoc, List.cons_append]
  refine (leads_newRules h₁ _).trans (.head (by rw [NetRequest.exec, h₂]; rfl) ?_)
  refine (leads_newRules (f := fun rule => rule) h₃ _).trans
    (.head (by rw [NetRequest.exec, h₄]; rfl) ?_)
  have hnat : ∀ net, Leads net (if conf.config.spoofDns then
        [.newNat { mark := newMark, addr := conf.config.spoofDnsIpv4, port := 53 }] else [])
      (if conf.config.spoofDns then { net with
        nat := { mark := newMark, addr := conf.config.spoofDnsIpv4, port := 53 } :: net.nat }
        else net) [] := by
    intro net
    split
    · exact .head rfl (.refl _ _)
    · exact .refl _ _
  by_cases hlan : conf.config.allowLan = true
  · simp only [hlan, if_true] at h ⊢
    rw [← Option.some.inj h]
    exact .head rfl ((leads_cloneRoutes _ _ _).trans (hnat _))
  · simp only [hlan, Bool.false_eq_true, if_false] at h ⊢
    obtain ⟨net₅, h₅, h⟩ := Option.bind_eq_some_iff.mp h
    rw [← Option.some.inj h]
    exact .head (by rw [NetRequest.exec, h₅]; rfl) (hnat net₅)

theorem leads_reloadRules (plan : Plan) {oldMark : Option UInt32} {enable : Bool}
    {blocker : String}
    (h : reloadRules c plan.newMark oldMark plan.conf plan.route net = some (enable, blocker, net')) :
    enable = plan.enable ∧ blocker = plan.blocker ∧
      Leads (net.cleared oldMark) (plan.requests c) net' [] := by
  change (match usable plan.conf plan.route with
    | some link => (setupOutput c plan.newMark plan.conf link (net.cleared oldMark)).bind
        fun net => some (true, "", net)
    | none => _) = _ at h
  unfold Plan.requests Plan.blocker Plan.drops Plan.enable
  cases husable : usable plan.conf plan.route with
  | some link =>
    rw [husable] at h
    obtain ⟨net₁, hsetup, h⟩ := Option.bind_eq_some_iff.mp h
    cases Option.some.inj h
    exact ⟨rfl, rfl, leads_setupRequests hsetup⟩
  | none =>
    rw [husable] at h
    dsimp only at h
    split at h
    next hdrop =>
      obtain ⟨net₁, hnew, h⟩ := Option.bind_eq_some_iff.mp h
      cases Option.some.inj h
      have hdrops : (blockerOf plan.conf plan.route != "" &&
          plan.conf.config.dropEgressWithoutOutput) = true := by simpa using hdrop
      simp only [Option.isSome_none, Bool.not_false, Bool.true_and, hdrops, if_true]
      have made : NetRequest.exec (net.cleared oldMark) [] (.newRule true (dropRule plan.newMark)) =
          some (net', []) := by
        rw [NetRequest.exec, show (net.cleared oldMark).newRule true _ = some net' from hnew]
        rfl
      exact ⟨trivial, rfl, .head made (.refl _ _)⟩
    next hdrop =>
      cases Option.some.inj h
      have hdrops : (blockerOf plan.conf plan.route != "" &&
          plan.conf.config.dropEgressWithoutOutput) = false := by
        rw [Bool.eq_false_iff]
        simpa using hdrop
      simp only [Option.isSome_none, Bool.not_false, Bool.true_and, hdrops, Bool.false_eq_true,
        if_false]
      exact ⟨trivial, trivial, .refl _ _⟩

end

section

variable {c : Crates} {e : Endian} {alloc : Nat → Option (Nat → UInt8)}
  {programs : TaskId → Option Dentry × UInt32}

namespace WatchReload

/-- The events lead from one state to another, nothing else happening in between. -/
def Reaches (c : Crates) (e : Endian) (alloc : Nat → Option (Nat → UInt8))
    (programs : TaskId → Option Dentry × UInt32) (s t : WatchReload) : Prop :=
  ∃ es, Run (WatchReload.step c e alloc programs) (fun _ _ => True) s es t

theorem Reaches.head {s mid t : WatchReload} (event : WatchReloadEvent)
    (taken : s.step c e alloc programs event = some mid)
    (rest : Reaches c e alloc programs mid t) : Reaches c e alloc programs s t := by
  obtain ⟨es, run⟩ := rest
  exact ⟨event :: es, .cons trivial taken run⟩

theorem Reaches.trans {s mid t : WatchReload} (first : Reaches c e alloc programs s mid)
    (rest : Reaches c e alloc programs mid t) : Reaches c e alloc programs s t := by
  obtain ⟨es, run⟩ := first
  obtain ⟨es', run'⟩ := rest
  exact ⟨es ++ es', run.append run'⟩

/-- In both stages that make requests, the configuration is led where they lead. -/
theorem reaches_requests {d : Daemon} {net' : Net} {todo : List NetRequest}
    (stage : List NetRequest → Stage)
    (steps : ∀ d request todo, WatchReload.request ⟨d, stage (request :: todo)⟩ =
      (request.exec d.net todo).bind fun r => some ⟨{ d with net := r.1 }, stage r.2⟩)
    (h : Leads d.net todo net' []) :
    Reaches c e alloc programs ⟨d, stage todo⟩ ⟨{ d with net := net' }, stage []⟩ := by
  obtain ⟨es, run⟩ := h
  refine ⟨_, run.follow (f := fun r => (⟨{ d with net := r.1 }, stage r.2⟩ : WatchReload))
    (g := fun _ => WatchReloadEvent.request) fun r _ _ t taken => ?_⟩
  obtain ⟨net, _ | ⟨request, todo⟩⟩ := r
  · cases taken
  · refine (steps { d with net } request todo).trans ?_
    rw [show request.exec net todo = some t from taken]
    rfl

/-- `bpf_reload`, cut in two. -/
theorem bpfReload_build {d : Daemon} (plan : Plan) {ctx : BpfCtx} {kernel : Kernel}
    (h : bpfReload c e alloc d.ctx d.conf.ms plan.enable plan.newMark d.kernel =
      some (ctx, kernel)) :
    ∃ bpf, build c e ⟨d, .adding plan []⟩ =
        some ⟨{ d with ctx }, .loading plan bpf bpfReloadConfigStmts⟩ ∧
      d.kernel.bpfReloadConfig alloc bpf = some kernel := by
  obtain ⟨⟨ctx', bpf⟩, hbuild, h⟩ := Option.bind_eq_some_iff.mp h
  obtain ⟨kernel', hkernel, h⟩ := Option.bind_eq_some_iff.mp h
  cases Option.some.inj h
  refine ⟨_, ?_, hkernel⟩
  dsimp only [build]
  rw [hbuild]
  rfl

theorem reaches_loaded {d : Daemon} {plan : Plan} {bpf : BpfConfig} {kernel : Kernel}
    (h : d.kernel.bpfReloadConfig alloc bpf = some kernel) :
    Reaches c e alloc programs ⟨d, .loading plan bpf bpfReloadConfigStmts⟩
      ⟨{ d with kernel }, .loading plan bpf []⟩ := by
  obtain ⟨n, run⟩ := bpfReloadConfig_run (e := e) h
  refine ⟨_, run.follow
    (f := fun r => (⟨{ d with kernel := r.kernel }, .loading plan bpf r.todo⟩ : WatchReload))
    (g := fun _ => WatchReloadEvent.stmt) fun r event hevent t taken => ?_⟩
  cases List.eq_of_mem_replicate hevent
  obtain ⟨k, _ | ⟨stmt, todo⟩⟩ := r
  · cases taken
  · have hexec : stmt.exec alloc bpf k todo = some t := taken
    simp only [step, WatchReload.stmt, hexec]
    rfl

theorem modify_middle (front rest : List Socket) (sock : Socket) (f : Socket → Socket) :
    (front ++ sock :: rest).modify front.length f = front ++ f sock :: rest := by
  induction front with
  | nil => rfl
  | cons first front ih => exact congrArg (first :: ·) ih

/-- The iterator may visit the sockets from the first to the last, each marked at once. -/
theorem reaches_swept (plan : Plan) (rest front : List Socket) (d : Daemon) :
    Reaches c e alloc programs
      ⟨{ d with sockets := front ++ rest },
        .sweeping plan (List.range' front.length rest.length) []⟩
      ⟨{ d with
          sockets := front ++ (bpfRefreshSockets e alloc programs plan.newMark rest d.kernel).1
          kernel := (bpfRefreshSockets e alloc programs plan.newMark rest d.kernel).2 },
        .sweeping plan [] []⟩ := by
  induction rest generalizing front d with
  | nil => exact ⟨[], .nil⟩
  | cons sock rest ih =>
    have hsock : (front ++ sock :: rest)[front.length]? = some sock := by simp
    have hleft : (List.range' front.length (sock :: rest).length).erase front.length =
        List.range' (front.length + 1) rest.length := by
      rw [List.length_cons, List.range'_succ, List.erase_cons_head]
    rw [bpfRefreshSockets]
    rcases hreport : d.kernel.refreshSocket e alloc sock.family (taskOf programs sock.task) with
      ⟨report, kernel⟩
    have visited : WatchReload.report e alloc programs front.length
        ⟨{ d with sockets := front ++ sock :: rest },
          .sweeping plan (List.range' front.length (sock :: rest).length) []⟩ =
        some ⟨{ d with sockets := front ++ sock :: rest, kernel },
          .sweeping plan (List.range' (front.length + 1) rest.length)
            (if report then [front.length] else [])⟩ := by
      simp only [WatchReload.report, hsock, Option.bind_eq_bind, Option.bind_some, hreport, hleft]
      rfl
    refine .head (.report front.length) visited ?_
    cases report with
    | false =>
      have next := ih (front ++ [sock]) { d with kernel }
      simp only [List.append_assoc, List.singleton_append, List.length_append,
        List.length_singleton] at next
      exact next
    | true =>
      have next := ih (front ++ [{ sock with mark := plan.newMark }]) { d with kernel }
      simp only [List.append_assoc, List.singleton_append, List.length_append,
        List.length_singleton] at next
      refine .head (.setMark front.length) ?_ next
      simp only [step, WatchReload.setMark, if_true, List.mem_singleton, modify_middle,
        List.erase_cons_head]

/-- An iteration that nothing interrupts is the daemon's reload. -/
theorem reload_reaches {s t : Daemon} {newMark : UInt32} (hrand : isRandTable newMark = true)
    (h : s.reload c e alloc programs newMark = some t) :
    Reaches c e alloc programs ⟨s, .idle⟩ ⟨t, .idle⟩ := by
  obtain ⟨⟨enable, blocker, net⟩, hrules, h⟩ := Option.bind_eq_some_iff.mp h
  obtain ⟨⟨ctx, kernel⟩, hreload, h⟩ := Option.bind_eq_some_iff.mp h
  cases Option.some.inj h
  obtain ⟨rfl, rfl, hadded⟩ :=
    leads_reloadRules ⟨newMark, s.conf, s.route⟩ hrules
  obtain ⟨bpf, hbuild, hkernel⟩ := bpfReload_build
    (d := { s with mark := some newMark, net }) ⟨newMark, s.conf, s.route⟩ hreload
  have hcleared : Leads s.net ((s.mark.map clearRequests).getD []) (s.net.cleared s.mark) [] := by
    cases s.mark with
    | none => exact .refl _ _
    | some oldMark => exact leads_clearRequests oldMark s.net
  refine .head (.start newMark) (if_pos hrand) ?_
  refine .trans (reaches_requests (d := { s with mark := some newMark })
    (.clearing s.mark newMark) (fun _ _ _ => rfl) hcleared) (.head .read rfl ?_)
  refine .trans (reaches_requests (.adding _) (fun _ _ _ => rfl) hadded) (.head .build hbuild ?_)
  refine .trans (reaches_loaded hkernel) (.head .iterate rfl ?_)
  have swept : Reaches c e alloc programs _ _ := reaches_swept ⟨newMark, s.conf, s.route⟩
    s.sockets [] { s with mark := some newMark, net, ctx, kernel }
  rw [List.nil_append, List.length_nil, ← List.range_eq_range'] at swept
  exact swept.trans (.head .finish rfl ⟨[], .nil⟩)

variable {s t : WatchReload}

theorem start_some {newMark : UInt32} (h : s.start newMark = some t) :
    s.stage = .idle ∧ isRandTable newMark = true ∧
      t = ⟨{ s.daemon with mark := some newMark }, .clearing s.daemon.mark newMark
        ((s.daemon.mark.map clearRequests).getD [])⟩ := by
  unfold start at h
  split at h
  next hstage =>
    split at h
    next hrand =>
      cases Option.some.inj h
      exact ⟨hstage, hrand, rfl⟩
    next => cases h
  next => cases h

theorem request_some (h : s.request = some t) :
    ∃ request todo net todo', request.exec s.daemon.net todo = some (net, todo') ∧
      ((∃ oldMark newMark, s.stage = .clearing oldMark newMark (request :: todo) ∧
          t = ⟨{ s.daemon with net }, .clearing oldMark newMark todo'⟩) ∨
        ∃ plan, s.stage = .adding plan (request :: todo) ∧
          t = ⟨{ s.daemon with net }, .adding plan todo'⟩) := by
  unfold WatchReload.request at h
  split at h
  next oldMark newMark request todo hstage =>
    obtain ⟨⟨net, todo'⟩, hexec, h⟩ := Option.bind_eq_some_iff.mp h
    cases Option.some.inj h
    exact ⟨request, todo, net, todo', hexec, Or.inl ⟨oldMark, newMark, hstage, rfl⟩⟩
  next plan request todo hstage =>
    obtain ⟨⟨net, todo'⟩, hexec, h⟩ := Option.bind_eq_some_iff.mp h
    cases Option.some.inj h
    exact ⟨request, todo, net, todo', hexec, Or.inr ⟨plan, hstage, rfl⟩⟩
  next => cases h

theorem read_some (h : s.read c = some t) :
    ∃ oldMark newMark, s.stage = .clearing oldMark newMark [] ∧
      t = ⟨s.daemon, .adding ⟨newMark, s.daemon.conf, s.daemon.route⟩
        (Plan.requests c ⟨newMark, s.daemon.conf, s.daemon.route⟩)⟩ := by
  unfold read at h
  split at h
  next oldMark newMark hstage =>
    cases Option.some.inj h
    exact ⟨oldMark, newMark, hstage, rfl⟩
  next => cases h

theorem rebuild_kept {ctx ctx' : BpfCtx} {ms : Matches} {bpf bpf' : BpfConfig}
    (h : rebuild c e ctx ms bpf = some (ctx', bpf')) :
    bpf'.enable = bpf.enable ∧ bpf'.mark = bpf.mark := by
  unfold rebuild at h
  split at h
  next =>
    cases Option.some.inj h
    exact ⟨rfl, rfl⟩
  next =>
    dsimp only at h
    split at h
    next =>
      cases Option.some.inj h
      exact ⟨rfl, rfl⟩
    next =>
      cases Option.some.inj h
      exact ⟨rfl, rfl⟩
    next => cases h

theorem build_some (h : s.build c e = some t) :
    ∃ plan ctx bpf, s.stage = .adding plan [] ∧ bpf.enable = plan.enable ∧
      bpf.mark = plan.newMark ∧
      t = ⟨{ s.daemon with ctx }, .loading plan bpf bpfReloadConfigStmts⟩ := by
  unfold build at h
  split at h
  next plan hstage =>
    obtain ⟨⟨ctx, bpf⟩, hbuild, h⟩ := Option.bind_eq_some_iff.mp h
    cases Option.some.inj h
    obtain ⟨henable, hmark⟩ := rebuild_kept hbuild
    exact ⟨plan, ctx, { bpf with arenaBuf := ctx.arena }, hstage, henable, hmark, rfl⟩
  next => cases h

theorem stmt_some (h : s.stmt alloc = some t) :
    ∃ plan bpf stmt todo r, s.stage = .loading plan bpf (stmt :: todo) ∧
      stmt.exec alloc bpf s.daemon.kernel todo = some r ∧
      t = ⟨{ s.daemon with kernel := r.kernel }, .loading plan bpf r.todo⟩ := by
  unfold WatchReload.stmt at h
  split at h
  next plan bpf stmt todo hstage =>
    obtain ⟨r, hexec, h⟩ := Option.bind_eq_some_iff.mp h
    cases Option.some.inj h
    exact ⟨plan, bpf, stmt, todo, r, hstage, hexec, rfl⟩
  next => cases h

theorem iterate_some (h : s.iterate = some t) :
    ∃ plan bpf, s.stage = .loading plan bpf [] ∧
      t = ⟨s.daemon, .sweeping plan (List.range s.daemon.sockets.length) []⟩ := by
  unfold iterate at h
  split at h
  next plan bpf hstage =>
    cases Option.some.inj h
    exact ⟨plan, bpf, hstage, rfl⟩
  next => cases h

theorem report_some {i : Nat} (h : s.report e alloc programs i = some t) :
    ∃ plan left reported sock, s.stage = .sweeping plan left reported ∧
      s.daemon.sockets[i]? = some sock ∧
      ∃ report kernel, s.daemon.kernel.refreshSocket e alloc sock.family
          (taskOf programs sock.task) = (report, kernel) ∧
        t = ⟨{ s.daemon with kernel }, .sweeping plan (left.erase i)
          (if report then i :: reported else reported)⟩ := by
  unfold WatchReload.report at h
  split at h
  next plan left reported hstage =>
    obtain ⟨sock, hsock, h⟩ := Option.bind_eq_some_iff.mp h
    cases Option.some.inj h
    exact ⟨plan, left, reported, sock, hstage, hsock, _, _, rfl, rfl⟩
  next => cases h

theorem setMark_some {i : Nat} (h : s.setMark i = some t) :
    ∃ plan left reported, s.stage = .sweeping plan left reported ∧ i ∈ reported ∧
      t = ⟨{ s.daemon with
          sockets := s.daemon.sockets.modify i ({ · with mark := plan.newMark }) },
        .sweeping plan left (reported.erase i)⟩ := by
  unfold WatchReload.setMark at h
  split at h
  next plan left reported hstage =>
    split at h
    next hmem =>
      cases Option.some.inj h
      exact ⟨plan, left, reported, hstage, hmem, rfl⟩
    next => cases h
  next => cases h

theorem finish_some (h : s.finish = some t) :
    ∃ plan, s.stage = .sweeping plan [] [] ∧
      t = ⟨{ s.daemon with blocker := plan.blocker, seen := some (plan.conf, plan.route) },
        .idle⟩ := by
  unfold finish at h
  split at h
  next plan hstage =>
    cases Option.some.inj h
    exact ⟨plan, hstage, rfl⟩
  next => cases h

end WatchReload

end

end Rebpf
