import Rebpf.DnsMirror
import Rebpf.Installed
import Rebpf.Daemon
import Rebpf.Lib.Watch

namespace Rebpf

open Lib

structure Link where
  ifindex : UInt32
  ifname : String
  isUp : Bool
  addrs : List UInt32
deriving DecidableEq, Repr

/-- What the kernel answers to a route request for an address. -/
structure FibResult where
  oif : Option UInt32
  prefsrc : Option UInt32
  gateway : Option UInt32
deriving DecidableEq, Repr

/-- A multicast message of the kernel, as far as `watch_multicast` reads it. -/
inductive Notice
  | route (table oif : Option UInt32)
  | link (ifindex : UInt32) (ifname : String)
deriving DecidableEq, Repr

inductive Change
  | enable
  | disable
  | toggle
  | changeOutput (output : String)
  | updateConfig (new : Config)
  | edit (edit : Edit)
deriving DecidableEq, Repr

/-- The receivers of `watch_routes`. -/
structure RoutesLoop where
  conf : Nat
  toChanged : Nat
deriving DecidableEq, Repr

/-- Where an iteration of `watch_reload` stands: at its `select`, or before the
first or the second lock of the BPF context or the answer of the sweeper. What the rules
have been set up from is kept. -/
inductive LoopPhase
  | idle
  | woken (newMark : UInt32)
  | ruled (newMark : UInt32) (enable : Bool) (conf : State) (route : Option Route)
  | refreshing
deriving DecidableEq, Repr

structure ReloadLoop where
  conf : Nat
  routes : Nat
  doReload : Nat
  phase : LoopPhase
deriving DecidableEq, Repr

/-- The receivers of `watch_dns_routes` and, between its `select` and the lock of
the DNS state, its `update_caches`. -/
structure DnsLoop where
  conf : Nat
  routes : Nat
  defaultRoute : Nat
  woken : Option Bool
deriving DecidableEq, Repr

/-- What a BPF reload was made from. -/
structure Used where
  rules : State
  route : Option Route
  bpf : State
deriving DecidableEq, Repr

/-- The daemon's tasks and what they share: the watch channels, the state under
the locks, the kernel with its devices and the messages not yet handled. -/
structure System where
  conf : Watch State
  toChanged : Watch Unit
  routes : Watch (Option Route)
  defaultRoute : Watch (Option Route)
  doReload : Watch Unit
  routesLoop : RoutesLoop
  reloadLoop : ReloadLoop
  dnsLoop : DnsLoop
  mark : Option UInt32
  ctx : BpfCtx
  kernel : Kernel
  net : Net
  links : List Link
  notices : List Notice
  ring : List (Except String DnsMessage)
  dnsTable : UInt32
  dns : DnsState
  used : Option Used

/-- Everything that happens between two await points of a task, and what the
kernel and the clients do in between. -/
inductive SystemEvent
  | change (change : Change)
  | forceReload
  | linkChanged (link : Link)
  | linkGone (ifindex : UInt32)
  | routeAdded (route : FibRoute)
  | routeDeleted (route : FibRoute)
  | notify (notice : Notice)
  | listen
  | notice
  | routesTurn
  | reloadWake (newMark : UInt32)
  | reloadRules
  | reloadBpf
  | reloadDone
  | dnsWake
  | dnsTurn
  | packet (data : Except String DnsMessage)
  | callback (now : Nat)
  | sweep (now : Nat)
  | retire (name : Option DnsName) (dest : Option UInt32)

def getLink (net : Net) (links : List Link) (ifname : String) : Option Route := do
  let link ← links.find? (·.ifname == ifname)
  return {
    isUp := link.isUp
    ifindex := link.ifindex
    ifname := link.ifname
    addrs := link.addrs
    gateway := net.routes.findSome? fun r =>
      if r.table == rtTableMain && r.oif == link.ifindex then r.gateway else none }

section

/- The lookup is the kernel's: by its rules and routes, for an address. -/
variable (c : Crates) (e : Endian) (dc : DnsCrates) (alloc : Nat → Option (Nat → UInt8))
  (lookup : Net → List Link → UInt32 → Option FibResult)

namespace System

def getDefaultLink (s : System) : Option Route := do
  let attrs ← lookup s.net s.links s.conf.value.config.probeIpv4Addr
  let ifindex ← attrs.oif
  let link ← s.links.find? (·.ifindex == ifindex)
  return {
    isUp := link.isUp
    ifindex
    ifname := link.ifname
    addrs := attrs.prefsrc.toList
    gateway := attrs.gateway }

def dnsCtx (s : System) : DnsCtx where
  conf := s.conf.value
  route := s.routes.value
  defaultRoute := s.defaultRoute.value
  dnsTable := s.dnsTable

/-- A call that fails sends nothing; what it left of the list is in the channel all the same. -/
def applyChange (s : System) : Change → Option System
  | .enable => some { s with conf := s.conf.send { s.conf.value with enable := true } }
  | .disable => some { s with conf := s.conf.send { s.conf.value with enable := false } }
  | .toggle => some { s with conf := s.conf.send { s.conf.value with enable := !s.conf.value.enable } }
  | .changeOutput toDev => some { s with conf := s.conf.send { s.conf.value with toDev } }
  | .updateConfig config => some { s with conf := s.conf.send { s.conf.value with config } }
  | .edit edit =>
    match edit.apply c e s.conf.value.ms with
    | (.ok _, ms) => some { s with conf := s.conf.send { s.conf.value with ms } }
    | (.error (.err _), ms) =>
      some { s with conf := { s.conf with value := { s.conf.value with ms } } }
    | (.error .panic, _) => none

def sendToChanged (s : System) : System := { s with toChanged := s.toChanged.send () }

def updateDefault (s : System) : System :=
  let newDefault := s.getDefaultLink lookup
  if newDefault ≠ s.defaultRoute.value then
    { s with defaultRoute := s.defaultRoute.send newDefault }
  else s

/-- The loop body of `watch_multicast`. -/
def watchMulticast (s : System) : Notice → System
  | .route table oif =>
    if table.getD 0 ≠ 0 then s
    else
      let s := if 0 < s.conf.value.ms.dnsCount then s.updateDefault lookup else s
      match s.routes.value with
      | none => s
      | some link =>
        if oif.getD 0 = link.ifindex ∨ s.conf.value.config.allowLan then s.sendToChanged else s
  | .link ifindex ifname =>
    if ifname = s.conf.value.toDev then s.sendToChanged
    else
      match s.routes.value with
      | none => s
      | some link => if link.ifindex = ifindex ∨ link.ifname = ifname then s.sendToChanged else s

def routesTurn (s : System) : Option System :=
  if s.toChanged.hasChanged s.routesLoop.toChanged || s.conf.hasChanged s.routesLoop.conf then
    let s := { s with routesLoop :=
      { conf := s.conf.markUnchanged, toChanged := s.toChanged.markUnchanged } }
    match getLink s.net s.links s.conf.value.toDev with
    | some newRoute =>
      if s.routes.value = some newRoute then some s
      else some { s with routes := s.routes.send (some newRoute) }
    | none => some { s with routes := s.routes.send none }
  else none

def reloadWake (newMark : UInt32) (s : System) : Option System :=
  let loop := s.reloadLoop
  if loop.phase = .idle ∧ isRandTable newMark ∧ (s.conf.hasChanged loop.conf ||
      s.routes.hasChanged loop.routes || s.doReload.hasChanged loop.doReload) then
    some { s with reloadLoop :=
      { conf := s.conf.markUnchanged
        routes := s.routes.markUnchanged
        doReload := s.doReload.markUnchanged
        phase := .woken newMark } }
  else none

def reloadRules (s : System) : Option System :=
  match s.reloadLoop.phase with
  | .woken newMark => do
    let (enable, _, net) ← Rebpf.reloadRules c newMark s.mark s.conf.value s.routes.value s.net
    let phase := .ruled newMark enable s.conf.value s.routes.value
    return { s with mark := some newMark, net, reloadLoop := { s.reloadLoop with phase } }
  | _ => none

def reloadBpf (s : System) : Option System :=
  match s.reloadLoop.phase with
  | .ruled newMark enable rules route => do
    let (ctx, kernel) ← bpfReload c e alloc s.ctx s.conf.value.ms enable newMark s.kernel
    return { s with
      ctx, kernel
      used := some { rules, route, bpf := s.conf.value }
      reloadLoop := { s.reloadLoop with phase := .refreshing } }
  | _ => none

def reloadDone (s : System) : Option System :=
  if s.reloadLoop.phase = .refreshing then
    some { s with reloadLoop := { s.reloadLoop with phase := .idle } }
  else none

def dnsWake (s : System) : Option System :=
  let loop := s.dnsLoop
  let updateCaches := s.conf.hasChanged loop.conf
  if loop.woken = none ∧ (updateCaches || s.routes.hasChanged loop.routes ||
      s.defaultRoute.hasChanged loop.defaultRoute) then
    some { s with dnsLoop :=
      { conf := s.conf.markUnchanged
        routes := s.routes.markUnchanged
        defaultRoute := s.defaultRoute.markUnchanged
        woken := some updateCaches } }
  else none

def dnsTurn (s : System) : Option System :=
  match s.dnsLoop.woken with
  | some updateCaches =>
    let (dns, net) := DnsState.watchDnsRoutes c dc s.dnsCtx updateCaches s.dns s.net
    some { s with dns, net, dnsLoop := { s.dnsLoop with woken := none } }
  | none => none

def callback (now : Nat) (s : System) : Option System :=
  match s.ring with
  | [] => none
  | data :: ring =>
    match DnsState.parse dc s.dnsCtx now data s.dns s.net with
    | .ok (dns, net) => some { s with ring, dns, net }
    | .error _ => some { s with ring }

def step (s : System) : SystemEvent → Option System
  | .change change => s.applyChange c e change
  | .forceReload => some { s with doReload := s.doReload.send () }
  | .linkChanged link =>
    some { s with
      links := link :: s.links.filter (·.ifindex != link.ifindex)
      notices := s.notices ++ [.link link.ifindex link.ifname] }
  | .linkGone ifindex => do
    let link ← s.links.find? (·.ifindex == ifindex)
    return { s with
      links := s.links.filter (·.ifindex != ifindex)
      notices := s.notices ++ [.link ifindex link.ifname] }
  | .routeAdded route =>
    if route.table = rtTableMain then
      some { s with
        net := { s.net with routes := s.net.routes ++ [route] }
        notices := s.notices ++ [.route (some route.table) (some route.oif)] }
    else none
  | .routeDeleted route =>
    if route.table = rtTableMain ∧ route ∈ s.net.routes then
      some { s with
        net := { s.net with routes := s.net.routes.erase route }
        notices := s.notices ++ [.route (some route.table) (some route.oif)] }
    else none
  -- The routes of other tables, the daemon's own ones among them, are announced as well.
  | .notify notice => some { s with notices := s.notices ++ [notice] }
  | .listen => some { s with defaultRoute := s.defaultRoute.send (s.getDefaultLink lookup) }
  | .notice =>
    match s.notices with
    | [] => none
    | notice :: notices => some ({ s with notices }.watchMulticast lookup notice)
  | .routesTurn => s.routesTurn
  | .reloadWake newMark => s.reloadWake newMark
  | .reloadRules => s.reloadRules c
  | .reloadBpf => s.reloadBpf c e alloc
  | .reloadDone => s.reloadDone
  | .dnsWake => s.dnsWake
  | .dnsTurn => s.dnsTurn c dc
  | .packet data =>
    if s.kernel.config.enableDns then some { s with ring := s.ring ++ [data] } else some s
  | .callback now => s.callback dc now
  | .sweep now =>
    let (dns, net) := DnsState.watchDnsTtl dc s.dnsCtx now s.dns s.net
    some { s with dns, net }
  | .retire name dest =>
    let (_, dns, net) := DnsState.removeRecords s.dnsCtx name dest s.dns s.net
    some { s with dns, net }

/-- The tasks have been spawned. The context's own receivers, which the tasks
clone, have never marked anything, and `main` has sent `to_changed`. -/
structure Started (s : System) : Prop where
  conf : 1 ≤ s.conf.version
  toChanged : 1 < s.toChanged.version
  doReload : 1 ≤ s.doReload.version
  routes : s.routes = .new none
  routesLoop : s.routesLoop = ⟨1, 1⟩
  reloadLoop : s.reloadLoop = ⟨1, 1, 1, .idle⟩
  dnsLoop : s.dnsLoop = ⟨Watch.markChanged 1, 1, 1, none⟩
  heap : s.dns.heap = []
  used : s.used = none

/-- All receivers of the loops are unchanged, and the loops wait in `select`. -/
structure Quiet (s : System) : Prop where
  routesLoop : s.conf.hasChanged s.routesLoop.conf = false ∧
    s.toChanged.hasChanged s.routesLoop.toChanged = false
  reloadLoop : s.conf.hasChanged s.reloadLoop.conf = false ∧
    s.routes.hasChanged s.reloadLoop.routes = false ∧
    s.doReload.hasChanged s.reloadLoop.doReload = false
  dnsLoop : s.conf.hasChanged s.dnsLoop.conf = false ∧
    s.routes.hasChanged s.dnsLoop.routes = false ∧
    s.defaultRoute.hasChanged s.dnsLoop.defaultRoute = false
  waiting : s.reloadLoop.phase = .idle ∧ s.dnsLoop.woken = none

instance (s : System) : Decidable s.Quiet :=
  decidable_of_iff ((_ ∧ _) ∧ (_ ∧ _ ∧ _) ∧ (_ ∧ _ ∧ _) ∧ _ ∧ _)
    ⟨fun ⟨routes, reload, dns, waiting⟩ => ⟨routes, reload, dns, waiting⟩,
      fun ⟨routes, reload, dns, waiting⟩ => ⟨routes, reload, dns, waiting⟩⟩

end System

end

/-- The kernel's answer of a host without rules: its first route in the main table. -/
def firstMain (net : Net) (_ : List Link) (_ : UInt32) : Option FibResult :=
  (net.routes.find? (·.table == rtTableMain)).map fun r => ⟨some r.oif, r.prefsrc, r.gateway⟩

/-- A daemon that has just started, with one `dns` match and its output up. -/
def wgSystem : System where
  conf := .new { State.default with enable := true, toDev := "wg0", ms := ⟨[anyRule], 1, 1⟩ }
  toChanged := (Watch.new ()).send ()
  routes := .new none
  defaultRoute := .new none
  doReload := .new ()
  routesLoop := ⟨1, 1⟩
  reloadLoop := ⟨1, 1, 1, .idle⟩
  dnsLoop := ⟨Watch.markChanged 1, 1, 1, none⟩
  mark := none
  ctx := .init
  kernel := .init
  net := ⟨[], [], []⟩
  links := [⟨2, "wg0", true, []⟩, ⟨1, "eth0", true, []⟩]
  notices := []
  ring := []
  dnsTable := 70000
  dns := .init
  used := none

theorem wgSystem_started : wgSystem.Started :=
  ⟨Nat.le_refl _, Nat.lt_succ_self _, Nat.le_refl _, rfl, rfl, rfl, rfl, rfl, rfl⟩

/-- One turn of each loop, `watch_reload` drawing a mark. -/
def turns (newMark : UInt32) : List SystemEvent :=
  [.routesTurn, .reloadWake newMark, .reloadRules, .reloadBpf, .reloadDone, .dnsWake, .dnsTurn]

end Rebpf
