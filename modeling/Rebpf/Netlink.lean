import Rebpf.State
import Rebpf.BpfReload

namespace Rebpf

open Lib

inductive FrAct
  | toTbl
  | unreachable
deriving DecidableEq, Repr

structure FibRule where
  action : FrAct
  src : Option Ipv4Net := none
  dst : Option Ipv4Net := none
  fwmark : Option UInt32 := none
  fwmask : Option UInt32 := none
  table : Option UInt32 := none
  priority : Option UInt32 := none
deriving DecidableEq, Repr

structure FibRoute where
  table : UInt32
  dst : Ipv4Net
  oif : UInt32
  prefsrc : Option UInt32
  gateway : Option UInt32
deriving DecidableEq, Repr

structure NatRule where
  mark : UInt32
  addr : UInt32
  port : UInt16
deriving DecidableEq, Repr

structure Net where
  rules : List FibRule
  routes : List FibRoute
  nat : List NatRule
deriving DecidableEq, Repr

def rtTableMain : UInt32 := 254

namespace Net

/-- With `NLM_F_EXCL` a request for a rule that is there fails. -/
def newRule (net : Net) (excl : Bool) (rule : FibRule) : Option Net :=
  if excl && net.rules.contains rule then none
  else some { net with rules := net.rules ++ [rule] }

/-- One route to a destination in a table, with `NLM_F_EXCL`. -/
def newRoute (net : Net) (route : FibRoute) : Option Net :=
  if net.routes.any fun r => r.table == route.table && r.dst == route.dst then none
  else some { net with routes := net.routes ++ [route] }

/-- A delete removes the destination's route. -/
def delRoute (net : Net) (table : UInt32) (dst : Ipv4Net) : Net :=
  { net with routes := net.routes.filter fun r => !(r.table == table && r.dst == dst) }

/-- Deletes the first rule that passes the test, so many times or until none is left. -/
def delRules (test : FibRule → Bool) : Nat → List FibRule → List FibRule
  | 0, rules => rules
  | n + 1, rules => if rules.any test then delRules test n (rules.eraseP test) else rules

def clearTable (net : Net) (table : UInt32) : Net :=
  { net with routes := net.routes.filter fun r => r.table != table }

def clearRules (net : Net) (oldMark : UInt32) : Net :=
  let net := net.clearTable oldMark
  let rules := delRules (fun r => r.table == some oldMark) 1000 net.rules
  let rules := delRules (fun r => r.fwmark == some oldMark) 1000 rules
  { net with rules, nat := net.nat.filter fun r => r.mark != oldMark }

/-- The main table's routes, but for the widest destinations, in the mark's table. -/
def cloneRoutes (net : Net) (newMark : UInt32) : Net :=
  let main := net.routes.filter fun r => r.table == rtTableMain && decide (1 < r.dst.prefixLen)
  { net with routes := net.routes ++ main.map ({ · with table := newMark }) }

end Net

theorem Net.mem_newRule {net net' : Net} {excl : Bool} {rule : FibRule}
    (h : net.newRule excl rule = some net') : rule ∈ net'.rules := by
  unfold newRule at h
  split at h
  next => cases h
  next =>
    cases Option.some.inj h
    simp

def ipv4Dest (c : Crates) (m : Match) : Option Ipv4Net :=
  if m.kind ≠ .ipv4 then none
  else match m.method with
    | .full => (parseIpv4Addr m.pattern).map (⟨·, 32⟩)
    | .subnet => (c.parseIpv4Net m.pattern).toOption.map fun n => ⟨n.network, n.prefixLen⟩
    | _ => none

/-- The rule for an `ipv4` match. The mark is on it so that it can be found
again; the mask of 0 makes it match whatever the packet's mark is. -/
def ipv4Rule (c : Crates) (newMark : UInt32) (m : Match) : Option FibRule :=
  (ipv4Dest c m).map fun dst => {
    action := .toTbl
    dst := some dst
    fwmark := some newMark
    fwmask := some 0
    table := some (match m.direction with
      | .redirect => newMark
      | .bypass => rtTableMain)
    priority := some 0 }

section

variable (c : Crates) (newMark : UInt32)

def srcRule (addr : UInt32) : FibRule :=
  { action := .toTbl, src := some ⟨addr, 32⟩, table := some newMark, priority := some 0 }

def markRule : FibRule :=
  { action := .toTbl, fwmark := some newMark, table := some newMark, priority := some 0 }

def noLanRule : FibRule :=
  { action := .unreachable, fwmark := some newMark, table := some newMark, priority := some 0 }

def dropRule : FibRule :=
  { action := .unreachable, fwmark := some newMark, table := some newMark }

def defaultRoute (link : Route) : FibRoute where
  table := newMark
  dst := ⟨0, 0⟩
  oif := link.ifindex
  prefsrc := link.addrs.head?
  gateway := link.gateway

/-- The rules and routes of an enabled reload; any request that fails ends it. -/
def setupOutput (conf : State) (link : Route) (net : Net) : Option Net := do
  let net ← link.addrs.foldlM (fun net addr => net.newRule true (srcRule newMark addr)) net
  let net ← net.newRule true (markRule newMark)
  let net ← (conf.ms.entries.filterMap (ipv4Rule c newMark)).foldlM (·.newRule false ·) net
  let net ← net.newRoute (defaultRoute newMark link)
  let net ← if conf.config.allowLan then some (net.cloneRoutes newMark)
    else net.newRule true (noLanRule newMark)
  return if conf.config.spoofDns then
    { net with nat := { mark := newMark, addr := conf.config.spoofDnsIpv4, port := 53 } :: net.nat }
    else net

/-- What a reload finds in the way, if it does not set up the output. -/
def blockerOf (conf : State) (route : Option Route) : String :=
  if route.isSome && !conf.enable then ""
  else if route.any (!·.isUp) then "Output interface is down"
  else "Output interface not found"

/-- The rules part of one iteration of `watch_reload`: whether the redirection
is enabled, the blocker to report, and the network configuration. -/
def reloadRules (oldMark : Option UInt32) (conf : State) (route : Option Route) (net : Net) :
    Option (Bool × String × Net) := do
  let net := match oldMark with
    | some old => net.clearRules old
    | none => net
  match route.filter fun link => link.isUp && conf.enable with
  | some link => return (true, "", ← setupOutput c newMark conf link net)
  | none =>
    let blocker := blockerOf conf route
    if blocker ≠ "" ∧ conf.config.dropEgressWithoutOutput then
      return (false, blocker ++ " (dropping traffic)", ← net.newRule true (dropRule newMark))
    else return (false, blocker, net)

end

end Rebpf
