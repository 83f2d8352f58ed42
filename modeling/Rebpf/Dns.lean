import Rebpf.Lib.LeastFirst
import Rebpf.Lib.SpelledMap
import Rebpf.Netlink

namespace Rebpf

open Lib

structure DnsName where
  labels : List (List UInt8)
  isFqdn : Bool
deriving DecidableEq, Repr

namespace DnsName

def setFqdn (name : DnsName) (value : Bool) : DnsName := { name with isFqdn := value }

/-- `Eq` and `Hash` of names look at the flag and at the labels without their case. -/
def folded (name : DnsName) : Bool × List (List UInt8) :=
  (name.isFqdn, name.labels.map (·.map fun b => if 65 ≤ b ∧ b ≤ 90 then b + 32 else b))

end DnsName

structure DnsRecord where
  ttlExpire : Nat
  dest : UInt32
  name : DnsName
deriving DecidableEq, Repr

namespace DnsRecord

def key (rec : DnsRecord) : DnsName × UInt32 := (rec.name, rec.dest)

def net (rec : DnsRecord) : Ipv4Net := ⟨rec.dest, 32⟩

end DnsRecord

def foldedKey (key : DnsName × UInt32) : (Bool × List (List UInt8)) × UInt32 :=
  (key.1.folded, key.2)

inductive RData
  | a (dest : UInt32)
  | other
deriving DecidableEq, Repr

structure DnsAnswer where
  name : DnsName
  ttl : UInt32
  data : RData
deriving DecidableEq, Repr

inductive ResponseCode
  | noError
  | other (text : String)
deriving DecidableEq, Repr

structure DnsMessage where
  queries : Nat
  answers : List DnsAnswer
  isResponse : Bool
  responseCode : ResponseCode
deriving DecidableEq, Repr

/-- The printing of names, the first pattern an anchored search of a DFA reports
and the order in which `BinaryHeap` hands out its records. -/
structure DnsCrates where
  nameToString : DnsName → String
  trySearchFwd : DenseDfa → String → Option Nat
  heap : LeastFirst DnsRecord DnsRecord.ttlExpire

structure DnsCache where
  dfa : Option DnsDfa

namespace DnsCache

def update (c : Crates) (self : DnsCache) (ms : Matches) : DnsCache :=
  match ms.buildDnsDfa c with
  | .ok dfa => ⟨some dfa⟩
  | .error _ => self

/-- A pattern id is an index into the list the DFA was built from. -/
def get (dc : DnsCrates) (self : DnsCache) (name : DnsName) : Option (Direction × Nat) := do
  let dfa ← self.dfa
  let name := dc.nameToString name
  match dc.trySearchFwd dfa.bypass name with
  | some r => (dfa.bypassMap[r]?).map (.bypass, ·)
  | none =>
    match dc.trySearchFwd dfa.redir name with
    | some r => (dfa.redirMap[r]?).map (.redirect, ·)
    | none => none

end DnsCache

structure DnsState where
  ttlSleeper : Option Nat
  heap : List DnsRecord
  hash : SpelledMap foldedKey Nat
  cache : DnsCache

structure DnsCtx where
  conf : State
  route : Option Route
  defaultRoute : Option Route
  dnsTable : UInt32

/-- `None` for a request the kernel refuses. -/
def setupRecord (ctx : DnsCtx) (net : Net) (rec : DnsRecord) (dir : Direction) : Option Net :=
  let route := match dir with
    | .redirect => ctx.route
    | .bypass => ctx.defaultRoute
  match route with
  | none => some net
  | some route => net.newRoute
    { table := ctx.dnsTable
      dst := rec.net
      oif := route.ifindex
      prefsrc := route.addrs.head?
      gateway := route.gateway }

def removeRecord (ctx : DnsCtx) (net : Net) (rec : DnsRecord) : Net :=
  net.delRoute ctx.dnsTable rec.net

def fromSecs (secs : UInt32) : Nat := secs.toNat * 1000000000

namespace DnsState

def parseAnswer (dc : DnsCrates) (ctx : DnsCtx) (now : Nat) : DnsState × Net → DnsAnswer →
    DnsState × Net
  | (dns, net), ans =>
    match ans.data with
    | .other => (dns, net)
    | .a dest =>
      let name := ans.name.setFqdn true
      match dns.cache.get dc name with
      | none => (dns, net)
      | some (dir, _) =>
        let ttlExpire := now + fromSecs (min ans.ttl ctx.conf.config.dnsMaxTtlSec)
        let record : DnsRecord := { ttlExpire, dest, name }
        let hash := dns.hash.insert record.key ttlExpire
        match dns.hash.lookup record.key with
        -- The new expiry is taken from the map when the record is renewed.
        | some _ => ({ dns with hash }, net)
        | none =>
          let heap := dns.heap ++ [record]
          ({ dns with hash, heap, ttlSleeper := (dc.heap.peek heap).map (·.ttlExpire) },
            (setupRecord ctx net record dir).getD net)

/-- The packet is what the library made of its bytes. -/
def parse (dc : DnsCrates) (ctx : DnsCtx) (now : Nat) (data : Except String DnsMessage)
    (dns : DnsState) (net : Net) : Except Failure (DnsState × Net) := do
  let m ← data.mapError .err
  ensure (!(m.queries == 0 && m.answers.isEmpty)) (.err "Can't parse any queries nor answers")
  ensure m.isResponse (.err "Not a response")
  match m.responseCode with
  | .other text => .error (.err ("Has errors: " ++ text))
  | .noError => return m.answers.foldl (parseAnswer dc ctx now) (dns, net)

/-- The loop over the records that are due; `fuel` bounds its turns. -/
def sweepLoop (dc : DnsCrates) (ctx : DnsCtx) (now : Nat) : Nat → DnsState → Net → DnsState × Net
  | 0, dns, net => (dns, net)
  | fuel + 1, dns, net =>
    match dc.heap.pop dns.heap with
    | none => (dns, net)
    | some (rec, rest) =>
      if rec.ttlExpire ≤ now then
        let hash := dns.hash.remove rec.key
        match (dns.hash.lookup rec.key).filter (now < ·) with
        | some expires =>
          sweepLoop dc ctx now fuel
            { dns with
              hash := hash.insert rec.key expires
              heap := rest ++ [{ rec with ttlExpire := expires }] } net
        | none => sweepLoop dc ctx now fuel { dns with hash, heap := rest }
            (removeRecord ctx net rec)
      else (dns, net)

/-- `watch_dns_ttl` after its sleep; every record is due at most once. -/
def watchDnsTtl (dc : DnsCrates) (ctx : DnsCtx) (now : Nat) (dns : DnsState) (net : Net) :
    DnsState × Net :=
  let (dns, net) := sweepLoop dc ctx now dns.heap.length dns net
  ({ dns with ttlSleeper := (dc.heap.peek dns.heap).map (·.ttlExpire) }, net)

def picks (name : Option DnsName) (dest : Option UInt32) (rec : DnsRecord) : Bool :=
  name.all (·.folded == rec.name.folded) && dest.all (· == rec.dest)

/-- `retain`'s closure: what it has found, left over and deleted, and the next record. -/
def removeStep (ctx : DnsCtx) (name : Option DnsName) (dest : Option UInt32) :
    Bool × DnsState × Net → DnsRecord → Bool × DnsState × Net
  | (found, dns, net), rec =>
    if picks name dest rec then
      (true, { dns with hash := dns.hash.remove rec.key }, removeRecord ctx net rec)
    else (found, { dns with heap := dns.heap ++ [rec] }, net)

def removeRecords (ctx : DnsCtx) (name : Option DnsName) (dest : Option UInt32) (dns : DnsState)
    (net : Net) : Bool × DnsState × Net :=
  dns.heap.foldl (removeStep ctx name dest) (false, { dns with heap := [] }, net)

/-- The body of the loop that sets the records up again; errors are only logged. -/
def setupAgain (dc : DnsCrates) (ctx : DnsCtx) (cache : DnsCache) (net : Net) (rec : DnsRecord) :
    Net :=
  match cache.get dc rec.name with
  | some (dir, _) => (setupRecord ctx net rec dir).getD net
  | none => net

/-- One turn of `watch_dns_routes`. -/
def watchDnsRoutes (c : Crates) (dc : DnsCrates) (ctx : DnsCtx) (updateCaches : Bool)
    (dns : DnsState) (net : Net) : DnsState × Net :=
  let cache := if updateCaches then dns.cache.update c ctx.conf.ms else dns.cache
  let heap := dns.heap.filter fun h => (cache.get dc h.name).isSome
  let hash := dns.hash.retain fun k => (cache.get dc k.1).isSome
  let net := net.clearTable ctx.dnsTable
  let net := if ctx.conf.enable then heap.foldl (setupAgain dc ctx cache) net else net
  ({ dns with cache, heap, hash }, net)

end DnsState

end Rebpf
