import Rebpf.Matches

namespace Rebpf

structure Config where
  probeIpv4Addr : UInt32
  allowLan : Bool
  spoofDns : Bool
  spoofDnsIpv4 : UInt32
  dropEgressWithoutOutput : Bool
  dnsMaxTtlSec : UInt32
deriving DecidableEq, Repr

def ipv4Addr (a b c d : UInt8) : UInt32 :=
  .ofNat (((a.toNat * 256 + b.toNat) * 256 + c.toNat) * 256 + d.toNat)

def ipv4ToString (addr : UInt32) : String :=
  ".".intercalate ([24, 16, 8, 0].map fun shift => toString (addr.toNat / 2 ^ shift % 256))

def Config.default : Config where
  probeIpv4Addr := ipv4Addr 1 2 3 4
  allowLan := true
  spoofDns := false
  spoofDnsIpv4 := ipv4Addr 8 8 8 8
  dropEgressWithoutOutput := false
  dnsMaxTtlSec := 3600

/-- The daemon's configuration, as it is watched, served and saved. -/
structure State where
  enable : Bool
  toDev : String
  config : Config
  ms : Matches
  generation : UInt64
deriving DecidableEq, Repr

def State.default : State where
  enable := false
  toDev := ""
  config := .default
  ms := .default
  generation := 0

structure Route where
  isUp : Bool
  ifindex : UInt32
  ifname : String
  addrs : List UInt32
  gateway : Option UInt32
deriving DecidableEq, Repr

end Rebpf
