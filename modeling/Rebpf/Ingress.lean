import Mathlib.Data.List.GetD
import Rebpf.System

namespace Rebpf

open Lib

/-- A packet at the hook: its socket's family and remote port (0 if not connected), the
bytes from the IP header on that lie in one piece, and those that do not. -/
structure Skb where
  vlanPresent : Bool
  family : Nat
  remotePort : Nat
  linear : List UInt8
  paged : List UInt8
deriving DecidableEq, Repr

def ipprotoUdp : UInt8 := 17

/-- What the hook returns, and what it has for the ring buffer. -/
def ingress (enableDns : Bool) (skb : Skb) : Nat × Option (List UInt8) :=
  if !enableDns then (1, none)
  else if skb.vlanPresent then (1, none)
  else if skb.family ≠ afInet then (1, none)
  else if skb.remotePort ≠ 53 ∧ skb.remotePort ≠ 0 then (1, none)
  else if skb.linear.length < 20 then (1, none)
  else if skb.linear.getD 9 0 ≠ ipprotoUdp then (1, none)
  else
    let udp := (skb.linear.getD 0 0 % 16).toNat * 4
    if skb.linear.length < udp + 8 then (1, none)
    else if (skb.linear.getD udp 0, skb.linear.getD (udp + 1) 0) ≠ (0, 53) then (1, none)
    else
      let dnsOff := udp + 8
      let dnsLen := skb.linear.length - dnsOff
      (1, some (((skb.linear ++ skb.paged).drop dnsOff).take dnsLen))

/-- A UDP datagram in an IPv4 packet. Bytes that nothing looks at are kept as they are. -/
structure Datagram where
  service : Vector UInt8 8
  addresses : Vector UInt8 10
  options : List UInt8
  sourcePort : UInt8 × UInt8
  rest : Vector UInt8 6
  payload : List UInt8
  aligned : options.length % 4 = 0
  short : options.length ≤ 40

/-- The number of words in the IP header. -/
def Datagram.ihl (d : Datagram) : Nat := 5 + d.options.length / 4

def Datagram.ipHeader (d : Datagram) : List UInt8 :=
  UInt8.ofNat (64 + d.ihl) :: (d.service.toList ++
    ipprotoUdp :: (d.addresses.toList ++ d.options))

def Datagram.bytes (d : Datagram) : List UInt8 :=
  d.ipHeader ++ (d.sourcePort.1 :: d.sourcePort.2 :: (d.rest.toList ++ d.payload))

/-- The linear part of the packet is a datagram from port 53 with this payload, and the socket
is an IPv4 one, connected to port 53 or to nothing. -/
structure Skb.Answers (skb : Skb) (payload : List UInt8) : Prop where
  plain : skb.vlanPresent = false
  family : skb.family = afInet
  remote : skb.remotePort = 53 ∨ skb.remotePort = 0
  datagram : ∃ d : Datagram, d.sourcePort = (0, 53) ∧ d.payload = payload ∧ skb.linear = d.bytes

/-- IPv4 sockets get packets of version 4 with a whole header's length. -/
def Skb.Accepted (skb : Skb) : Prop :=
  skb.family = afInet → ∃ ihl, 5 ≤ ihl ∧ ihl ≤ 15 ∧ skb.linear.getD 0 0 = UInt8.ofNat (64 + ihl)

section

variable (xs : List UInt8)

end

section

variable {d : Datagram} {skb : Skb} {payload : List UInt8}

/-- Every packet goes on. -/
theorem ingress_passes (enableDns : Bool) (skb : Skb) : (ingress enableDns skb).1 = 1 := by
  unfold ingress
  dsimp only
  split_ifs <;> rfl

end

/-- A packet at the hook, and whether the ring buffer has room for what is taken of it; or
what the daemon, the kernel and the clients do besides. -/
inductive WireEvent
  | frame (skb : Skb) (room : Bool)
  | task (event : SystemEvent)

section

variable (c : Crates) (e : Endian) (dc : DnsCrates) (alloc : Nat → Option (Nat → UInt8))
  (lookup : Net → List Link → UInt32 → Option FibResult)
  -- The library's parser of DNS messages.
  (fromBytes : List UInt8 → Except String DnsMessage)

/-- The same events, with the answers that find room for the packets. -/
inductive Heard : List WireEvent → List SystemEvent → Prop
  | nil : Heard [] []
  | task {event es fs} : (∀ data, event ≠ .packet data) → Heard es fs →
      Heard (.task event :: es) (event :: fs)
  | answer {skb payload es fs} : skb.Answers payload → Heard es fs →
      Heard (.frame skb true :: es) (.packet (fromBytes payload) :: fs)
  | full {skb room es fs} : room = false → Heard es fs → Heard (.frame skb room :: es) fs
  | other {skb room es fs} : (∀ payload, ¬skb.Answers payload) → Heard es fs →
      Heard (.frame skb room :: es) fs

end

section

variable {c : Crates} {e : Endian} {dc : DnsCrates} {alloc : Nat → Option (Nat → UInt8)}
  {lookup : Net → List Link → UInt32 → Option FibResult}
  {fromBytes : List UInt8 → Except String DnsMessage} {s t : System}

end

end Rebpf
