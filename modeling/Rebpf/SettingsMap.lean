import Rebpf.GuiTrip
import Rebpf.Requests
import Rebpf.State

namespace Rebpf

open Lib

/-- `bool::from_str` of the standard library. -/
def parseBool : String → Except String Bool
  | "true" => .ok true
  | "false" => .ok false
  | _ => .error "provided string was not `true` or `false`"

namespace Config

def toHashmap (c : Config) : Fields :=
  [("probe_ipv4_addr", ipv4ToString c.probeIpv4Addr), ("allow_lan", toString c.allowLan),
    ("spoof_dns", toString c.spoofDns), ("spoof_dns_ipv4", ipv4ToString c.spoofDnsIpv4),
    ("drop_egress_without_output", toString c.dropEgressWithoutOutput),
    ("dns_max_ttl_sec", toString c.dnsMaxTtlSec)]

section

-- How `{:?}` prints a string.
variable (debug : String → String)

def setField (s : Config) (field : String × String) : Except String Config :=
  let addr := orErr (parseIpv4Addr field.2) "invalid IPv4 address syntax"
  match field.1 with
  | "probe_ipv4_addr" => addr.map ({ s with probeIpv4Addr := · })
  | "allow_lan" => (parseBool field.2).map ({ s with allowLan := · })
  | "spoof_dns" => (parseBool field.2).map ({ s with spoofDns := · })
  | "spoof_dns_ipv4" => addr.map ({ s with spoofDnsIpv4 := · })
  | "drop_egress_without_output" =>
    (parseBool field.2).map ({ s with dropEgressWithoutOutput := · })
  | "dns_max_ttl_sec" => (parseU32 field.2).map ({ s with dnsMaxTtlSec := · })
  -- `stringify!` breaks the line here
  | k => .error ("Unknown Config field: " ++ debug k ++ ". Expected one of: probe_ipv4_addr, " ++
      "allow_lan, spoof_dns, spoof_dns_ipv4,\ndrop_egress_without_output, dns_max_ttl_sec")

/-- The fields one by one over the configuration there is. -/
def fromHashmap (h : Fields) (current : Config) : Except String Config :=
  h.foldlM (setField debug) current

end

end Config

/-- The configuration that `update_config` puts in the place of the old one. -/
def updateConfig (debug : String → String) (polkit : Polkit) (new : Fields) (current : Config) :
    Except RequestError Config := do
  authOrErr "UpdateConfig" polkit
  (Config.fromHashmap debug new current).mapError .invalidArgs

namespace Gui

/-- The settings in the window. -/
structure Settings where
  allowLan : Bool
  spoofDns : Bool
  spoofDnsIpv4 : String
  dropEgressWithoutOutput : Bool
deriving DecidableEq, Repr

namespace Settings

def default : Settings where
  allowLan := false
  spoofDns := false
  spoofDnsIpv4 := ""
  dropEgressWithoutOutput := false

def setField (s : Settings) (field : String × String) : Settings :=
  let flag := (parseBool field.2).toOption.getD false
  match fieldKey field.1 with
  | "allow_lan" => { s with allowLan := flag }
  | "spoof_dns" => { s with spoofDns := flag }
  | "spoof_dns_ipv4" => { s with spoofDnsIpv4 := field.2 }
  | "drop_egress_without_output" => { s with dropEgressWithoutOutput := flag }
  | _ => s

def fromHashmap (h : Fields) : Settings := h.foldl setField default

def intoHashmap (s : Settings) : Fields :=
  [("allow_lan", toString s.allowLan), ("spoof_dns", toString s.spoofDns),
    ("spoof_dns_ipv4", s.spoofDnsIpv4),
    ("drop_egress_without_output", toString s.dropEgressWithoutOutput)]

/-- What the window shows of a configuration. -/
def shown (c : Config) : Settings where
  allowLan := c.allowLan
  spoofDns := c.spoofDns
  spoofDnsIpv4 := ipv4ToString c.spoofDnsIpv4
  dropEgressWithoutOutput := c.dropEgressWithoutOutput

/-- Settings with those of a configuration under some keys. -/
def shownUnder (c : Config) (keys : List String) (s : Settings) : Settings where
  allowLan := if "allow_lan" ∈ keys then c.allowLan else s.allowLan
  spoofDns := if "spoof_dns" ∈ keys then c.spoofDns else s.spoofDns
  spoofDnsIpv4 := if "spoof_dns_ipv4" ∈ keys then ipv4ToString c.spoofDnsIpv4 else s.spoofDnsIpv4
  dropEgressWithoutOutput :=
    if "drop_egress_without_output" ∈ keys then c.dropEgressWithoutOutput
    else s.dropEgressWithoutOutput

/-- A configuration with the settings as its own, the address parsed. -/
def putInto (s : Settings) (addr : UInt32) (c : Config) : Config :=
  { c with
    allowLan := s.allowLan
    spoofDns := s.spoofDns
    spoofDnsIpv4 := addr
    dropEgressWithoutOutput := s.dropEgressWithoutOutput }

/-- A configuration with the settings under some keys. -/
def takeOver (s : Settings) (addr : UInt32) (c : Config) (keys : List String) : Config :=
  { c with
    allowLan := if "allow_lan" ∈ keys then s.allowLan else c.allowLan
    spoofDns := if "spoof_dns" ∈ keys then s.spoofDns else c.spoofDns
    spoofDnsIpv4 := if "spoof_dns_ipv4" ∈ keys then addr else c.spoofDnsIpv4
    dropEgressWithoutOutput :=
      if "drop_egress_without_output" ∈ keys then s.dropEgressWithoutOutput
      else c.dropEgressWithoutOutput }

end Settings

end Gui

theorem octet_digits (n : Nat) (h : n < 256) :
    let digits := Nat.toDigits 10 n
    (if digits.length = 0 ∨ 3 < digits.length ∨ !digits.all Char.isDigit ∨
        (1 < digits.length ∧ digits.head? = some '0') then none
    else
      let n := digits.foldl (fun n d => 10 * n + (d.toNat - '0'.toNat)) 0
      if n ≤ 255 then some n else none) = some n := by
  revert n
  decide +kernel

theorem parseIpv4Addr_ipv4ToString (addr : UInt32) :
    parseIpv4Addr (ipv4ToString addr) = some addr := by
  have hbound := addr.toNat_lt
  have hsplit : (ipv4ToString addr).toList.splitOn '.' = [24, 16, 8, 0].map fun shift =>
      Nat.toDigits 10 (addr.toNat / 2 ^ shift % 256) := by
    have hdots : ∀ l ∈ ([24, 16, 8, 0].map fun shift =>
        Nat.toDigits 10 (addr.toNat / 2 ^ shift % 256)), '.' ∉ l := by
      intro l hl hdot
      obtain ⟨shift, _, rfl⟩ := List.mem_map.mp hl
      exact absurd (Nat.isDigit_of_mem_toDigits (by decide) (by decide) hdot) (by decide)
    have hlist : (ipv4ToString addr).toList = ['.'].intercalate ([24, 16, 8, 0].map fun shift =>
        Nat.toDigits 10 (addr.toNat / 2 ^ shift % 256)) := by
      rw [ipv4ToString, String.toList_intercalate, List.map_map]
      exact congrArg _ (List.map_congr_left fun shift _ => Nat.toList_repr)
    rw [hlist, List.splitOn_intercalate '.' hdots (by simp)]
  have hoctet := fun shift =>
    octet_digits (addr.toNat / 2 ^ shift % 256) (Nat.mod_lt _ (by decide))
  have hsum : ((addr.toNat / 2 ^ 24 % 256 * 256 + addr.toNat / 2 ^ 16 % 256) * 256 +
      addr.toNat / 2 ^ 8 % 256) * 256 + addr.toNat / 2 ^ 0 % 256 = addr.toNat := by
    omega
  unfold parseIpv4Addr
  simp only [hsplit, List.map_cons, List.map_nil]
  simp only [hoctet, Option.bind_eq_bind, Option.bind_some, hsum, Option.pure_def,
    UInt32.ofNat_toNat]

theorem parseBool_toString (b : Bool) : parseBool (toString b) = .ok b := by
  cases b <;> rfl

variable {debug : String → String} {c : Config} {s : Gui.Settings} {h : Fields}

theorem Config.setField_takeOver {addr : UInt32} (haddr : parseIpv4Addr s.spoofDnsIpv4 = some addr)
    (keys : List String) {x : String × String} (hx : x ∈ s.intoHashmap) :
    setField debug (s.takeOver addr c keys) x = .ok (s.takeOver addr c (keys ++ [x.1])) := by
  simp only [Gui.Settings.intoHashmap, List.mem_cons, List.not_mem_nil, or_false] at hx
  rcases hx with rfl | rfl | rfl | rfl
  · simp [setField, Gui.Settings.takeOver, parseBool_toString, Except.map]
  · simp [setField, Gui.Settings.takeOver, parseBool_toString, Except.map]
  · simp [setField, Gui.Settings.takeOver, haddr, orErr, Except.map]
  · simp [setField, Gui.Settings.takeOver, parseBool_toString, Except.map]

/-- The settings of an app, all in one map, become those of the configuration, unless
the address is none. -/
theorem Config.fromHashmap_settings (perm : h.Perm s.intoHashmap) (c : Config) :
    fromHashmap debug h c = (orErr (parseIpv4Addr s.spoofDnsIpv4)
      "invalid IPv4 address syntax").map (s.putInto · c) := by
  cases haddr : parseIpv4Addr s.spoofDnsIpv4 with
  | some addr =>
    have keys : (h.map Prod.fst).Perm (s.intoHashmap.map Prod.fst) := perm.map _
    have done : s.takeOver addr c (h.map Prod.fst) = s.putInto addr c := by
      simp [Gui.Settings.takeOver, keys.mem_iff, Gui.Settings.intoHashmap, Gui.Settings.putInto]
    have start : c = s.takeOver addr c [] := rfl
    rw [fromHashmap]
    conv_lhs => rw [start]
    rw [foldlM_keys (fun keys x hx => setField_takeOver haddr keys (perm.mem_iff.mp hx)) [],
      List.nil_append, done]
    rfl
  | none =>
    refine foldlM_spoiled (fun x hx => ?_) ?_ c
    · have hx := perm.mem_iff.mp hx
      simp only [Gui.Settings.intoHashmap, List.mem_cons, List.not_mem_nil, or_false] at hx
      rcases hx with rfl | rfl | rfl | rfl
      · exact .inl fun s => by simp [setField, parseBool_toString, Except.map]
      · exact .inl fun s => by simp [setField, parseBool_toString, Except.map]
      · exact .inr fun s => by simp [setField, haddr, orErr, Except.map]
      · exact .inl fun s => by simp [setField, parseBool_toString, Except.map]
    · refine ⟨("spoof_dns_ipv4", s.spoofDnsIpv4), perm.mem_iff.mpr ?_, fun s => ?_⟩
      · simp [Gui.Settings.intoHashmap]
      · simp [setField, haddr, orErr, Except.map]

theorem Gui.Settings.setField_shownUnder (c : Config) (keys : List String) (s : Gui.Settings)
    {x : String × String} (hx : x ∈ c.toHashmap) :
    (shownUnder c keys s).setField x = shownUnder c (keys ++ [x.1]) s := by
  have plain : ∀ k ∈ c.toHashmap.map Prod.fst, fieldKey k = k := by
    have names : ∀ k ∈ ["probe_ipv4_addr", "allow_lan", "spoof_dns", "spoof_dns_ipv4",
        "drop_egress_without_output", "dns_max_ttl_sec"], fieldKey k = k := by decide
    exact names
  rw [setField, plain x.1 (List.mem_map_of_mem hx)]
  simp only [Config.toHashmap, List.mem_cons, List.not_mem_nil, or_false] at hx
  rcases hx with rfl | rfl | rfl | rfl | rfl | rfl
  all_goals simp [shownUnder, parseBool_toString, Except.toOption]

/-- The app shows what the service tells of its configuration. -/
theorem Gui.Settings.fromHashmap_config (perm : h.Perm c.toHashmap) : fromHashmap h = shown c := by
  have keys : (h.map Prod.fst).Perm (c.toHashmap.map Prod.fst) := perm.map _
  have done : shownUnder c (h.map Prod.fst) default = shown c := by
    simp [shownUnder, keys.mem_iff, Config.toHashmap, shown]
  have start : default = shownUnder c [] default := rfl
  have each : ∀ keys, ∀ x ∈ h,
      (shownUnder c keys default).setField x = shownUnder c (keys ++ [x.1]) default :=
    fun keys x hx => setField_shownUnder c keys default (perm.mem_iff.mp hx)
  have hfold := @foldl_keys _ _ _ Prod.fst (fun keys => shownUnder c keys default) h _ each []
  rw [List.nil_append, done] at hfold
  rw [fromHashmap, start]
  exact hfold

end Rebpf
