import Rebpf.InForce
import Rebpf.Cleanup

namespace Rebpf

open Lib

/-- What the kernel looks a route up for. -/
structure Packet where
  src : UInt32
  dst : UInt32
  mark : UInt32
deriving DecidableEq, Repr

def Ipv4Net.contains (n : Ipv4Net) (addr : UInt32) : Bool :=
  addr.toNat / 2 ^ (32 - n.prefixLen) == n.addr.toNat / 2 ^ (32 - n.prefixLen)

/-- A mark that is not 0 is compared in all its bits, unless there is a mask. -/
def FibRule.markMask (rule : FibRule) : UInt32 :=
  rule.fwmask.getD (if rule.fwmark.getD 0 = 0 then 0 else 0xffffffff)

def FibRule.isFor (rule : FibRule) (p : Packet) : Bool :=
  rule.src.all (·.contains p.src) && rule.dst.all (·.contains p.dst) &&
    ((p.mark ^^^ rule.fwmark.getD 0) &&& rule.markMask) == 0

/-- How a lookup ends. -/
inductive Verdict
  | route (table : UInt32)
  | unreachable
deriving DecidableEq, Repr

def reaches (routes : List FibRoute) (table dst : UInt32) : Bool :=
  routes.any fun r => r.table == table && r.dst.contains dst

/-- A rule to a table without a route for the packet is passed over. -/
def FibRule.verdict (routes : List FibRoute) (p : Packet) (rule : FibRule) : Option Verdict :=
  if rule.isFor p then
    match rule.action with
    | .toTbl => rule.table.bind fun table =>
      if reaches routes table p.dst then some (.route table) else none
    | .unreachable => some .unreachable
  else none

/-- The rules are of one priority and stand in the order they were added in. -/
def Net.lookup (net : Net) (p : Packet) : Option Verdict :=
  net.rules.findSome? (·.verdict net.routes p)

/-- The rule of `setup_static_rules`. -/
def staticRule (dnsTable : UInt32) : FibRule :=
  { action := .toTbl, src := some ⟨0, 0⟩, table := some dnsTable, priority := some 0 }

/-- The destination is the address or within the network of an `ipv4` entry. -/
def Match.Covers (c : Crates) (m : Match) (dst : UInt32) : Prop :=
  m.kind = .ipv4 ∧ ∃ n, m.denoted c = some (.v4 n) ∧ n.contains dst = true

/-- Some `bypass` entry covers the destination, and no `redirect` entry before it does. -/
def BypassFirst (c : Crates) (ms : List Match) (dst : UInt32) : Prop :=
  ∃ front m back, ms = front ++ m :: back ∧ m.direction = .bypass ∧ m.Covers c dst ∧
    ∀ a ∈ front, a.direction = .redirect → ¬a.Covers c dst

section

variable {c : Crates} {newMark : UInt32} {routes : List FibRoute} {p : Packet} {m : Match}

theorem Ipv4Net.contains_network (n : Ipv4Net) (addr : UInt32) :
    (⟨n.network, n.prefixLen⟩ : Ipv4Net).contains addr = n.contains addr := by
  have hpos : 0 < 2 ^ (32 - n.prefixLen) := Nat.two_pow_pos _
  have hle : n.addr.toNat / 2 ^ (32 - n.prefixLen) * 2 ^ (32 - n.prefixLen) ≤ n.addr.toNat :=
    Nat.div_mul_le_self _ _
  have hsmall : n.addr.toNat / 2 ^ (32 - n.prefixLen) * 2 ^ (32 - n.prefixLen) < 2 ^ 32 :=
    hle.trans_lt n.addr.toNat_lt
  have hnetwork : n.network.toNat =
      n.addr.toNat / 2 ^ (32 - n.prefixLen) * 2 ^ (32 - n.prefixLen) :=
    UInt32.toNat_ofNat_of_lt' hsmall
  unfold contains
  rw [hnetwork, Nat.mul_div_cancel _ hpos]

theorem Ipv4Net.contains_all (addr : UInt32) : (⟨0, 0⟩ : Ipv4Net).contains addr = true := by
  have hlt : addr.toNat < 4294967296 := addr.toNat_lt
  simpa [contains] using hlt

theorem Ipv4Net.contains_host (a addr : UInt32) :
    (⟨a, 32⟩ : Ipv4Net).contains addr = true ↔ addr = a := by
  simp [contains, UInt32.toNat_inj]

theorem srcRule_isFor (addr : UInt32) (h : p.src ≠ addr) :
    (srcRule newMark addr).isFor p = false := by
  have hcontains : (⟨addr, 32⟩ : Ipv4Net).contains p.src = false :=
    Bool.eq_false_iff.mpr (mt (Ipv4Net.contains_host addr p.src).mp h)
  simp [FibRule.isFor, srcRule, hcontains]

/-- The rules of a mark are for the packets that carry it. -/
theorem marked_isFor (hmark : newMark ≠ 0) (action : FrAct) :
    FibRule.isFor { action, fwmark := some newMark, table := some newMark, priority := some 0 } p =
      (p.mark == newMark) := by
  have hall : (p.mark ^^^ newMark) &&& 0xffffffff = p.mark ^^^ newMark := UInt32.and_neg_one
  simp [FibRule.isFor, FibRule.markMask, hmark, hall, beq_eq_beq]

theorem toDst_verdict {dst : Ipv4Net} {table : UInt32} {v : Verdict} :
    FibRule.verdict routes p {
        action := .toTbl
        dst := some dst
        fwmark := some newMark
        fwmask := some 0
        table := some table
        priority := some 0 } = some v ↔
      dst.contains p.dst = true ∧ reaches routes table p.dst = true ∧ v = .route table := by
  by_cases hdst : dst.contains p.dst = true
  · by_cases hroute : reaches routes table p.dst = true
    · have hsymm : Verdict.route table = v ↔ v = .route table := eq_comm
      simpa [FibRule.verdict, FibRule.isFor, FibRule.markMask, hdst, hroute] using hsymm
    · simp [FibRule.verdict, FibRule.isFor, FibRule.markMask, hdst, hroute]
  · simp [FibRule.verdict, FibRule.isFor, hdst]

/-- The rule of an `ipv4` entry is for the packets the entry covers, whatever their mark. -/
theorem ipv4Rule_verdict (parses : c.ParsesNets) {v : Verdict} :
    (ipv4Rule c newMark m).bind (·.verdict routes p) = some v ↔ m.Covers c p.dst ∧
      reaches routes (if m.direction = .redirect then newMark else rtTableMain) p.dst = true ∧
      v = .route (if m.direction = .redirect then newMark else rtTableMain) := by
  have htable : ∀ dst, ipv4Dest c m = some dst → ipv4Rule c newMark m = some {
      action := .toTbl
      dst := some dst
      fwmark := some newMark
      fwmask := some 0
      table := some (if m.direction = .redirect then newMark else rtTableMain)
      priority := some 0 } := by
    intro dst hdst
    rw [ipv4Rule, hdst]
    cases m.direction <;> rfl
  constructor
  · intro h
    obtain ⟨rule, hrule, hv⟩ := Option.bind_eq_some_iff.mp h
    obtain ⟨dst, hdst, _⟩ := Option.map_eq_some_iff.mp hrule
    rw [htable dst hdst] at hrule
    cases hrule
    obtain ⟨hkind, n, hn, rfl⟩ := (ipv4Dest_iff parses).mp hdst
    obtain ⟨hcontains, hroute⟩ := toDst_verdict.mp hv
    rw [Ipv4Net.contains_network] at hcontains
    exact ⟨⟨hkind, n, hn, hcontains⟩, hroute⟩
  · rintro ⟨⟨hkind, n, hn, hcontains⟩, hroute⟩
    have hdst := (ipv4Dest_iff parses).mpr ⟨hkind, n, hn, rfl⟩
    rw [htable _ hdst]
    exact toDst_verdict.mpr ⟨by rwa [Ipv4Net.contains_network], hroute⟩

/-- A mark's table leads everywhere, by its default route. -/
theorem reaches_default {link : Route} (h : defaultRoute newMark link ∈ routes) (dst : UInt32) :
    reaches routes newMark dst = true := by
  have hall := Ipv4Net.contains_all dst
  exact List.any_eq_true.mpr ⟨_, h, by simp [defaultRoute, hall]⟩

/-- Without the mark the entries decide, in the order of the list. -/
theorem entries_lookup (parses : c.ParsesNets) (hmain : newMark ≠ rtTableMain)
    (hdefault : reaches routes newMark p.dst = true) (ms : List Match) :
    (ms.filterMap (ipv4Rule c newMark)).findSome? (·.verdict routes p) =
        some (.route rtTableMain) ↔
      BypassFirst c ms p.dst ∧ reaches routes rtTableMain p.dst = true := by
  rw [← List.head?_filterMap, List.filterMap_filterMap, List.head?_filterMap,
    findSome?_eq_some_iff_before]
  constructor
  · rintro ⟨front, m, back, hsplit, hm, hbefore⟩
    obtain ⟨hcovers, hroute, hv⟩ := (ipv4Rule_verdict parses).mp hm
    cases hdir : m.direction with
    | redirect =>
      rw [hdir, if_pos rfl] at hv
      cases hv
      exact absurd rfl hmain
    | bypass =>
      rw [hdir, if_neg (by decide)] at hroute
      refine ⟨⟨front, m, back, hsplit, hdir, hcovers, ?_⟩, hroute⟩
      intro a ha hadir hacovers
      have hroute' : reaches routes (if a.direction = .redirect then newMark else rtTableMain)
          p.dst = true := by rwa [if_pos hadir]
      have heq := hbefore a ha _ ((ipv4Rule_verdict parses).mpr ⟨hacovers, hroute', rfl⟩)
      rw [if_pos hadir] at heq
      cases heq
      exact hmain rfl
  · rintro ⟨⟨front, m, back, hsplit, hdir, hcovers, hbefore⟩, hroute⟩
    have htable : (if m.direction = .redirect then newMark else rtTableMain) = rtTableMain := by
      rw [hdir, if_neg (by decide)]
    refine ⟨front, m, back, hsplit, (ipv4Rule_verdict parses).mpr ⟨hcovers, ?_, ?_⟩, ?_⟩
    · rwa [htable]
    · rw [htable]
    · intro a ha v hv
      obtain ⟨hacovers, _, rfl⟩ := (ipv4Rule_verdict parses).mp hv
      have hadir : a.direction ≠ .redirect := fun h => hbefore a ha h hacovers
      rw [if_neg hadir]

section

variable {oldMark : Option UInt32} {conf : State} {route : Option Route} {blocker : String}
  {dnsTable : UInt32} {net net' : Net}

/-- With the mark the mark's table is selected, whatever the entries say. Without
it the main table is, when of the entries for the destination a `bypass` one is
the first and the main table has a route. -/
theorem reload_lookup (parses : c.ParsesNets) (drawn : isRandTable newMark = true)
    (reloaded : reloadRules c newMark oldMark conf route net = some (true, blocker, net'))
    (before : ∀ rule ∈ (net.cleared oldMark).rules, rule.isFor p = true →
      rule.action = .toTbl ∧ rule.table = some dnsTable)
    (noDnsRoute : reaches net'.routes dnsTable p.dst = false)
    (foreign : ∀ link, route = some link → p.src ∉ link.addrs) :
    (p.mark = newMark → net'.lookup p = some (.route newMark)) ∧
      (p.mark ≠ newMark → (net'.lookup p = some (.route rtTableMain) ↔
        BypassFirst c conf.ms.entries p.dst ∧
          reaches net'.routes rtTableMain p.dst = true)) := by
  obtain ⟨henable, hrules, hroutes⟩ := reloadRules_eq reloaded
  obtain ⟨link, hlink⟩ := Option.isSome_iff_exists.mp henable.symm
  have hmain : newMark ≠ rtTableMain := (isRandTable_ne_main drawn).symm
  have hmark : newMark ≠ 0 := by
    rintro rfl
    exact absurd drawn (by decide)
  have hdefault : reaches net'.routes newMark p.dst = true := by
    have hmem : defaultRoute newMark link ∈ net'.routes := by
      rw [hroutes, reloadRoutes, hlink]
      exact List.mem_append_right _ List.mem_cons_self
    exact reaches_default hmem p.dst
  have hbefore : (net.cleared oldMark).rules.findSome? (·.verdict net'.routes p) = none := by
    refine List.findSome?_eq_none_iff.mpr fun rule hrule => ?_
    by_cases hfor : rule.isFor p = true
    · obtain ⟨haction, htable⟩ := before rule hrule hfor
      simp [FibRule.verdict, haction, htable, noDnsRoute]
    · simp [FibRule.verdict, hfor]
  have hsrc : (link.addrs.map (srcRule newMark)).findSome? (·.verdict net'.routes p) = none := by
    refine List.findSome?_eq_none_iff.mpr fun rule hrule => ?_
    obtain ⟨addr, haddr, rfl⟩ := List.mem_map.mp hrule
    have hne : p.src ≠ addr := by
      rintro rfl
      exact foreign link (usable_eq_some.mp hlink).1 haddr
    simp [FibRule.verdict, srcRule_isFor addr hne]
  have hlookup : net'.lookup p = ((markRule newMark).verdict net'.routes p).or
      (((conf.ms.entries.filterMap (ipv4Rule c newMark)).findSome? (·.verdict net'.routes p)).or
        ((if conf.config.allowLan then [] else [noLanRule newMark]).findSome?
          (·.verdict net'.routes p))) := by
    simp only [Net.lookup, hrules, reloadAdds, hlink, setupRules, List.findSome?_append,
      hbefore, hsrc, Option.none_or, List.findSome?_cons]
    cases (markRule newMark).verdict net'.routes p <;> rfl
  have hmarked : (markRule newMark).verdict net'.routes p =
      if p.mark = newMark then some (.route newMark) else none := by
    simp [FibRule.verdict, markRule, marked_isFor hmark, hdefault]
  constructor
  · intro hp
    rw [hlookup, hmarked, if_pos hp, Option.some_or]
  · intro hp
    have hlan : (if conf.config.allowLan then [] else [noLanRule newMark]).findSome?
        (·.verdict net'.routes p) = none := by
      split
      · rfl
      · simp [FibRule.verdict, noLanRule, marked_isFor hmark, hp]
    rw [hlookup, hmarked, if_neg hp, Option.none_or, hlan, Option.or_none]
    exact entries_lookup parses hmain hdefault conf.ms.entries

end

end

def hostRule (direction : Direction) : Match where
  pattern := "10.0.0.1"
  kind := .ipv4
  method := .full
  direction
  uid := 0

/-- One host by the main table, the rest of the marked packets by the output. -/
def hostState : State :=
  { State.default with enable := true, ms := ⟨[hostRule .bypass], 1, 0⟩ }

def hostLink : Route := ⟨true, 2, "wg0", [], none⟩

def hostNet : Net := ⟨[staticRule 70000], [⟨rtTableMain, ⟨0, 0⟩, 1, none, none⟩], []⟩

def hostReloaded : Net where
  rules := [staticRule 70000, markRule 70001, {
    action := .toTbl
    dst := some ⟨ipv4Addr 10 0 0 1, 32⟩
    fwmark := some 70001
    fwmask := some 0
    table := some rtTableMain
    priority := some 0 }]
  routes := [⟨rtTableMain, ⟨0, 0⟩, 1, none, none⟩, defaultRoute 70001 hostLink]
  nat := []

theorem hostNet_reloaded : reloadRules slashACrates 70001 none hostState (some hostLink) hostNet =
    some (true, "", hostReloaded) := by
  decide +kernel

def hostPacket (mark : UInt32) : Packet := ⟨0, ipv4Addr 10 0 0 1, mark⟩

theorem hostPacket_foreign (mark : UInt32) :
    ∀ link, some hostLink = some link → (hostPacket mark).src ∉ link.addrs := by
  intro link hlink
  cases hlink
  exact List.not_mem_nil

theorem reload_lookup_host :
    hostReloaded.lookup (hostPacket 0) = some (.route rtTableMain) ↔
      BypassFirst slashACrates hostState.ms.entries (hostPacket 0).dst ∧
        reaches hostReloaded.routes rtTableMain (hostPacket 0).dst = true := by
  have hbefore : ∀ rule ∈ (hostNet.cleared none).rules, rule.isFor (hostPacket 0) = true →
      rule.action = .toTbl ∧ rule.table = some 70000 := by
    intro rule hrule _
    cases List.mem_singleton.mp hrule
    exact ⟨rfl, rfl⟩
  exact (reload_lookup slashACrates_parsesNets (by decide) hostNet_reloaded hbefore (by decide)
    (hostPacket_foreign 0)).2 (by decide)

/-- What carries the mark takes the output, also to the host of a `bypass` entry. -/
theorem reload_not_lookup :
    ¬∀ {c : Crates} {newMark dnsTable : UInt32} {oldMark : Option UInt32} {conf : State}
      {route : Option Route} {net net' : Net} {blocker : String} {p : Packet} {m : Match},
      c.ParsesNets → isRandTable newMark = true →
      reloadRules c newMark oldMark conf route net = some (true, blocker, net') →
      (net.cleared oldMark).rules = [staticRule dnsTable] →
      reaches net'.routes dnsTable p.dst = false →
      (∀ link, route = some link → p.src ∉ link.addrs) →
      m ∈ conf.ms.entries → m.direction = .bypass → m.Covers c p.dst →
      net'.lookup p = some (.route rtTableMain) := by
  intro h
  have hcovers : (hostRule .bypass).Covers slashACrates (hostPacket 70001).dst :=
    ⟨rfl, ⟨ipv4Addr 10 0 0 1, 32⟩, by decide +kernel, by decide⟩
  have hmain := h slashACrates_parsesNets (by decide) hostNet_reloaded rfl (by decide)
    (hostPacket_foreign 70001) (List.mem_singleton_self (hostRule .bypass)) rfl hcovers
  exact absurd hmain (by decide)

end Rebpf
