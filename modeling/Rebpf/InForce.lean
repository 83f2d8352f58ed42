import Rebpf.Deletable
import Rebpf.ReloadRules

namespace Rebpf

open Lib

/-- The two parsers of networks agree on the IPv4 ones. -/
def Crates.ParsesNets (c : Crates) : Prop :=
  ∀ s n, c.parseIpv4Net s = .ok n ↔ c.parseIpNet s = .ok (.v4 n)

namespace Match

/-- The address or network that an entry of kind `ipv4` denotes. -/
def denoted (c : Crates) (m : Match) : Option IpNet :=
  match m.method with
  | .full => (parseIpv4Addr m.pattern).map fun addr => .v4 ⟨addr, 32⟩
  | .subnet => (c.parseIpNet m.pattern).toOption
  | _ => none

/-- The entries that the code which applies them has a use for. -/
def TakesEffect (c : Crates) (m : Match) : Prop :=
  match m.kind with
  | .ipv4 => m.method = .full ∨ ∃ n, c.parseIpNet m.pattern = .ok (.v4 n)
  | .basename | .path | .dns => m.pattern ≠ "" ∧ m.method ≠ .subnet

end Match

/-- An enabled reload has one rule for the entry at `i`, to the network and the
table of that entry, between the rules for the entries before and after it. -/
def InstallsRule (c : Crates) (ms : List Match) (i : Nat) (m : Match) : Prop :=
  ∀ {newMark : UInt32} {oldMark : Option UInt32} {conf : State} {route : Option Route}
    {net net' : Net} {blocker : String}, conf.ms.entries = ms →
    reloadRules c newMark oldMark conf route net = some (true, blocker, net') →
    ∃ link rule n, route = some link ∧ m.denoted c = some (.v4 n) ∧
      rule.dst = some ⟨n.network, n.prefixLen⟩ ∧ rule.src = none ∧ rule.action = .toTbl ∧
      rule.table = some (if m.direction = .redirect then newMark else rtTableMain) ∧
      net'.rules = (net.cleared oldMark).rules ++
        (link.addrs.map (srcRule newMark) ++ markRule newMark ::
          ((ms.take i).filterMap (ipv4Rule c newMark) ++
            rule :: (ms.drop (i + 1)).filterMap (ipv4Rule c newMark)) ++
          if conf.config.allowLan then [] else [noLanRule newMark])

/-- The code that applies the entries does not skip `m`, the entry at `i`. -/
def InForce (c : Crates) (ms : List Match) (i : Nat) (m : Match) : Prop :=
  match m.kind with
  | .ipv4 => InstallsRule c ms i m
  | .basename | .path => ∃ p, pathPattern c m = some p ∧
    (pathPatterns c ms).filter (·.2 == i) = [(p, i)]
  | .dns => ∃ p, dnsPattern c m = some p ∧ ∀ direction,
    (dnsPatterns c ms direction).filter (·.2 == i) =
      if m.direction = direction then [(p, i)] else []

section

variable {c : Crates} {e : Endian} {m : Match}

theorem methodRegex_isSome :
    (methodRegex c m).isSome = true ↔ m.pattern ≠ "" ∧ m.method ≠ .subnet := by
  unfold methodRegex
  by_cases hpattern : m.pattern = ""
  · simp [hpattern]
  · have hnonempty : m.pattern.isEmpty = false := by simpa using hpattern
    rw [hnonempty]
    cases hmethod : m.method <;> simp [hpattern]

theorem pathPattern_isSome (process : m.isPerProcess = true) :
    (pathPattern c m).isSome = (methodRegex c m).isSome := by
  unfold pathPattern
  cases methodRegex c m with
  | none => rfl
  | some method =>
    obtain hkind | hkind := isPerProcess_iff.mp process
    · rw [hkind]
      rfl
    · rw [hkind]
      rfl

theorem dnsPattern_isSome (dns : m.kind = .dns) :
    (dnsPattern c m).isSome = (methodRegex c m).isSome := by
  unfold dnsPattern
  rw [dns]
  cases methodRegex c m with
  | none => rfl
  | some method => rfl

/-- Of the numbered patterns those with the number `k + i` are of the entry at `i`. -/
theorem numbered_filter {f : Match → Option String} (ms : List Match) (k i : Nat) :
    ((ms.zipIdx k).filterMap fun r => (f r.1).map (·, r.2)).filter (·.2 == k + i) =
      (ms[i]?.bind fun m => (f m).map (·, k + i)).toList := by
  induction ms generalizing k i with
  | nil => rfl
  | cons m ms ih =>
    rw [List.zipIdx_cons]
    cases i with
    | zero =>
      have hlater : ((ms.zipIdx (k + 1)).filterMap fun r => (f r.1).map (·, r.2)).filter
          (·.2 == k) = [] := by
        rw [List.filter_eq_nil_iff]
        intro r hr
        obtain ⟨⟨a, j⟩, hzip, ha⟩ := List.mem_filterMap.mp hr
        have hj := (List.mk_mem_zipIdx_iff_le_and_getElem?_sub.mp hzip).1
        obtain ⟨p, _, rfl⟩ := Option.map_eq_some_iff.mp ha
        have hne : j ≠ k := by omega
        simpa using hne
      cases hm : f m with
      | none => simpa [hm] using hlater
      | some p => simpa [hm] using hlater
    | succ i =>
      have hadd : k + (i + 1) = k + 1 + i := by omega
      rw [hadd, List.getElem?_cons_succ, ← ih (k + 1) i]
      cases hm : f m with
      | none => simp [hm]
      | some p =>
        have hne : k ≠ k + 1 + i := by omega
        simp [hm, hne]

theorem Ipv4Net.network_host (addr : UInt32) : (⟨addr, 32⟩ : Ipv4Net).network = addr := by
  unfold Ipv4Net.network
  simp

/-- A new entry of kind `ipv4` is accepted when it denotes something. -/
theorem tryParse_ipv4_ok (ms : Matches) (ipv4 : m.kind = .ipv4) :
    (ms.tryParse c e m).1 = .ok () ↔ ∃ n, m.denoted c = some n := by
  unfold Matches.tryParse Match.denoted
  rw [ipv4]
  cases hmethod : m.method with
  | full =>
    cases parseIpv4Addr m.pattern with
    | none => simp [orErr]
    | some addr => simp [orErr]
  | subnet =>
    cases c.parseIpNet m.pattern with
    | error msg => simp [Except.map, Except.mapError, Except.toOption]
    | ok n => simp [Except.map, Except.mapError, Except.toOption]
  | substring => simp
  | prefixOf => simp
  | suffix => simp
  | regex => simp

theorem denoted_v4_iff {n : IpNet} (h : m.denoted c = some n) :
    (∃ n, m.denoted c = some (.v4 n)) ↔
      m.method = .full ∨ ∃ n, c.parseIpNet m.pattern = .ok (.v4 n) := by
  unfold Match.denoted at h ⊢
  cases hmethod : m.method with
  | full =>
    rw [hmethod] at h
    obtain ⟨addr, haddr, _⟩ := Option.map_eq_some_iff.mp h
    exact iff_of_true ⟨⟨addr, 32⟩, by simp [haddr]⟩ (Or.inl rfl)
  | subnet =>
    cases hparse : c.parseIpNet m.pattern with
    | error msg => simp [Except.toOption]
    | ok n => simp [Except.toOption]
  | substring => simp [hmethod] at h
  | prefixOf => simp [hmethod] at h
  | suffix => simp [hmethod] at h
  | regex => simp [hmethod] at h

/-- Where the rule of an entry leads is the network the entry denotes, if it is of IPv4. -/
theorem ipv4Dest_iff (parses : c.ParsesNets) {dst : Ipv4Net} :
    ipv4Dest c m = some dst ↔ m.kind = .ipv4 ∧
      ∃ n, m.denoted c = some (.v4 n) ∧ dst = ⟨n.network, n.prefixLen⟩ := by
  by_cases ipv4 : m.kind = .ipv4
  · unfold ipv4Dest Match.denoted
    rw [if_neg (not_not.mpr ipv4)]
    simp only [ipv4, true_and]
    cases hmethod : m.method with
    | full =>
      cases haddr : parseIpv4Addr m.pattern with
      | none => simp
      | some addr => simp [Ipv4Net.network_host, eq_comm]
    | subnet =>
      cases hnet : c.parseIpv4Net m.pattern with
      | error msg =>
        have hother : ∀ n, c.parseIpNet m.pattern ≠ .ok (.v4 n) := by
          intro n hn
          rw [(parses m.pattern n).mpr hn] at hnet
          cases hnet
        cases hparse : c.parseIpNet m.pattern with
        | error msg' => simp [Except.toOption]
        | ok net =>
          rw [hparse] at hother
          simp only [ne_eq, Except.ok.injEq] at hother
          simp [Except.toOption, hother]
      | ok n =>
        rw [(parses m.pattern n).mp hnet]
        simp [Except.toOption, eq_comm]
    | substring => simp
    | prefixOf => simp
    | suffix => simp
    | regex => simp
  · simp [ipv4Dest, ipv4]

theorem newRules_some {α : Type} {f : α → FibRule} (xs : List α) (net : Net) :
    ∃ net', xs.foldlM (fun net x => net.newRule false (f x)) net = some net' := by
  induction xs generalizing net with
  | nil => exact ⟨net, rfl⟩
  | cons x xs ih =>
    obtain ⟨net', hrest⟩ := ih { net with rules := net.rules ++ [f x] }
    exact ⟨net', hrest⟩

/-- With no rules and routes at all an output that has no address can be set up. -/
theorem reloadRules_bare {conf : State} (enable : conf.enable = true)
    (lan : conf.config.allowLan = true) (newMark ifindex : UInt32) : ∃ net',
    reloadRules c newMark none conf (some ⟨true, ifindex, "", [], none⟩) ⟨[], [], []⟩ =
      some (true, "", net') := by
  obtain ⟨net, hnet⟩ := newRules_some (f := fun rule => rule)
    (conf.ms.entries.filterMap (ipv4Rule c newMark)) ⟨[markRule newMark], [], []⟩
  have hempty : net.routes = [] := by rw [newRules_eq hnet]
  have hmark : (⟨[], [], []⟩ : Net).newRule true (markRule newMark) =
      some ⟨[markRule newMark], [], []⟩ := rfl
  have hroute : ∀ route, net.newRoute route = some { net with routes := [route] } := by
    intro route
    rw [Net.newRoute, hempty]
    rfl
  simp [reloadRules, Option.filter, enable, setupOutput, hmark, hnet, hroute, lan]

theorem installsRule_iff (parses : c.ParsesNets) (ipv4 : m.kind = .ipv4) {ms : List Match} {i : Nat}
    (hm : ms[i]? = some m) : InstallsRule c ms i m ↔ ∃ n, m.denoted c = some (.v4 n) := by
  constructor
  · intro installs
    obtain ⟨net', hreload⟩ := @reloadRules_bare c { State.default with
      enable := true, ms := { Matches.default with entries := ms } } rfl rfl 0 0
    obtain ⟨_, _, n, _, hn, _⟩ := installs rfl hreload
    exact ⟨n, hn⟩
  · rintro ⟨n, hn⟩
    intro newMark oldMark conf route net net' blocker hentries hreload
    obtain ⟨henable, hrules, _⟩ := reloadRules_eq hreload
    obtain ⟨link, hlink⟩ := Option.isSome_iff_exists.mp henable.symm
    obtain ⟨hi, hget⟩ := List.getElem?_eq_some_iff.mp hm
    have hdest := (ipv4Dest_iff parses).mpr ⟨ipv4, n, hn, rfl⟩
    obtain ⟨rule, hrule⟩ : ∃ rule, ipv4Rule c newMark m = some rule := by
      rw [ipv4Rule, hdest]
      exact ⟨_, rfl⟩
    have hsplit : ms = ms.take i ++ m :: ms.drop (i + 1) := by
      rw [← hget, List.getElem_cons_drop, List.take_append_drop]
    have hfilter : ms.filterMap (ipv4Rule c newMark) = (ms.take i).filterMap (ipv4Rule c newMark) ++
        rule :: (ms.drop (i + 1)).filterMap (ipv4Rule c newMark) := by
      conv_lhs => rw [hsplit]
      rw [List.filterMap_append, List.filterMap_cons_some hrule]
    refine ⟨link, rule, n, (usable_eq_some.mp hlink).1, hn, ?_⟩
    rw [ipv4Rule, hdest] at hrule
    cases hrule
    refine ⟨rfl, rfl, rfl, ?_, ?_⟩
    · cases m.direction <;> rfl
    · rw [hrules, reloadAdds, hlink, ← hfilter, ← hentries]
      rfl

/-- A per-process entry has its one pattern if its text is one. -/
theorem pathInForce_iff (process : m.isPerProcess = true) {later : List Match} {i : Nat}
    (hm : later[i]? = some m) :
    (∃ p, pathPattern c m = some p ∧ (pathPatterns c later).filter (·.2 == i) = [(p, i)]) ↔
      m.pattern ≠ "" ∧ m.method ≠ .subnet := by
  have hfilter := numbered_filter (f := pathPattern c) later 0 i
  rw [Nat.zero_add, hm] at hfilter
  rw [← methodRegex_isSome (c := c), ← pathPattern_isSome process]
  constructor
  · rintro ⟨p, hp, _⟩
    rw [hp]
    rfl
  · intro hsome
    obtain ⟨p, hp⟩ := Option.isSome_iff_exists.mp hsome
    refine ⟨p, hp, hfilter.trans ?_⟩
    rw [Option.bind_some, hp]
    rfl

/-- A `dns` entry has its one pattern, among those of its own direction. -/
theorem dnsInForce_iff (hkind : m.kind = .dns) {later : List Match} {i : Nat}
    (hm : later[i]? = some m) :
    (∃ p, dnsPattern c m = some p ∧ ∀ direction,
      (dnsPatterns c later direction).filter (·.2 == i) =
        if m.direction = direction then [(p, i)] else []) ↔
      m.pattern ≠ "" ∧ m.method ≠ .subnet := by
  have hfilter : ∀ direction, (dnsPatterns c later direction).filter (·.2 == i) =
      ((if m.direction = direction then dnsPattern c m else none).map (·, i)).toList := by
    intro direction
    have hfilter := numbered_filter (f := fun r =>
      if r.direction = direction then dnsPattern c r else none) later 0 i
    rw [Nat.zero_add, hm, ← dnsPatterns_eq] at hfilter
    exact hfilter
  rw [← methodRegex_isSome (c := c), ← dnsPattern_isSome hkind]
  constructor
  · rintro ⟨p, hp, _⟩
    rw [hp]
    rfl
  · intro hsome
    obtain ⟨p, hp⟩ := Option.isSome_iff_exists.mp hsome
    refine ⟨p, hp, fun direction => (hfilter direction).trans ?_⟩
    by_cases hdir : m.direction = direction
    · rw [if_pos hdir, if_pos hdir, hp]
      rfl
    · rw [if_neg hdir, if_neg hdir]
      rfl

/-- An entry that is accepted is the last of the list, and wherever it comes to
stand in a later list, it is in force there if it is one that takes effect. -/
theorem add_inForce_iff (parses : c.ParsesNets) {ms ms' : Matches}
    (accepted : ms.add c e m = (.ok (), ms')) :
    ms'.entries[ms.entries.length]? = some m ∧
      ∀ {later : List Match} {i : Nat}, later[i]? = some m →
        (InForce c later i m ↔ m.TakesEffect c) := by
  obtain ⟨msg, h⟩ | ⟨_, h⟩ | ⟨htry, h⟩ := Matches.add_cases c e ms m
  · rw [h] at accepted
    cases accepted
  · rw [h] at accepted
    cases accepted
  rw [h] at accepted
  cases accepted
  refine ⟨List.getElem?_concat_length, ?_⟩
  intro later i hm
  cases hkind : m.kind with
  | basename =>
    rw [InForce, Match.TakesEffect, hkind]
    exact pathInForce_iff (isPerProcess_iff.mpr (Or.inl hkind)) hm
  | path =>
    rw [InForce, Match.TakesEffect, hkind]
    exact pathInForce_iff (isPerProcess_iff.mpr (Or.inr hkind)) hm
  | ipv4 =>
    rw [InForce, Match.TakesEffect, hkind]
    obtain ⟨n, hn⟩ := (tryParse_ipv4_ok (c := c) (e := e) ms hkind).mp (by rw [htry])
    exact (installsRule_iff parses hkind hm).trans (denoted_v4_iff hn)
  | dns =>
    rw [InForce, Match.TakesEffect, hkind]
    exact dnsInForce_iff hkind hm

end

theorem slashACrates_parsesNets : slashACrates.ParsesNets := by
  intro s n
  constructor
  · intro h
    cases h
  · intro h
    cases h

/-- The parsers of networks on one IPv4 network. -/
def officeCrates : Crates :=
  { slashACrates with
    parseIpNet := fun s => if s = "10.1.0.0/16" then .ok (.v4 ⟨ipv4Addr 10 1 0 0, 16⟩)
      else .error "invalid IP address syntax"
    parseIpv4Net := fun s => if s = "10.1.0.0/16" then .ok ⟨ipv4Addr 10 1 0 0, 16⟩
      else .error "invalid IP address syntax" }

theorem officeCrates_parsesNets : officeCrates.ParsesNets := by
  intro s n
  by_cases hs : s = "10.1.0.0/16"
  · simp [officeCrates, hs]
  · simp [officeCrates, hs]

def officeRule : Match where
  pattern := "10.1.0.0/16"
  kind := .ipv4
  method := .subnet
  direction := .bypass
  uid := 0

/-- A network is accepted behind a path, and is in force behind two of them. -/
theorem add_inForce_iff_slashA :
    InForce officeCrates [slashARule .redirect 0, slashARule .bypass 7, officeRule] 2
      officeRule := by
  have accepted : Matches.add officeCrates .little ⟨[slashARule .redirect 0], 1, 0⟩ officeRule =
      (.ok (), ⟨[slashARule .redirect 0, officeRule], 2, 0⟩) := rfl
  obtain ⟨_, hiff⟩ := add_inForce_iff officeCrates_parsesNets accepted
  rw [hiff rfl]
  exact Or.inr ⟨_, rfl⟩

/-- The parsers of networks on one IPv6 network. -/
def linkLocalCrates : Crates :=
  { slashACrates with
    parseIpNet := fun s => if s = "fe80::/10" then .ok (.v6 (0xfe80#128 <<< 112) 10)
      else .error "invalid IP address syntax" }

def linkLocalRule : Match where
  pattern := "fe80::/10"
  kind := .ipv4
  method := .subnet
  direction := .redirect
  uid := 0

/-- An IPv6 network is accepted as an entry of kind `ipv4` and gets no rule. -/
theorem add_not_inForce :
    ¬∀ {c : Crates} {e : Endian} {m : Match} {ms ms' : Matches}, c.ParsesNets →
      ms.add c e m = (.ok (), ms') → InForce c ms'.entries ms.entries.length m := by
  intro h
  have parses : linkLocalCrates.ParsesNets := by
    intro s n
    by_cases hs : s = "fe80::/10"
    · simp [linkLocalCrates, slashACrates, hs]
    · simp [linkLocalCrates, slashACrates, hs]
  have accepted : Matches.default.add linkLocalCrates .little linkLocalRule =
      (.ok (), ⟨[linkLocalRule], 1, 0⟩) := rfl
  have installs := (installsRule_iff parses rfl rfl).mp (h parses accepted)
  obtain ⟨n, hn⟩ := installs
  cases hn

end Rebpf
