import Rebpf.OwnedNet

namespace Rebpf

open Lib

namespace Net

def setupStaticRules (net : Net) (dnsTable : UInt32) : Option Net :=
  net.newRule true (staticRule dnsTable)

def clearStaticRules (net : Net) (dnsTable : UInt32) : Net :=
  let net := net.clearTable dnsTable
  { net with rules := delRules (fun r => r.table == some dnsTable) 1000 net.rules }

/-- What `run` does when one of its tasks has ended. -/
def shutdown (net : Net) (mark : Option UInt32) (dnsTable : UInt32) : Net :=
  (net.cleared mark).clearStaticRules dnsTable

/-- What is in the DNS table makes no difference to that. -/
theorem WithinTable.shutdown {table : UInt32} {net net' : Net} (h : net.WithinTable table net')
    (mark : Option UInt32) : net'.shutdown mark table = net.shutdown mark table := by
  obtain ⟨rules, routes, nat⟩ := net
  obtain ⟨rules', routes', nat'⟩ := net'
  obtain ⟨hrules, hnat, hroutes⟩ := h
  dsimp only at hrules hnat hroutes
  subst hrules hnat
  cases mark with
  | none => simp only [Net.shutdown, cleared, clearStaticRules, clearTable, hroutes]
  | some m =>
    have hcleared : (routes'.filter (·.table != m)).filter (·.table != table) =
        (routes.filter (·.table != m)).filter (·.table != table) := by
      rw [List.filter_comm, hroutes, List.filter_comm]
    simp only [Net.shutdown, cleared, clearStaticRules, clearRules, clearTable, hcleared]

end Net

namespace DnsState

variable {c : Crates} {dc : DnsCrates} {ctx : DnsCtx} {now : Nat} {dns dns' : DnsState}
  {net mid net' : Net} {table : UInt32}

end DnsState

section

variable {keys : List UInt32} {key : UInt32}

theorem Net.others_clearStaticRules (h : key ∈ keys) (net : Net) :
    (net.clearStaticRules key).others keys = net.others keys := by
  have htable : ∀ rule : FibRule, (rule.table == some key) = true →
      keys.any (rule.keyedBy ·) = true := fun rule hrule =>
    FibRule.any_keyedBy h (by simp [FibRule.keyedBy, hrule])
  have hroutes := Net.others_clearTable h net
  simp only [Net.others] at hroutes ⊢
  simp only [Net.clearStaticRules, Net.others_delRules htable]
  exact hroutes

end

/-- What the daemon holds of the host's configuration: the rules of its current mark, so
few that one clearing deletes them, its own routes and the rule to the DNS table. The rest
is the host's. -/
structure Held (host : Net) (table : UInt32) (marks : List UInt32) (mark : Option UInt32)
    (net : Net) (routes : List FibRoute) : Prop where
  others : net.others (table :: marks) = { host with routes }
  away : ∀ m ∈ marks, mark ≠ some m → net.Without m
  few : ∀ m, mark = some m → net.rules.countP (·.keyedBy m) ≤ 1000
  known : ∀ m, mark = some m → m ∈ marks
  static : net.rules.countP (·.table == some table) ≤ 1000
  unmarked : ∀ rule ∈ net.rules, rule.fwmark ≠ some table
  untranslated : ∀ r ∈ net.nat, r.mark ≠ table

/-- The table and the marks are different ones, and none is the main table. -/
structure Drawn (table : UInt32) (marks : List UInt32) : Prop where
  apart : table ∉ marks
  drawn : ∀ key ∈ table :: marks, isRandTable key = true

section

variable {host net net' : Net} {table : UInt32} {marks : List UInt32} {mark : Option UInt32}
  {routes : List FibRoute}

theorem Net.Without.clearRules {m : UInt32} (h : net.Without m) (old : UInt32) :
    (net.clearRules old).Without m :=
  ⟨h.unkeyed.clearRules old, fun r hr => h.nat r (List.mem_filter.mp hr).1⟩

theorem Held.cleared_without (h : Held host table marks mark net routes) {m : UInt32}
    (hm : m ∈ marks) : (net.cleared mark).Without m := by
  cases mark with
  | none => exact h.away m hm (by simp)
  | some old =>
    by_cases heq : old = m
    · subst heq
      exact ⟨Net.clearRules_unkeyed (h.few old rfl), fun r hr => by
        simpa using (List.mem_filter.mp hr).2⟩
    · exact (h.away m hm (by simpa using heq)).clearRules old

theorem cleared_sublist (mark : Option UInt32) (net : Net) :
    (net.cleared mark).rules.Sublist net.rules := by
  cases mark with
  | none => exact List.Sublist.refl _
  | some old => exact delRules_sublist.trans delRules_sublist

theorem cleared_nat {r : NatRule} (h : r ∈ (net.cleared mark).nat) : r ∈ net.nat := by
  cases mark with
  | none => exact h
  | some old => exact (List.mem_filter.mp h).1

/-- An iteration holds no more than the rules it has added, wherever it is broken off. -/
theorem Held.adds {newMark : UInt32} {rules : List FibRule}
    (h : Held host table marks mark net routes) (drawn : Drawn table marks) (hmark : newMark ∈ marks)
    (adds : Net.Adds newMark rules (net.cleared mark) net') (few : rules.length ≤ 1000) :
    Held host table marks (some newMark) net' routes := by
  have hkeys : newMark ∈ table :: marks := List.mem_cons_of_mem _ hmark
  have hne : table ≠ newMark := by
    rintro rfl
    exact drawn.apart hmark
  have hmain : ∀ key ∈ table :: marks, rtTableMain ≠ key := fun key hkey =>
    isRandTable_ne_main (drawn.drawn key hkey)
  refine ⟨?_, fun m hm hother => ?_, fun m hm => ?_, fun m hm => ?_, ?_, fun rule hrule => ?_,
    fun r hr => ?_⟩
  · rw [adds.others hkeys, Net.others_cleared (fun m hm => List.mem_cons_of_mem _ (h.known m hm))]
    exact h.others
  · have hmne : newMark ≠ m := fun heq => hother (congrArg some heq)
    have hwithout := h.cleared_without hm
    obtain ⟨routes', hroutes, htable⟩ := adds.routes
    obtain ⟨nat, hnat, hnats⟩ := adds.nat
    refine ⟨⟨fun rule hrule => ?_, fun r hr => ?_⟩, fun r hr => ?_⟩
    · rw [adds.rules] at hrule
      obtain hrule | hrule := List.mem_append.mp hrule
      · exact hwithout.unkeyed.rules rule hrule
      · obtain ⟨_, htable, hfwmark⟩ := adds.keyed rule hrule
        have hmain := hmain m (List.mem_cons_of_mem _ hm)
        rcases htable with htable | htable <;> rcases hfwmark with hfwmark | hfwmark <;>
          simp [FibRule.keyedBy, htable, hfwmark, hmne, hmain]
    · rw [hroutes] at hr
      obtain hr | hr := List.mem_append.mp hr
      · exact hwithout.unkeyed.routes r hr
      · exact fun heq => hmne ((htable r hr).symm.trans heq)
    · rw [hnat] at hr
      obtain hr | hr := List.mem_append.mp hr
      · exact fun heq => hmne ((hnats r hr).symm.trans heq)
      · exact hwithout.nat r hr
  · obtain rfl := Option.some.inj hm
    have hnone : (net.cleared mark).rules.countP (·.keyedBy newMark) = 0 :=
      List.countP_eq_zero.mpr fun rule hrule => by
        simp [(h.cleared_without hmark).unkeyed.rules rule hrule]
    rw [adds.rules, List.countP_append, hnone]
    have hle := List.countP_le_length (p := fun rule : FibRule => rule.keyedBy newMark) (l := rules)
    omega
  · obtain rfl := Option.some.inj hm
    exact hmark
  · have hnone : rules.countP (·.table == some table) = 0 := by
      refine List.countP_eq_zero.mpr fun rule hrule => ?_
      obtain htable | htable := (adds.keyed rule hrule).table
      · simpa [htable] using hne.symm
      · simpa [htable] using hmain table List.mem_cons_self
    rw [adds.rules, List.countP_append, hnone]
    exact (cleared_sublist mark net).countP_le.trans h.static
  · rw [adds.rules] at hrule
    obtain hrule | hrule := List.mem_append.mp hrule
    · exact h.unmarked rule ((cleared_sublist mark net).subset hrule)
    · obtain hfwmark | hfwmark := (adds.keyed rule hrule).fwmark
      · simp [hfwmark]
      · simpa [hfwmark] using hne.symm
  · obtain ⟨nat, hnat, hnats⟩ := adds.nat
    rw [hnat] at hr
    obtain hr | hr := List.mem_append.mp hr
    · exact fun heq => hne (heq.symm.trans (hnats r hr))
    · exact h.untranslated r (cleared_nat hr)

/-- What happens in the DNS table is no one's concern. -/
theorem Held.withinTable (h : Held host table marks mark net routes) (apart : table ∉ marks)
    (within : Net.WithinTable table net net') : Held host table marks mark net' routes := by
  obtain ⟨hrules, hnat, hroutes⟩ := within
  have hothers : ∀ routes : List FibRoute, routes.filter (fun r => !(table :: marks).contains r.table) =
      (routes.filter (·.table != table)).filter fun r => !marks.contains r.table := by
    intro routes
    rw [List.filter_filter]
    refine List.filter_congr fun r _ => ?_
    rw [List.contains_cons, Bool.not_or, Bool.and_comm]
    rfl
  refine ⟨?_, fun m hm hne => ⟨⟨?_, fun r hr heq => ?_⟩, ?_⟩, ?_, h.known, ?_, ?_, ?_⟩
  · have hsame : net'.others (table :: marks) = net.others (table :: marks) := by
      simp only [Net.others, hrules, hnat, hothers, hroutes]
    rw [hsame]
    exact h.others
  · rw [hrules]
    exact (h.away m hm hne).unkeyed.rules
  · have hmne : m ≠ table := by
      rintro rfl
      exact apart hm
    have hmem : r ∈ net.routes.filter (·.table != table) := by
      rw [← hroutes]
      exact List.mem_filter.mpr ⟨hr, by simpa [heq] using hmne⟩
    exact (h.away m hm hne).unkeyed.routes r (List.mem_filter.mp hmem).1 heq
  · rw [hnat]
    exact (h.away m hm hne).nat
  · rw [hrules]
    exact h.few
  · rw [hrules]
    exact h.static
  · rw [hrules]
    exact h.unmarked
  · rw [hnat]
    exact h.untranslated

/-- The last clearing, of this mark or another one, leaves the host's configuration and what
still goes by the marks that were not cleared. -/
theorem Held.shutdown_left (h : Held host table marks mark net routes) (drawn : Drawn table marks)
    {last : Option UInt32} {left : List UInt32} (known : ∀ m, last = some m → m ∈ marks)
    (sub : left ⊆ marks) (cleared : ∀ m ∈ marks, m ∉ left → (net.cleared last).Without m) :
    (net.shutdown last table).others left = { host with routes } := by
  have hothers : (net.shutdown last table).others (table :: marks) = { host with routes } := by
    rw [Net.shutdown, Net.others_clearStaticRules List.mem_cons_self,
      Net.others_cleared (fun m hm => List.mem_cons_of_mem _ (known m hm))]
    exact h.others
  have hsublist : (net.shutdown last table).rules.Sublist (net.cleared last).rules :=
    delRules_sublist
  have hcount : (net.cleared last).rules.countP (·.table == some table) ≤ 1000 :=
    (cleared_sublist last net).countP_le.trans h.static
  rw [← hothers]
  refine Net.others_left (fun m hm => List.mem_cons_of_mem _ (sub hm))
    (fun rule hrule key hkey hleft => ?_) (fun r hr hkey => ?_) (fun r hr hkey => ?_)
  · obtain rfl | hkey := List.mem_cons.mp hkey
    · have htable := delRules_clears hcount rule hrule
      have hfwmark := h.unmarked rule ((cleared_sublist last net).subset (hsublist.subset hrule))
      simpa [FibRule.keyedBy, hfwmark] using htable
    · exact (cleared key hkey hleft).unkeyed.rules rule (hsublist.subset hrule)
  · obtain ⟨hr, htable⟩ := List.mem_filter.mp hr
    obtain heq | hkey := List.mem_cons.mp hkey
    · simp [heq] at htable
    · by_contra hleft
      exact (cleared r.table hkey hleft).unkeyed.routes r hr rfl
  · obtain heq | hkey := List.mem_cons.mp hkey
    · exact absurd heq (h.untranslated r (cleared_nat hr))
    · by_contra hleft
      exact (cleared r.mark hkey hleft).nat r hr rfl

/-- The last clearing leaves the host's configuration. -/
theorem Held.shutdown (h : Held host table marks mark net routes) (drawn : Drawn table marks) :
    net.shutdown mark table = { host with routes } := by
  have hleft : (net.shutdown mark table).others [] = { host with routes } :=
    h.shutdown_left drawn h.known (List.nil_subset _) fun m hm _ => h.cleared_without hm
  rwa [Net.others_nil] at hleft

theorem Net.Drops.without {old m : UInt32} (drops : Net.Drops old net net') (h : net.Without m) :
    net'.Without m :=
  ⟨⟨fun rule hrule => h.unkeyed.rules rule (drops.rules.subset hrule),
      fun r hr => h.unkeyed.routes r (drops.routes.subset hr)⟩,
    fun r hr => h.nat r (drops.nat.subset hr)⟩

/-- A clearing that is broken off holds no more than what was there before it. -/
theorem Held.drops {m : UInt32} (h : Held host table marks mark net routes) (hm : m ∈ marks)
    (drops : Net.Drops m net net') : Held host table marks mark net' routes := by
  have hothers : net'.others (table :: marks) = net.others (table :: marks) := by
    have sub : [m] ⊆ table :: marks := by simp [hm]
    rw [← Net.others_others sub net', drops.others, Net.others_others sub]
  refine ⟨hothers.trans h.others, fun m' hm' hother => drops.without (h.away m' hm' hother),
    fun m' hm' => ?_, h.known, ?_, fun rule hrule => ?_, fun r hr => ?_⟩
  · exact drops.rules.countP_le.trans (h.few m' hm')
  · exact drops.rules.countP_le.trans h.static
  · exact h.unmarked rule (drops.rules.subset hrule)
  · exact h.untranslated r (drops.nat.subset hr)

/-- The next mark is drawn, and the clearing of the one before is broken off: what is left of
it stays, and nothing else. -/
theorem Held.broken {old newMark : UInt32} (h : Held host table marks (some old) net routes)
    (drawn : Drawn table marks) (hmark : newMark ∈ marks) (drops : Net.Drops old net net') :
    (net'.shutdown (some newMark) table).others [old] = { host with routes } := by
  have hold := h.known old rfl
  refine (h.drops hold drops).shutdown_left drawn ?_ (by simpa using hold) fun m hm hleft => ?_
  · rintro _ ⟨⟩
    exact hmark
  · have hne : some old ≠ some m := by
      rintro ⟨⟩
      exact hleft List.mem_cons_self
    exact (drops.without (h.away m hm hne)).clearRules newMark

theorem Held.start (apart : table ∉ marks) (fresh : ∀ key ∈ table :: marks, host.Without key)
    (setup : host.setupStaticRules table = some net) :
    Held host table marks none net host.routes := by
  have hadded := newRule_eq setup
  have hself : ∀ rule ∈ host.rules, ¬(table :: marks).any (rule.keyedBy ·) = true := by
    intro rule hrule hany
    obtain ⟨key, hkey, hby⟩ := List.any_eq_true.mp hany
    rw [(fresh key hkey).unkeyed.rules rule hrule] at hby
    cases hby
  have hrules : host.rules.filter (fun r => !(table :: marks).any (r.keyedBy ·)) = host.rules :=
    List.filter_eq_self.mpr fun rule hrule => by simpa using hself rule hrule
  have hown : (staticRule table).keyedBy table = true := by simp [FibRule.keyedBy, staticRule]
  have hdns : [staticRule table].filter (fun r => !(table :: marks).any (r.keyedBy ·)) = [] := by
    refine List.filter_eq_nil_iff.mpr fun rule hrule => ?_
    obtain rfl := List.mem_singleton.mp hrule
    simp [hown]
  have hroutes : host.routes.filter (fun r => !(table :: marks).contains r.table) = host.routes :=
    List.filter_eq_self.mpr fun r hr => by
      rw [Bool.not_eq_true', ← Bool.not_eq_true, List.contains_iff_mem]
      exact fun hmem => (fresh r.table hmem).unkeyed.routes r hr rfl
  have hnat : host.nat.filter (fun r => !(table :: marks).contains r.mark) = host.nat :=
    List.filter_eq_self.mpr fun r hr => by
      rw [Bool.not_eq_true', ← Bool.not_eq_true, List.contains_iff_mem]
      exact fun hmem => (fresh r.mark hmem).nat r hr rfl
  have hhost : ∀ rule ∈ host.rules, rule.keyedBy table = false :=
    (fresh table List.mem_cons_self).unkeyed.rules
  have hnone : host.rules.countP (·.table == some table) = 0 :=
    List.countP_eq_zero.mpr fun rule hrule htable => by
      simpa [FibRule.keyedBy, htable] using hhost rule hrule
  subst hadded
  refine ⟨?_, fun m hm _ => ⟨⟨fun rule hrule => ?_, ?_⟩, ?_⟩, by simp, by simp, ?_,
    fun rule hrule => ?_, (fresh table List.mem_cons_self).nat⟩
  · simp only [Net.others, List.filter_append, hrules, hdns, hroutes, hnat, List.append_nil]
  · obtain hrule | hrule := List.mem_append.mp hrule
    · exact (fresh m (List.mem_cons_of_mem _ hm)).unkeyed.rules rule hrule
    · obtain rfl := List.mem_singleton.mp hrule
      have hne : table ≠ m := by
        rintro rfl
        exact apart hm
      simpa [FibRule.keyedBy, staticRule] using hne
  · exact (fresh m (List.mem_cons_of_mem _ hm)).unkeyed.routes
  · exact (fresh m (List.mem_cons_of_mem _ hm)).nat
  · rw [List.countP_append, hnone]
    exact Nat.le_trans (Nat.add_le_add_left List.countP_le_length 0) (by simp)
  · obtain hrule | hrule := List.mem_append.mp hrule
    · intro hfwmark
      simpa [FibRule.keyedBy, hfwmark] using hhost rule hrule
    · obtain rfl := List.mem_singleton.mp hrule
      simp [staticRule]

/-- What the host adds or deletes in the main table is its own. -/
theorem Held.hosted {routes' : List FibRoute} {net' : Net}
    (h : Held host table marks mark net routes)
    (rules : net'.rules = net.rules) (nat : net'.nat = net.nat)
    (filtered : net.routes.filter (fun r => !(table :: marks).contains r.table) = routes →
      net'.routes.filter (fun r => !(table :: marks).contains r.table) = routes')
    (own : ∀ r ∈ net'.routes, r ∈ net.routes ∨ r.table ∉ table :: marks) :
    Held host table marks mark net' routes' := by
  have hothers := h.others
  simp only [Net.others] at hothers
  obtain ⟨hrules, hroutes, hnat⟩ := Net.mk.inj hothers
  refine ⟨?_, fun m hm hne => ⟨⟨?_, fun r hr heq => ?_⟩, ?_⟩, ?_, h.known, ?_, ?_, ?_⟩
  · simp only [Net.others, rules, nat, filtered hroutes, hrules, hnat]
  · rw [rules]
    exact (h.away m hm hne).unkeyed.rules
  · obtain hr | hr := own r hr
    · exact (h.away m hm hne).unkeyed.routes r hr heq
    · exact hr (heq ▸ List.mem_cons_of_mem _ hm)
  · rw [nat]
    exact (h.away m hm hne).nat
  · rw [rules]
    exact h.few
  · rw [rules]
    exact h.static
  · rw [rules]
    exact h.unmarked
  · rw [nat]
    exact h.untranslated

theorem Drawn.main_notMem (drawn : Drawn table marks) : rtTableMain ∉ table :: marks := fun hmem =>
  isRandTable_ne_main (drawn.drawn _ hmem) rfl

end

/-- The marks that are drawn. -/
def drawnMarks : List SystemEvent → List UInt32
  | [] => []
  | .reloadWake newMark :: events => newMark :: drawnMarks events
  | _ :: events => drawnMarks events

/-- What others do to the routes of the main table. -/
def hostRoutes (routes : List FibRoute) : SystemEvent → List FibRoute
  | .routeAdded route => routes ++ [route]
  | .routeDeleted route => routes.erase route
  | _ => routes

namespace System

/-- An iteration has at most 1000 rules to add. -/
def Few (c : Crates) (s : System) : SystemEvent → Prop
  | .reloadRules => ∀ newMark, s.reloadLoop.phase = .woken newMark →
      (reloadAdds c newMark s.conf.value s.routes.value).length ≤ 1000
  | _ => True

/-- Where `run` may come to its end: a task has ended and the others are dropped at their
await points, or a request of `watch_reload` has failed, done or not. With the mark that is
cleared then goes the one whose own clearing was broken off. Of their requests to the DNS
table, the other tasks may have made any. -/
inductive Stops (c : Crates) (s : System) : Option UInt32 → List UInt32 → Net → Prop
  | ended {net} : Net.WithinTable s.dnsTable s.net net → Stops c s s.mark [] net
  | clearing {newMark old mid todo net} : s.reloadLoop.phase = .woken newMark →
      s.mark = some old → Leads s.net (clearRequests old) mid todo →
      Net.WithinTable s.dnsTable mid net → Stops c s (some newMark) [old] net
  | adding {newMark mid todo net} : s.reloadLoop.phase = .woken newMark →
      Leads (s.net.cleared s.mark) (Plan.requests c ⟨newMark, s.conf.value, s.routes.value⟩) mid
        todo → Net.WithinTable s.dnsTable mid net → Stops c s (some newMark) [] net

structure Holds (host : Net) (table : UInt32) (marks : List UInt32) (s : System)
    (routes : List FibRoute) : Prop where
  held : Held host table marks s.mark s.net routes
  dnsTable : s.dnsTable = table
  woken : ∀ m, s.reloadLoop.phase = .woken m → m ∈ marks

variable {c : Crates} {e : Endian} {dc : DnsCrates} {alloc : Nat → Option (Nat → UInt8)}
  {lookup : Net → List Link → UInt32 → Option FibResult} {s t : System} {host net : Net}
  {table : UInt32} {marks : List UInt32} {mark : Option UInt32} {routes : List FibRoute}

theorem Holds.of_net (h : s.Holds host table marks routes) (net : t.net = s.net)
    (mark : t.mark = s.mark) (dnsTable : t.dnsTable = s.dnsTable)
    (woken : ∀ m, t.reloadLoop.phase = .woken m → m ∈ marks) : t.Holds host table marks routes :=
  ⟨by rw [net, mark]; exact h.held, dnsTable.trans h.dnsTable, woken⟩

theorem Holds.of_dns (h : s.Holds host table marks routes) (apart : table ∉ marks)
    (within : Net.WithinTable s.dnsTable s.net t.net) (mark : t.mark = s.mark)
    (dnsTable : t.dnsTable = s.dnsTable) (loop : t.reloadLoop = s.reloadLoop) :
    t.Holds host table marks routes := by
  refine ⟨?_, dnsTable.trans h.dnsTable, by rw [loop]; exact h.woken⟩
  rw [mark]
  exact h.held.withinTable apart (h.dnsTable ▸ within)

theorem Holds.reloadRules (h : s.Holds host table marks routes) (drawn : Drawn table marks)
    (few : s.Few c .reloadRules) (step : s.reloadRules c = some t) :
    t.Holds host table marks routes := by
  obtain ⟨newMark, enable, blocker, net, hphase, hrules, rfl⟩ := reloadRules_some step
  obtain ⟨_, _, leads⟩ := leads_reloadRules ⟨newMark, s.conf.value, s.routes.value⟩ hrules
  obtain ⟨rules, adds, _, hcount⟩ := leads_adds (requests_for _) leads
  rw [requests_count] at hcount
  have hfew := few newMark hphase
  refine ⟨h.held.adds drawn (h.woken newMark hphase) adds ?_, h.dnsTable, by simp⟩
  simp only [List.countP_nil, Nat.add_zero] at hcount
  omega

theorem Holds.stops {left : List UInt32} (h : s.Holds host table marks routes)
    (drawn : Drawn table marks) (few : s.Few c .reloadRules) (stop : s.Stops c mark left net) :
    (net.shutdown mark table).others left = { host with routes } := by
  obtain rfl := h.dnsTable
  cases stop with
  | ended within =>
    rw [within.shutdown, h.held.shutdown drawn, Net.others_nil]
  | @clearing newMark old mid todo net hphase hmark leads within =>
    have drops := leads_drops (clearRequests_drop old) leads
    rw [within.shutdown]
    exact (hmark ▸ h.held).broken drawn (h.woken newMark hphase) drops
  | @adding newMark mid todo net hphase leads within =>
    rw [within.shutdown]
    obtain ⟨rules, adds, _, hcount⟩ := leads_adds (requests_for _) leads
    rw [requests_count] at hcount
    have hfew := few newMark hphase
    have held := h.held.adds drawn (h.woken newMark hphase) adds (by dsimp only at hcount; omega)
    rw [held.shutdown drawn, Net.others_nil]

theorem holds_step {event : SystemEvent} (drawn : Drawn table marks)
    (known : ∀ m, event = .reloadWake m → m ∈ marks) (h : s.Holds host table marks routes)
    (few : s.Few c event) (step : s.step c e dc alloc lookup event = some t) :
    t.Holds host table marks (hostRoutes routes event) := by
  have outside : event.changesNet = false → event.isTurn = false →
      t.Holds host table marks routes := by
    intro hnet hturn
    have around := step_around step hturn
    exact h.of_net ((step_frame step).net hnet) around.mark around.dnsTable
      (by rw [around.reloadLoop]; exact h.woken)
  cases event with
  | change | forceReload | linkChanged | linkGone | notify | listen | notice | packet =>
    exact outside rfl rfl
  | routeAdded route =>
    simp only [System.step] at step
    split at step
    next hmain =>
      cases Option.some.inj step
      have hother : route.table ∉ table :: marks := hmain ▸ drawn.main_notMem
      refine ⟨h.held.hosted rfl rfl (fun hroutes => ?_) (fun r hr => ?_), h.dnsTable, h.woken⟩
      · rw [List.filter_append, hroutes]
        congr 1
        exact List.filter_eq_self.mpr fun r hr => by
          obtain rfl := List.mem_singleton.mp hr
          simpa using hother
      · obtain hr | hr := List.mem_append.mp hr
        · exact Or.inl hr
        · obtain rfl := List.mem_singleton.mp hr
          exact Or.inr hother
    next => cases step
  | routeDeleted route =>
    simp only [System.step] at step
    split at step
    next hmain =>
      cases Option.some.inj step
      refine ⟨h.held.hosted rfl rfl (fun hroutes => ?_) (fun r hr => ?_), h.dnsTable, h.woken⟩
      · rw [← List.erase_filter, hroutes]
        rfl
      · exact Or.inl (List.mem_of_mem_erase hr)
    next => cases step
  | callback now =>
    obtain ⟨data, ring, _, ⟨_, _, rfl⟩ | ⟨dns, net, hparse, rfl⟩⟩ := callback_some step
    · exact ⟨h.held, h.dnsTable, h.woken⟩
    · exact h.of_dns drawn.apart (DnsState.withinTable_parse hparse) rfl rfl rfl
  | sweep now =>
    cases Option.some.inj step
    exact h.of_dns drawn.apart (DnsState.withinTable_sweepLoop s.dnsCtx _ _ _) rfl rfl rfl
  | retire name dest =>
    cases Option.some.inj step
    exact h.of_dns drawn.apart (DnsState.withinTable_removeRecords s.dnsCtx _ _ _ _)
      rfl rfl rfl
  | routesTurn =>
    obtain ⟨routes, rfl, _⟩ := routesTurn_some step
    exact ⟨h.held, h.dnsTable, h.woken⟩
  | reloadWake newMark =>
    obtain ⟨_, _, rfl⟩ := reloadWake_some step
    refine ⟨h.held, h.dnsTable, fun m hm => ?_⟩
    cases hm
    exact known _ rfl
  | reloadRules => exact h.reloadRules drawn few step
  | reloadBpf =>
    obtain ⟨newMark, enable, rules, route, ctx, kernel, _, _, rfl⟩ := reloadBpf_some step
    exact ⟨h.held, h.dnsTable, by simp⟩
  | reloadDone =>
    obtain ⟨_, rfl⟩ := reloadDone_some step
    exact ⟨h.held, h.dnsTable, by simp⟩
  | dnsWake =>
    obtain ⟨_, rfl⟩ := dnsWake_some step
    exact ⟨h.held, h.dnsTable, h.woken⟩
  | dnsTurn =>
    obtain ⟨updateCaches, _, rfl⟩ := dnsTurn_some step
    exact h.of_dns drawn.apart (DnsState.withinTable_watchDnsRoutes s.dnsCtx _ _ _)
      rfl rfl rfl

theorem mem_drawnMarks {m : UInt32} {events : List SystemEvent} :
    m ∈ drawnMarks events ↔ .reloadWake m ∈ events := by
  induction events with
  | nil => simp [drawnMarks]
  | cons event events ih => cases event <;> simp [drawnMarks, ih]

/-- Wherever the daemon ends, what it has set up for its rules, routes and DNS records is gone
from the host's configuration, and the rest as it would be without the daemon. Only where the
clearing of the mark before was broken off may some of that mark's stay. -/
theorem shutdown_restores {s₀ : System} {events : List SystemEvent} {left : List UInt32}
    (setup : host.setupStaticRules s₀.dnsTable = some s₀.net) (markless : s₀.mark = none)
    (idle : s₀.reloadLoop.phase = .idle) (drawn : Drawn s₀.dnsTable (drawnMarks events))
    (fresh : ∀ key ∈ s₀.dnsTable :: drawnMarks events, host.Without key)
    (run : Run (System.step c e dc alloc lookup) (Few c) s₀ events s)
    (few : s.Few c .reloadRules) (stop : s.Stops c mark left net) :
    (net.shutdown mark s₀.dnsTable).others left =
        { host with routes := events.foldl hostRoutes host.routes } ∧
      (left = [] → net.shutdown mark s₀.dnsTable =
        { host with routes := events.foldl hostRoutes host.routes }) := by
  have start : s₀.Holds host s₀.dnsTable (drawnMarks events) host.routes :=
    ⟨by rw [markless]; exact .start drawn.apart fresh setup, rfl, by simp [idle]⟩
  have holds := run.invariant_fold
    (I := fun s routes => s.Holds host s₀.dnsTable (drawnMarks events) routes)
    (P := fun event => ∀ m, event = .reloadWake m → m ∈ drawnMarks events) (f := hostRoutes)
    (fun _ _ _ _ known h few step => holds_step drawn known h few step)
    (by
      rintro _ hmem m rfl
      exact mem_drawnMarks.mpr hmem) start
  have hothers := holds.stops drawn few stop
  refine ⟨hothers, ?_⟩
  rintro rfl
  rwa [Net.others_nil] at hothers

/-- A host with a rule of its own and a route to its network. -/
def lanHost : Net :=
  ⟨[{ action := .toTbl, dst := some ⟨ipv4Addr 10 9 0 0, 16⟩, table := some 100 }],
    [⟨rtTableMain, ⟨ipv4Addr 10 1 0 0, 16⟩, 1, none, none⟩], []⟩

/-- A reload and a DNS answer; then a route is added on the host, and a second reload wakes. -/
def wokenEvents : List SystemEvent :=
  turns 70001 ++ [.packet sharedAnswers, .callback 0,
    .routeAdded ⟨rtTableMain, ⟨ipv4Addr 10 2 0 0, 16⟩, 1, none, none⟩, .forceReload,
    .reloadWake 70002]

/-- It ends before its sweep. -/
def endedEvents : List SystemEvent := wokenEvents ++ [.reloadRules]

theorem lanHost_without {key : UInt32} (table : key ≠ 100) (main : key ≠ rtTableMain) :
    lanHost.Without key := by
  refine ⟨⟨fun rule hrule => ?_, fun r hr => ?_⟩, fun r hr => ?_⟩
  · obtain rfl := List.mem_singleton.mp hrule
    simpa [FibRule.keyedBy] using table.symm
  · obtain rfl := List.mem_singleton.mp hr
    exact main.symm
  · cases hr

/-- The daemon ends after the second reload has made its rules, or while it clears the first
one's. -/
theorem shutdown_restores_lan :
    ∃ s, Run (step anyCrates .little sampleDnsCrates zeroedPages firstMain) (Few anyCrates)
        { wgSystem with net := { lanHost with rules := lanHost.rules ++ [staticRule 70000] } }
        wokenEvents s ∧ (s.net.shutdown (some 70002) 70000).rules.length = 2 ∧
      (s.net.shutdown (some 70002) 70000).others [70001] =
        { lanHost with routes := wokenEvents.foldl hostRoutes lanHost.routes } ∧
      ∃ t, s.step anyCrates .little sampleDnsCrates zeroedPages firstMain .reloadRules = some t ∧
        t.net.shutdown t.mark 70000 =
          { lanHost with routes := endedEvents.foldl hostRoutes lanHost.routes } := by
  have run : ∃ s, Run (step anyCrates .little sampleDnsCrates zeroedPages firstMain) (Few anyCrates)
      { wgSystem with net := { lanHost with rules := lanHost.rules ++ [staticRule 70000] } }
      wokenEvents s ∧ (s.net.shutdown (some 70002) 70000).rules.length = 2 ∧
      s.reloadLoop.phase = .woken 70002 ∧ s.mark = some 70001 ∧ s.Few anyCrates .reloadRules ∧
      ∃ t, s.step anyCrates .little sampleDnsCrates zeroedPages firstMain .reloadRules = some t ∧
        ∀ newMark, t.reloadLoop.phase ≠ .woken newMark := by
    refine ⟨_, .cons trivial rfl (.cons trivial rfl (.cons ?_ rfl (.cons trivial rfl
      (.cons trivial rfl (.cons trivial rfl (.cons trivial rfl (.cons trivial rfl
      (.cons trivial rfl (.cons trivial rfl (.cons trivial rfl
      (.single trivial rfl))))))))))), ?_, rfl, rfl, ?_, _, rfl, by simp⟩
    · rintro _ ⟨⟩
      decide
    · decide
    · rintro _ ⟨⟩
      decide
  obtain ⟨s, run, hlength, hphase, hmark, few, t, step, hdone⟩ := run
  have hkeys : ∀ key ∈ [70000, 70001, 70002], key ≠ 100 ∧ key ≠ rtTableMain := by
    simp [rtTableMain]
  have drawn : Drawn 70000 (drawnMarks wokenEvents) :=
    ⟨by decide, List.all_eq_true.mp (by decide)⟩
  have broken := (shutdown_restores rfl rfl rfl drawn
    (fun key hkey => lanHost_without (hkeys key hkey).1 (hkeys key hkey).2) run few
    (.clearing hphase hmark (.refl _ _) ⟨rfl, rfl, rfl⟩)).1
  have run' : Run (System.step anyCrates .little sampleDnsCrates zeroedPages firstMain)
      (Few anyCrates) { wgSystem with net := { lanHost with
        rules := lanHost.rules ++ [staticRule 70000] } } endedEvents t :=
    run.append (.single few step)
  have ended := (shutdown_restores rfl rfl rfl drawn
    (fun key hkey => lanHost_without (hkeys key hkey).1 (hkeys key hkey).2) run'
    (fun newMark hwoken => absurd hwoken (hdone newMark)) (.ended ⟨rfl, rfl, rfl⟩)).2 rfl
  exact ⟨s, run, hlength, broken, t, step, ended⟩

end System

end Rebpf
