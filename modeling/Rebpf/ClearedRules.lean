import Rebpf.RuleLookup

namespace Rebpf

open Lib

section

variable {test : FibRule → Bool}

/-- Of the rules that pass the test the first ones go, one for each turn. -/
theorem delRules_filter (n : Nat) (rules : List FibRule) :
    (Net.delRules test n rules).filter test = (rules.filter test).drop n := by
  induction n generalizing rules with
  | zero => rfl
  | succ n ih =>
    rw [Net.delRules]
    split
    next hany =>
      obtain ⟨rule, hrule, htest⟩ := List.any_eq_true.mp hany
      obtain ⟨first, front, back, hno, hfirst, hsplit, herase⟩ := List.exists_of_eraseP hrule htest
      have hfront : front.filter test = [] := List.filter_eq_nil_iff.mpr hno
      rw [ih, herase, hsplit, List.filter_append, List.filter_append, hfront,
        List.filter_cons_of_pos hfirst]
      rfl
    next hany =>
      have hnone : rules.filter test = [] := by simpa using hany
      rw [hnone, List.drop_nil]

/-- The rules that fail the test stay. -/
theorem delRules_filter_other {other : FibRule → Bool}
    (h : ∀ rule, other rule = true → test rule = false) (n : Nat) (rules : List FibRule) :
    (Net.delRules test n rules).filter other = rules.filter other := by
  induction n generalizing rules with
  | zero => rfl
  | succ n ih =>
    rw [Net.delRules]
    split
    next hany =>
      obtain ⟨rule, hrule, htest⟩ := List.any_eq_true.mp hany
      obtain ⟨first, front, back, _, hfirst, hsplit, herase⟩ := List.exists_of_eraseP hrule htest
      have hother : ¬other first = true := by
        intro hother
        rw [h first hother] at hfirst
        cases hfirst
      rw [ih, herase, hsplit, List.filter_append, List.filter_append,
        List.filter_cons_of_neg hother]
    next => rfl

end

/-- The rules that go by the mark and lead to another table. -/
def FibRule.elsewhere (mark : UInt32) (rule : FibRule) : Bool :=
  rule.fwmark == some mark && rule.table != some mark

/-- Nothing is left by the pass for the mark when what leads to the mark's table
also goes by the mark and there are turns enough. -/
theorem delRules_unkeyed {first : List FibRule} {mark : UInt32} {n : Nat} :
    (∀ rule ∈ Net.delRules (fun rule => rule.fwmark == some mark) n first,
      rule.keyedBy mark = false) ↔
      (∀ rule ∈ first, rule.table = some mark → rule.fwmark = some mark) ∧
        first.countP (·.fwmark == some mark) ≤ n := by
  have hmarked : (Net.delRules (fun rule => rule.fwmark == some mark) n first).filter
      (fun rule => rule.fwmark == some mark) =
        (first.filter fun rule => rule.fwmark == some mark).drop n := delRules_filter n first
  have hother : (Net.delRules (fun rule => rule.fwmark == some mark) n first).filter
      (fun rule => rule.table == some mark && rule.fwmark != some mark) =
        first.filter (fun rule => rule.table == some mark && rule.fwmark != some mark) := by
    refine delRules_filter_other (fun rule h => ?_) n first
    simpa using (Bool.and_eq_true_iff.mp h).2
  constructor
  · intro h
    constructor
    · intro rule hrule htable
      by_contra hfwmark
      have hmem : rule ∈ first.filter
          (fun rule => rule.table == some mark && rule.fwmark != some mark) :=
        List.mem_filter.mpr ⟨hrule, by simp [htable, hfwmark]⟩
      rw [← hother] at hmem
      have hkeyed := h rule (List.mem_filter.mp hmem).1
      simp [FibRule.keyedBy, htable] at hkeyed
    · have hnil : (Net.delRules (fun rule => rule.fwmark == some mark) n first).filter
          (fun rule => rule.fwmark == some mark) = [] := by
        refine List.filter_eq_nil_iff.mpr fun rule hrule hfwmark => ?_
        have hkeyed := h rule hrule
        simp [FibRule.keyedBy, hfwmark] at hkeyed
      rw [hmarked, List.drop_eq_nil_iff] at hnil
      rwa [List.countP_eq_length_filter]
  · rintro ⟨hboth, hcount⟩ rule hrule
    rw [List.countP_eq_length_filter, ← List.drop_eq_nil_iff, ← hmarked] at hcount
    have hfwmark := List.filter_eq_nil_iff.mp hcount rule hrule
    have htable : rule.table ≠ some mark := by
      intro htable
      have hmem : rule ∈ (Net.delRules (fun rule => rule.fwmark == some mark) n first).filter
          (fun rule => rule.table == some mark && rule.fwmark != some mark) :=
        List.mem_filter.mpr ⟨hrule, by simpa [htable] using hfwmark⟩
      rw [hother] at hmem
      have hmarked' := hboth rule (List.mem_filter.mp hmem).1 htable
      simp [hmarked'] at hfwmark
    simpa [FibRule.keyedBy, htable] using hfwmark

/-- Nothing is left when the first pass leaves only rules that the second one
finds, and the two together have turns enough. -/
theorem Net.clearRules_iff (net : Net) (mark : UInt32) :
    (∀ rule ∈ (net.clearRules mark).rules, rule.keyedBy mark = false) ↔
      (∀ rule ∈ (net.rules.filter (·.table == some mark)).drop 1000, rule.fwmark = some mark) ∧
        net.rules.countP (·.table == some mark) - 1000 + net.rules.countP (·.elsewhere mark) ≤
          1000 := by
  obtain ⟨first, hfirst⟩ : ∃ first,
      first = delRules (fun rule => rule.table == some mark) 1000 net.rules := ⟨_, rfl⟩
  have hlast : (net.clearRules mark).rules =
      delRules (fun rule => rule.fwmark == some mark) 1000 first := by rw [hfirst]; rfl
  have htable : first.filter (·.table == some mark) =
      (net.rules.filter (·.table == some mark)).drop 1000 := by rw [hfirst, delRules_filter]
  have helsewhere : first.countP (·.elsewhere mark) = net.rules.countP (·.elsewhere mark) := by
    rw [List.countP_eq_length_filter, List.countP_eq_length_filter, hfirst]
    refine congrArg List.length (delRules_filter_other (fun rule h => ?_) 1000 net.rules)
    simpa using (Bool.and_eq_true_iff.mp h).2
  have hsplit : first.countP (·.fwmark == some mark) =
      (first.filter (·.table == some mark)).countP (·.fwmark == some mark) +
        first.countP (·.elsewhere mark) := by
    have hrest : (first.filter fun rule => !(rule.table == some mark)).countP
        (·.fwmark == some mark) = first.countP (·.elsewhere mark) := List.countP_filter
    rw [List.countP_eq_countP_filter_add first (·.fwmark == some mark) (·.table == some mark)]
    exact congrArg _ hrest
  have hboth : (∀ rule ∈ first, rule.table = some mark → rule.fwmark = some mark) ↔
      ∀ rule ∈ (net.rules.filter (·.table == some mark)).drop 1000, rule.fwmark = some mark := by
    rw [← htable]
    simp [List.mem_filter]
  rw [hlast, delRules_unkeyed, hboth]
  refine and_congr_right fun hall => ?_
  have hcount : (first.filter (·.table == some mark)).countP (·.fwmark == some mark) =
      net.rules.countP (·.table == some mark) - 1000 := by
    rw [htable, List.countP_eq_length.mpr (fun rule hrule => by simpa using hall rule hrule),
      List.length_drop, List.countP_eq_length_filter]
  rw [hsplit, hcount, helsewhere]

/-- What is left of two lists when so many are dropped is of the second one. -/
theorem drop_append_all_iff {α : Type} {p : α → Prop} {front back : List α} {n : Nat}
    (hfront : ∀ x ∈ front, ¬p x) (hback : ∀ x ∈ back, p x) :
    (∀ x ∈ (front ++ back).drop n, p x) ↔ front.length ≤ n := by
  rw [List.drop_append]
  constructor
  · intro h
    by_contra hlt
    have hpos : 0 < (front.drop n).length := by
      rw [List.length_drop]
      omega
    have hmem := List.getElem_mem hpos
    exact hfront _ (List.mem_of_mem_drop hmem) (h _ (List.mem_append_left _ hmem))
  · intro hle x hx
    rw [List.drop_eq_nil_of_le hle, List.nil_append] at hx
    exact hback x (List.mem_of_mem_drop hx)

/-- The rules an enabled reload has for the `ipv4` entries of a direction. -/
def ipv4Count (c : Crates) (ms : List Match) (direction : Direction) : Nat :=
  ms.countP fun m => (ipv4Dest c m).isSome && m.direction == direction

/-- The numbers of output addresses and `ipv4` entries that two passes of 1000 turns are for. -/
def FewRules (c : Crates) (conf : State) (link : Route) : Prop :=
  link.addrs.length ≤ 1000 ∧
    link.addrs.length + 1 + ipv4Count c conf.ms.entries .redirect +
      (if conf.config.allowLan then 0 else 1) - 1000 + ipv4Count c conf.ms.entries .bypass ≤ 1000

section

variable {c : Crates} {newMark : UInt32}

theorem ipv4Rules_countP {test : FibRule → Bool} {direction : Direction} (ms : List Match)
    (h : ∀ m dst, ipv4Dest c m = some dst → ((ipv4Rule c newMark m).map test).getD false =
      (m.direction == direction)) :
    (ms.filterMap (ipv4Rule c newMark)).countP test = ipv4Count c ms direction := by
  rw [List.countP_filterMap, ipv4Count]
  congr 1
  funext m
  cases hdst : ipv4Dest c m with
  | none =>
    rw [ipv4Rule, hdst]
    rfl
  | some dst => rw [h m dst hdst, Option.isSome_some, Bool.true_and]

theorem ipv4Rules_table (hmain : newMark ≠ rtTableMain) (ms : List Match) :
    (ms.filterMap (ipv4Rule c newMark)).countP (·.table == some newMark) =
      ipv4Count c ms .redirect := by
  refine ipv4Rules_countP ms fun m dst hdst => ?_
  rw [ipv4Rule, hdst]
  cases m.direction with
  | redirect => simp
  | bypass => simp [hmain.symm]

theorem ipv4Rules_elsewhere (hmain : newMark ≠ rtTableMain) (ms : List Match) :
    (ms.filterMap (ipv4Rule c newMark)).countP (·.elsewhere newMark) = ipv4Count c ms .bypass := by
  refine ipv4Rules_countP ms fun m dst hdst => ?_
  rw [ipv4Rule, hdst]
  cases m.direction with
  | redirect => simp [FibRule.elsewhere]
  | bypass => simp [FibRule.elsewhere, hmain.symm]

/-- What an enabled reload adds behind the source rules. -/
def markedRules (c : Crates) (newMark : UInt32) (conf : State) : List FibRule :=
  markRule newMark :: conf.ms.entries.filterMap (ipv4Rule c newMark) ++
    if conf.config.allowLan then [] else [noLanRule newMark]

theorem setupRules_eq (conf : State) (link : Route) : setupRules c newMark conf link =
    link.addrs.map (srcRule newMark) ++ markedRules c newMark conf := by
  rw [setupRules, markedRules, List.append_assoc]

theorem markedRules_fwmark {conf : State} {rule : FibRule}
    (h : rule ∈ markedRules c newMark conf) : rule.fwmark = some newMark := by
  rcases List.mem_append.mp h with h | h
  · rcases List.mem_cons.mp h with rfl | h
    · rfl
    · obtain ⟨m, _, hm⟩ := List.mem_filterMap.mp h
      obtain ⟨dst, _, rfl⟩ := Option.map_eq_some_iff.mp hm
      rfl
  · split at h
    · cases h
    · cases List.mem_singleton.mp h
      rfl

theorem markedRules_table (hmain : newMark ≠ rtTableMain) (conf : State) :
    (markedRules c newMark conf).countP (·.table == some newMark) =
      1 + ipv4Count c conf.ms.entries .redirect + if conf.config.allowLan then 0 else 1 := by
  have hmark : (if (markRule newMark).table == some newMark then 1 else 0) = 1 := by
    simp [markRule]
  have hlan : (if conf.config.allowLan then [] else [noLanRule newMark]).countP
      (·.table == some newMark) = if conf.config.allowLan then 0 else 1 := by
    split
    · rfl
    · simp [noLanRule]
  rw [markedRules, List.countP_append, List.countP_cons, ipv4Rules_table hmain, hmark, hlan]
  omega

theorem markedRules_elsewhere (hmain : newMark ≠ rtTableMain) (conf : State) :
    (markedRules c newMark conf).countP (·.elsewhere newMark) =
      ipv4Count c conf.ms.entries .bypass := by
  have hmark : (if (markRule newMark).elsewhere newMark then 1 else 0) = 0 := by
    simp [FibRule.elsewhere, markRule]
  have hlan : (if conf.config.allowLan then [] else [noLanRule newMark]).countP
      (·.elsewhere newMark) = 0 := by
    split
    · rfl
    · simp [FibRule.elsewhere, noLanRule]
  rw [markedRules, List.countP_append, List.countP_cons, ipv4Rules_elsewhere hmain, hmark, hlan,
    Nat.add_zero]

theorem srcRules_table (addrs : List UInt32) :
    (addrs.map (srcRule newMark)).filter (·.table == some newMark) =
      addrs.map (srcRule newMark) := by
  refine List.filter_eq_self.mpr fun rule hrule => ?_
  obtain ⟨addr, _, rfl⟩ := List.mem_map.mp hrule
  simp [srcRule]

theorem srcRules_elsewhere (addrs : List UInt32) :
    (addrs.map (srcRule newMark)).countP (·.elsewhere newMark) = 0 := by
  refine List.countP_eq_zero.mpr fun rule hrule helsewhere => ?_
  obtain ⟨addr, _, rfl⟩ := List.mem_map.mp hrule
  simp [FibRule.elsewhere, srcRule] at helsewhere

theorem unkeyed_table {before : List FibRule}
    (fresh : ∀ rule ∈ before, rule.keyedBy newMark = false) :
    before.filter (·.table == some newMark) = [] := by
  refine List.filter_eq_nil_iff.mpr fun rule hrule htable => ?_
  have hkeyed := fresh rule hrule
  simp [FibRule.keyedBy, htable] at hkeyed

theorem unkeyed_elsewhere {before : List FibRule}
    (fresh : ∀ rule ∈ before, rule.keyedBy newMark = false) :
    before.countP (·.elsewhere newMark) = 0 := by
  refine List.countP_eq_zero.mpr fun rule hrule helsewhere => ?_
  have hkeyed := fresh rule hrule
  simp [FibRule.keyedBy, (Bool.and_eq_true_iff.mp helsewhere).1] at hkeyed

/-- The source rules come first of those to the mark's table, and only they do not
go by the mark. -/
theorem setupRules_cleared (hmain : newMark ≠ rtTableMain) {conf : State} {link : Route}
    {before : List FibRule} (fresh : ∀ rule ∈ before, rule.keyedBy newMark = false) :
    (∀ rule ∈ ((before ++ setupRules c newMark conf link).filter (·.table == some newMark)).drop 1000,
        rule.fwmark = some newMark) ∧
      (before ++ setupRules c newMark conf link).countP (·.table == some newMark) - 1000 +
        (before ++ setupRules c newMark conf link).countP (·.elsewhere newMark) ≤ 1000 ↔
      FewRules c conf link := by
  have hfilter : (before ++ setupRules c newMark conf link).filter (·.table == some newMark) =
      link.addrs.map (srcRule newMark) ++
        (markedRules c newMark conf).filter (·.table == some newMark) := by
    rw [setupRules_eq, List.filter_append, unkeyed_table fresh, List.nil_append,
      List.filter_append, srcRules_table]
  have hcount : (before ++ setupRules c newMark conf link).countP (·.table == some newMark) =
      link.addrs.length + 1 + ipv4Count c conf.ms.entries .redirect +
        if conf.config.allowLan then 0 else 1 := by
    rw [List.countP_eq_length_filter, hfilter, List.length_append, List.length_map,
      ← List.countP_eq_length_filter, markedRules_table hmain]
    omega
  have helsewhere : (before ++ setupRules c newMark conf link).countP (·.elsewhere newMark) =
      ipv4Count c conf.ms.entries .bypass := by
    rw [setupRules_eq, List.countP_append, List.countP_append, unkeyed_elsewhere fresh,
      srcRules_elsewhere, markedRules_elsewhere hmain]
    omega
  have hnone : ∀ rule ∈ link.addrs.map (srcRule newMark), ¬rule.fwmark = some newMark := by
    intro rule hrule
    obtain ⟨addr, _, rfl⟩ := List.mem_map.mp hrule
    simp [srcRule]
  have hall : ∀ rule ∈ (markedRules c newMark conf).filter (·.table == some newMark),
      rule.fwmark = some newMark := fun rule hrule =>
    markedRules_fwmark (List.mem_filter.mp hrule).1
  rw [hfilter, drop_append_all_iff hnone hall, List.length_map, hcount, helsewhere]
  rfl

section

variable {oldMark : Option UInt32} {conf : State} {link : Route} {net net' : Net} {blocker : String}

theorem reloadRules_cleared (drawn : isRandTable newMark = true)
    (fresh : ∀ rule ∈ (net.cleared oldMark).rules, rule.keyedBy newMark = false)
    (reloaded : reloadRules c newMark oldMark conf (some link) net = some (true, blocker, net')) :
    (∀ rule ∈ (net'.clearRules newMark).rules, rule.keyedBy newMark = false) ↔
      FewRules c conf link := by
  obtain ⟨henable, hrules, _⟩ := reloadRules_eq reloaded
  obtain ⟨link', hlink⟩ := Option.isSome_iff_exists.mp henable.symm
  obtain ⟨heq, _⟩ := usable_eq_some.mp hlink
  cases heq
  have hsetup : net'.rules = (net.cleared oldMark).rules ++ setupRules c newMark conf link := by
    rw [hrules, reloadAdds, hlink]
  rw [Net.clearRules_iff, hsetup]
  exact setupRules_cleared (isRandTable_ne_main drawn).symm fresh

/-- What an enabled reload has set up under a mark is cleared exactly if it is few enough. -/
theorem clearRules_complete_iff (drawn : isRandTable newMark = true)
    (fresh : ∀ rule ∈ (net.cleared oldMark).rules, rule.keyedBy newMark = false)
    (reloaded : reloadRules c newMark oldMark conf (some link) net = some (true, blocker, net')) :
    (∀ rule ∈ (net'.clearRules newMark).rules,
      rule.table ≠ some newMark ∧ rule.fwmark ≠ some newMark) ↔ FewRules c conf link := by
  rw [← reloadRules_cleared drawn fresh reloaded]
  simp [FibRule.keyedBy]

end

end

theorem clearRules_complete_iff_host :
    (∀ rule ∈ (hostReloaded.clearRules 70001).rules,
      rule.table ≠ some 70001 ∧ rule.fwmark ≠ some 70001) ↔
        FewRules slashACrates hostState hostLink := by
  have hfresh : ∀ rule ∈ (hostNet.cleared none).rules, rule.keyedBy 70001 = false := by
    intro rule hrule
    cases List.mem_singleton.mp hrule
    decide
  exact clearRules_complete_iff (by decide) hfresh hostNet_reloaded

/-- A `bypass` entry for a host so many times over. -/
def manyHosts (n : Nat) : State :=
  { State.default with
    enable := true
    ms := { Matches.default with entries := List.replicate n (hostRule .bypass) } }

theorem manyHosts_count (n : Nat) :
    ipv4Count slashACrates (manyHosts n).ms.entries .bypass = n := by
  have hhost : ((ipv4Dest slashACrates (hostRule .bypass)).isSome &&
      (hostRule .bypass).direction == .bypass) = true := by decide +kernel
  have hcount := List.countP_replicate (p := fun m => (ipv4Dest slashACrates m).isSome &&
    m.direction == .bypass) (a := hostRule .bypass) (n := n)
  rw [if_pos hhost] at hcount
  exact hcount

/-- Of 1001 rules to the main table the pass for the mark leaves one. -/
theorem clearRules_not_complete :
    ¬∀ {c : Crates} {newMark : UInt32} {oldMark : Option UInt32} {conf : State} {link : Route}
      {net net' : Net} {blocker : String}, isRandTable newMark = true →
      (∀ rule ∈ (net.cleared oldMark).rules, rule.keyedBy newMark = false) →
      reloadRules c newMark oldMark conf (some link) net = some (true, blocker, net') →
      ∀ rule ∈ (net'.clearRules newMark).rules,
        rule.table ≠ some newMark ∧ rule.fwmark ≠ some newMark := by
  intro h
  obtain ⟨net', hreload⟩ := @reloadRules_bare slashACrates (manyHosts 1001) rfl rfl 70001 2
  have hfresh : ∀ rule ∈ (Net.cleared none ⟨[], [], []⟩).rules, rule.keyedBy 70001 = false := by
    intro rule hrule
    cases hrule
  have hall : ∀ rule ∈ (net'.clearRules 70001).rules, rule.keyedBy 70001 = false := by
    intro rule hrule
    obtain ⟨htable, hfwmark⟩ := h (by decide) hfresh hreload rule hrule
    simp [FibRule.keyedBy, htable, hfwmark]
  have hfew := ((reloadRules_cleared (by decide) hfresh hreload).mp hall).2
  rw [manyHosts_count] at hfew
  omega

end Rebpf
