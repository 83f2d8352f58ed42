import Rebpf.ClearedRules
import Rebpf.DnsDisabled
import Rebpf.WatchReload

namespace Rebpf

open Lib

namespace Net

/-- What has nothing to do with the keys, marks and tables. -/
def others (keys : List UInt32) (net : Net) : Net where
  rules := net.rules.filter fun r => !keys.any (r.keyedBy ·)
  routes := net.routes.filter fun r => !keys.contains r.table
  nat := net.nat.filter fun r => !keys.contains r.mark

/-- Nothing goes by the key. -/
structure Without (net : Net) (key : UInt32) : Prop where
  unkeyed : net.Unkeyed key
  nat : ∀ r ∈ net.nat, r.mark ≠ key

end Net

/-- A rule of an iteration has to do with its mark, and with no other table than the main one. -/
structure FibRule.Of (mark : UInt32) (rule : FibRule) : Prop where
  keyed : rule.keyedBy mark = true
  table : rule.table = some mark ∨ rule.table = some rtTableMain
  fwmark : rule.fwmark = none ∨ rule.fwmark = some mark

/-- What a request adds goes by the mark. -/
def NetRequest.For (mark : UInt32) : NetRequest → Prop
  | .newRule _ rule => rule.Of mark
  | .newRoute route | .cloneRoute route => route.table = mark
  | .newNat rule => rule.mark = mark
  | .dumpMain newMark => newMark = mark
  | .dumpTable _ | .delRoute _ _ | .delRules _ _ | .delNat _ => False

/-- What a request takes away goes by the mark. -/
def NetRequest.Drops (mark : UInt32) : NetRequest → Prop
  | .dumpTable table | .delRoute table _ => table = mark
  | .delRules test _ => ∀ rule, test rule = true → rule.keyedBy mark = true
  | .delNat m => m = mark
  | _ => False

def NetRequest.isNewRule : NetRequest → Bool
  | .newRule _ _ => true
  | _ => false

/-- The configuration has more of the mark's rules, routes and translations. -/
structure Net.Adds (mark : UInt32) (added : List FibRule) (net net' : Net) : Prop where
  rules : net'.rules = net.rules ++ added
  keyed : ∀ rule ∈ added, rule.Of mark
  routes : ∃ routes, net'.routes = net.routes ++ routes ∧ ∀ r ∈ routes, r.table = mark
  nat : ∃ nat, net'.nat = nat ++ net.nat ∧ ∀ r ∈ nat, r.mark = mark

/-- The configuration has fewer of the mark's rules, routes and translations. -/
structure Net.Drops (mark : UInt32) (net net' : Net) : Prop where
  rules : net'.rules.Sublist net.rules
  routes : net'.routes.Sublist net.routes
  nat : net'.nat.Sublist net.nat
  others : net'.others [mark] = net.others [mark]

/-- The configuration differs in the routes of a table at most. -/
structure Net.WithinTable (table : UInt32) (net net' : Net) : Prop where
  rules : net'.rules = net.rules
  nat : net'.nat = net.nat
  routes : net'.routes.filter (·.table != table) = net.routes.filter (·.table != table)

section

variable {keys : List UInt32} {key mark table : UInt32} {net mid net' : Net}
  {rules rules' : List FibRule}

theorem Net.Adds.refl (mark : UInt32) (net : Net) : Net.Adds mark [] net net :=
  ⟨(List.append_nil _).symm, by simp, ⟨[], by simp⟩, [], by simp⟩

theorem Net.Adds.trans (h : Net.Adds mark rules net mid) (h' : Net.Adds mark rules' mid net') :
    Net.Adds mark (rules ++ rules') net net' := by
  obtain ⟨hrules, hkeyed, ⟨routes, hroutes, htable⟩, nat, hnat, hmark⟩ := h
  obtain ⟨hrules', hkeyed', ⟨routes', hroutes', htable'⟩, nat', hnat', hmark'⟩ := h'
  refine ⟨by rw [hrules', hrules, List.append_assoc], fun rule hrule => ?_,
    ⟨routes ++ routes', by rw [hroutes', hroutes, List.append_assoc], fun r hr => ?_⟩,
    nat' ++ nat, by rw [hnat', hnat, List.append_assoc], fun r hr => ?_⟩
  · exact (List.mem_append.mp hrule).elim (hkeyed rule) (hkeyed' rule)
  · exact (List.mem_append.mp hr).elim (htable r) (htable' r)
  · exact (List.mem_append.mp hr).elim (hmark' r) (hmark r)

/-- A request that succeeds adds what it says, and leaves the rest of the requests. -/
theorem NetRequest.For.exec {request : NetRequest} {todo todo' : List NetRequest}
    (h : request.For mark) (all : ∀ r ∈ todo, r.For mark)
    (taken : request.exec net todo = some (net', todo')) : ∃ rules, Net.Adds mark rules net net' ∧
      (∀ r ∈ todo', r.For mark) ∧
      rules.length + todo'.countP isNewRule = (request :: todo).countP isNewRule := by
  cases request with
  | newRule excl rule =>
    obtain ⟨mid, hnew, taken⟩ := Option.map_eq_some_iff.mp taken
    cases taken
    refine ⟨[rule], ⟨by rw [newRule_eq hnew], List.forall_mem_singleton.mpr h,
      ⟨[], by rw [newRule_eq hnew]; simp⟩, [], by rw [newRule_eq hnew]; simp⟩, all, ?_⟩
    rw [List.countP_cons_of_pos rfl, List.length_singleton]
    omega
  | newRoute route =>
    obtain ⟨mid, hnew, taken⟩ := Option.map_eq_some_iff.mp taken
    cases taken
    refine ⟨[], ⟨by rw [newRoute_eq hnew]; simp, by simp, ⟨[route], by rw [newRoute_eq hnew],
      List.forall_mem_singleton.mpr h⟩, [], by rw [newRoute_eq hnew]; simp⟩, all, ?_⟩
    rw [List.countP_cons_of_neg (by simp [isNewRule]), List.length_nil, Nat.zero_add]
  | cloneRoute route =>
    cases Option.some.inj taken
    refine ⟨[], ⟨by simp, by simp, ⟨[route], rfl, List.forall_mem_singleton.mpr h⟩,
      [], by simp⟩, all, ?_⟩
    rw [List.countP_cons_of_neg (by simp [isNewRule]), List.length_nil, Nat.zero_add]
  | newNat rule =>
    cases Option.some.inj taken
    refine ⟨[], ⟨by simp, by simp, ⟨[], by simp⟩, [rule], rfl, List.forall_mem_singleton.mpr h⟩,
      all, ?_⟩
    rw [List.countP_cons_of_neg (by simp [isNewRule]), List.length_nil, Nat.zero_add]
  | dumpMain newMark =>
    cases Option.some.inj taken
    obtain rfl : newMark = mark := h
    refine ⟨[], .refl _ _, fun r hr => ?_, ?_⟩
    · obtain hr | hr := List.mem_append.mp hr
      · obtain ⟨route, hroute, rfl⟩ := List.mem_map.mp hr
        obtain ⟨_, _, rfl⟩ := List.mem_map.mp hroute
        rfl
      · exact all r hr
    · have hnone :
          ((lanRoutes newMark net.routes).map NetRequest.cloneRoute).countP isNewRule = 0 := by
        refine List.countP_eq_zero.mpr fun r hr => ?_
        obtain ⟨_, _, rfl⟩ := List.mem_map.mp hr
        simp [isNewRule]
      rw [List.countP_append, hnone, List.countP_cons_of_neg (by simp [isNewRule])]
      simp
  | dumpTable | delRoute | delRules | delNat => exact absurd h id

theorem leads_adds {todo todo' : List NetRequest} (all : ∀ r ∈ todo, r.For mark)
    (leads : Leads net todo net' todo') : ∃ rules, Net.Adds mark rules net net' ∧
      (∀ r ∈ todo', r.For mark) ∧
      rules.length + todo'.countP NetRequest.isNewRule = todo.countP NetRequest.isNewRule := by
  obtain ⟨events, run⟩ := leads
  refine run.invariant (I := fun r => ∃ rules, Net.Adds mark rules net r.1 ∧
    (∀ q ∈ r.2, q.For mark) ∧
    rules.length + r.2.countP NetRequest.isNewRule = todo.countP NetRequest.isNewRule) ?_
    ⟨[], .refl _ _, all, by simp⟩
  rintro ⟨net₁, todo₁⟩ _ ⟨net₂, todo₂⟩ ⟨rules, adds, hall, hcount⟩ _ taken
  cases todo₁ with
  | nil => cases taken
  | cons request todo₁ =>
    obtain ⟨hfor, hrest⟩ := List.forall_mem_cons.mp hall
    obtain ⟨rules', adds', hall', hcount'⟩ := hfor.exec hrest taken
    refine ⟨rules ++ rules', adds.trans adds', hall', ?_⟩
    dsimp only at hcount hcount' ⊢
    rw [List.length_append]
    omega

theorem ipv4Rule_of {c : Crates} {m : Match} {rule : FibRule} (h : ipv4Rule c mark m = some rule) :
    rule.Of mark := by
  obtain ⟨dst, _, rfl⟩ := Option.map_eq_some_iff.mp h
  refine ⟨by simp [FibRule.keyedBy], ?_, Or.inr rfl⟩
  cases m.direction with
  | redirect => exact Or.inl rfl
  | bypass => exact Or.inr rfl

theorem requests_for {c : Crates} (plan : Plan) :
    ∀ r ∈ plan.requests c, r.For plan.newMark := by
  intro r hr
  unfold Plan.requests at hr
  split at hr
  next link _ =>
    simp only [setupRequests, List.append_assoc, List.cons_append, List.mem_append, List.mem_cons,
      List.mem_map] at hr
    obtain ⟨addr, _, rfl⟩ | rfl | ⟨rule, hrule, rfl⟩ | rfl | hr | hr := hr
    · exact ⟨by simp [FibRule.keyedBy, srcRule], Or.inl rfl, Or.inl rfl⟩
    · exact ⟨by simp [FibRule.keyedBy, markRule], Or.inl rfl, Or.inr rfl⟩
    · obtain ⟨m, _, hm⟩ := List.mem_filterMap.mp hrule
      exact ipv4Rule_of hm
    · exact rfl
    · rw [hr]
      split
      · exact rfl
      · exact ⟨by simp [FibRule.keyedBy, noLanRule], Or.inl rfl, Or.inr rfl⟩
    · split at hr
      · cases List.mem_singleton.mp hr
        exact rfl
      · cases hr
  next =>
    split at hr
    · cases List.mem_singleton.mp hr
      exact ⟨by simp [FibRule.keyedBy, dropRule], Or.inl rfl, Or.inr rfl⟩
    · cases hr

/-- An iteration asks for as many rules as it adds when all goes well. -/
theorem requests_count {c : Crates} (plan : Plan) :
    (plan.requests c).countP NetRequest.isNewRule =
      (reloadAdds c plan.newMark plan.conf plan.route).length := by
  have hmap : ∀ {α : Type} (excl : Bool) (f : α → FibRule) (xs : List α),
      (xs.map fun x => NetRequest.newRule excl (f x)).countP NetRequest.isNewRule = xs.length := by
    intro α excl f xs
    rw [List.countP_map]
    exact List.countP_eq_length.mpr fun _ _ => rfl
  unfold Plan.requests reloadAdds
  cases husable : usable plan.conf plan.route with
  | some link =>
    have hsrc := hmap true (srcRule plan.newMark) link.addrs
    have hipv4 := hmap false id (plan.conf.ms.entries.filterMap (ipv4Rule c plan.newMark))
    simp only [setupRequests, setupRules, List.countP_append, List.countP_cons, List.length_append,
      List.length_cons, List.length_map, hsrc]
    rw [show (plan.conf.ms.entries.filterMap (ipv4Rule c plan.newMark)).map (NetRequest.newRule false)
      = (plan.conf.ms.entries.filterMap (ipv4Rule c plan.newMark)).map
        fun x => NetRequest.newRule false (id x) from rfl, hipv4]
    have hnat : (if plan.conf.config.spoofDns = true then
        [NetRequest.newNat ⟨plan.newMark, plan.conf.config.spoofDnsIpv4, 53⟩] else []).countP
          NetRequest.isNewRule = 0 := by
      split
      · rfl
      · rfl
    rw [hnat]
    cases plan.conf.config.allowLan <;> simp [NetRequest.isNewRule]
  | none =>
    have hdrops : plan.drops = true ↔ blockerOf plan.conf plan.route ≠ "" ∧
        plan.conf.config.dropEgressWithoutOutput = true := by
      simp [Plan.drops, Plan.enable, husable]
    by_cases h : plan.drops = true
    · rw [if_pos h, if_pos (hdrops.mp h)]
      rfl
    · rw [if_neg h, if_neg (mt hdrops.mpr h)]
      rfl

theorem FibRule.any_keyedBy {rule : FibRule} (hkey : key ∈ keys) (h : rule.keyedBy key = true) :
    keys.any (rule.keyedBy ·) = true :=
  List.any_eq_true.mpr ⟨key, hkey, h⟩

theorem Net.Adds.others (h : Net.Adds mark rules net net') (hmark : mark ∈ keys) :
    net'.others keys = net.others keys := by
  obtain ⟨hrules, hkeyed, ⟨routes, hroutes, htable⟩, nat, hnat, hmarks⟩ := h
  have hnone : rules.filter (fun r => !keys.any (r.keyedBy ·)) = [] :=
    List.filter_eq_nil_iff.mpr fun r hr => by
      simp only [FibRule.any_keyedBy hmark (hkeyed r hr).keyed, Bool.not_true, Bool.false_eq_true,
        not_false_eq_true]
  have hnone' : routes.filter (fun r => !keys.contains r.table) = [] :=
    List.filter_eq_nil_iff.mpr fun r hr => by simpa [htable r hr] using hmark
  have hnone'' : nat.filter (fun r => !keys.contains r.mark) = [] :=
    List.filter_eq_nil_iff.mpr fun r hr => by simpa [hmarks r hr] using hmark
  simp only [Net.others, hrules, hroutes, hnat, List.filter_append, hnone, hnone', hnone'',
    List.append_nil, List.nil_append]

theorem Net.others_clearTable (h : key ∈ keys) (net : Net) :
    (net.clearTable key).others keys = net.others keys := by
  have hroutes : (net.routes.filter fun r => r.table != key).filter
      (fun r => !keys.contains r.table) = net.routes.filter fun r => !keys.contains r.table := by
    rw [List.filter_filter]
    refine List.filter_congr fun r _ => ?_
    by_cases heq : r.table = key
    · simp [heq, h]
    · simp [heq]
  simp only [Net.others, Net.clearTable, hroutes]

theorem Net.others_delRules {test : FibRule → Bool}
    (h : ∀ rule, test rule = true → keys.any (rule.keyedBy ·) = true) (n : Nat)
    (rules : List FibRule) :
    (delRules test n rules).filter (fun r => !keys.any (r.keyedBy ·)) =
      rules.filter fun r => !keys.any (r.keyedBy ·) := by
  refine delRules_filter_other (fun rule hother => ?_) n rules
  by_contra htest
  simp [h rule (by simpa using htest)] at hother

theorem Net.others_clearRules (h : key ∈ keys) (net : Net) :
    (net.clearRules key).others keys = net.others keys := by
  have htable : ∀ rule : FibRule, (rule.table == some key) = true →
      keys.any (rule.keyedBy ·) = true := fun rule hrule =>
    FibRule.any_keyedBy h (by simp [FibRule.keyedBy, hrule])
  have hfwmark : ∀ rule : FibRule, (rule.fwmark == some key) = true →
      keys.any (rule.keyedBy ·) = true := fun rule hrule =>
    FibRule.any_keyedBy h (by simp [FibRule.keyedBy, hrule])
  have hroutes := congrArg Net.routes (Net.others_clearTable h net)
  have hnat : (net.nat.filter fun r => r.mark != key).filter (fun r => !keys.contains r.mark) =
      net.nat.filter fun r => !keys.contains r.mark := by
    rw [List.filter_filter]
    refine List.filter_congr fun r _ => ?_
    by_cases heq : r.mark = key
    · simp [heq, h]
    · simp [heq]
  simp only [Net.others] at hroutes ⊢
  simp only [Net.clearRules, Net.others_delRules hfwmark, Net.others_delRules htable, hroutes]
  simp only [Net.clearTable, hnat]

theorem Net.others_cleared {oldMark : Option UInt32} (h : ∀ m, oldMark = some m → m ∈ keys)
    (net : Net) : (net.cleared oldMark).others keys = net.others keys := by
  cases oldMark with
  | none => rfl
  | some old => exact Net.others_clearRules (h old rfl) net

theorem Net.others_nil (net : Net) : net.others [] = net := by
  simp [Net.others]

/-- What has nothing to do with more keys is of what has nothing to do with some of them. -/
theorem Net.others_others {left : List UInt32} (sub : left ⊆ keys) (net : Net) :
    (net.others left).others keys = net.others keys := by
  have hrules : ∀ r ∈ net.rules, (!keys.any (r.keyedBy ·) && !left.any (r.keyedBy ·)) =
      !keys.any (r.keyedBy ·) := by
    intro r _
    cases hany : keys.any (r.keyedBy ·) with
    | true => rfl
    | false =>
      have hleft : left.any (r.keyedBy ·) = false :=
        List.any_eq_false.mpr fun key hkey => List.any_eq_false.mp hany key (sub hkey)
      simp [hleft]
  have hkeys : ∀ key : UInt32, (!keys.contains key && !left.contains key) = !keys.contains key := by
    intro key
    by_cases hkey : key ∈ keys
    · simp [hkey]
    · simp [hkey, mt (@sub key) hkey]
  simp only [Net.others, List.filter_filter, List.filter_congr hrules, hkeys]

/-- The others are the same for fewer keys, if nothing goes by the rest. -/
theorem Net.others_left {left : List UInt32} (sub : left ⊆ keys)
    (rules : ∀ rule ∈ net.rules, ∀ key ∈ keys, key ∉ left → rule.keyedBy key = false)
    (routes : ∀ r ∈ net.routes, r.table ∈ keys → r.table ∈ left)
    (nat : ∀ r ∈ net.nat, r.mark ∈ keys → r.mark ∈ left) : net.others left = net.others keys := by
  have hrules : net.rules.filter (fun r => !left.any (r.keyedBy ·)) =
      net.rules.filter fun r => !keys.any (r.keyedBy ·) := by
    refine List.filter_congr fun rule hrule => congrArg (!·) (Bool.eq_iff_iff.mpr ⟨?_, ?_⟩)
    · intro hany
      obtain ⟨key, hkey, hby⟩ := List.any_eq_true.mp hany
      exact List.any_eq_true.mpr ⟨key, sub hkey, hby⟩
    · intro hany
      obtain ⟨key, hkey, hby⟩ := List.any_eq_true.mp hany
      refine List.any_eq_true.mpr ⟨key, ?_, hby⟩
      by_contra hleft
      exact Bool.false_ne_true ((rules rule hrule key hkey hleft).symm.trans hby)
  have hkeys : ∀ key : UInt32, (key ∈ keys → key ∈ left) →
      (!left.contains key) = !keys.contains key := by
    intro key hmem
    by_cases hkey : key ∈ keys
    · simp [hkey, hmem hkey]
    · simp [hkey, mt (@sub key) hkey]
  have hroutes := List.filter_congr fun r hr => hkeys r.table (routes r hr)
  have hnat := List.filter_congr fun r hr => hkeys r.mark (nat r hr)
  rw [Net.others, Net.others, hrules, hroutes, hnat]

theorem Net.Drops.refl (mark : UInt32) (net : Net) : Net.Drops mark net net :=
  ⟨.refl _, .refl _, .refl _, rfl⟩

theorem Net.Drops.trans (h : Net.Drops mark net mid) (h' : Net.Drops mark mid net') :
    Net.Drops mark net net' :=
  ⟨h'.rules.trans h.rules, h'.routes.trans h.routes, h'.nat.trans h.nat, h'.others.trans h.others⟩

/-- A request of a clearing takes away what it says, and leaves the rest of the requests. -/
theorem NetRequest.Drops.exec {request : NetRequest} {todo todo' : List NetRequest}
    (h : request.Drops mark) (all : ∀ r ∈ todo, r.Drops mark)
    (taken : request.exec net todo = some (net', todo')) :
    Net.Drops mark net net' ∧ ∀ r ∈ todo', r.Drops mark := by
  cases request with
  | dumpTable table =>
    cases Option.some.inj taken
    refine ⟨.refl _ _, fun r hr => ?_⟩
    obtain hr | hr := List.mem_append.mp hr
    · obtain ⟨_, _, rfl⟩ := List.mem_map.mp hr
      exact h
    · exact all r hr
  | delRoute table dst =>
    cases Option.some.inj taken
    obtain rfl : table = mark := h
    refine ⟨⟨.refl _, List.filter_sublist, .refl _, ?_⟩, all⟩
    simp only [Net.others, Net.delRoute, List.filter_filter]
    congr 1
    refine List.filter_congr fun r _ => ?_
    by_cases htable : r.table = table
    · simp [htable]
    · simp [htable]
  | delRules test turns =>
    cases turns with
    | zero =>
      cases Option.some.inj taken
      exact ⟨.refl _ _, all⟩
    | succ turns =>
      simp only [NetRequest.exec] at taken
      split at taken
      next hany =>
        cases Option.some.inj taken
        refine ⟨⟨List.eraseP_sublist, .refl _, .refl _, ?_⟩, List.forall_mem_cons.mpr ⟨h, all⟩⟩
        have hrules := Net.others_delRules
          (fun rule htest => FibRule.any_keyedBy (List.mem_singleton_self mark) (h rule htest))
          1 net.rules
        rw [Net.delRules, if_pos hany, Net.delRules] at hrules
        simp only [Net.others, hrules]
      next =>
        cases Option.some.inj taken
        exact ⟨.refl _ _, all⟩
  | delNat m =>
    cases Option.some.inj taken
    obtain rfl : m = mark := h
    refine ⟨⟨.refl _, .refl _, List.filter_sublist, ?_⟩, all⟩
    simp only [Net.others, List.filter_filter]
    congr 1
    refine List.filter_congr fun r _ => ?_
    by_cases hmark : r.mark = m
    · simp [hmark]
    · simp [hmark]
  | newRule | newRoute | dumpMain | cloneRoute | newNat => exact absurd h id

theorem leads_drops {todo todo' : List NetRequest} (all : ∀ r ∈ todo, r.Drops mark)
    (leads : Leads net todo net' todo') : Net.Drops mark net net' := by
  obtain ⟨events, run⟩ := leads
  refine (run.invariant (I := fun r => Net.Drops mark net r.1 ∧ ∀ q ∈ r.2, q.Drops mark) ?_
    ⟨.refl _ _, all⟩).1
  rintro ⟨net₁, todo₁⟩ _ ⟨net₂, todo₂⟩ ⟨drops, hall⟩ _ taken
  cases todo₁ with
  | nil => cases taken
  | cons request todo₁ =>
    obtain ⟨hdrops, hrest⟩ := List.forall_mem_cons.mp hall
    obtain ⟨drops', hall'⟩ := hdrops.exec hrest taken
    exact ⟨drops.trans drops', hall'⟩

theorem clearRequests_drop (mark : UInt32) : ∀ r ∈ clearRequests mark, r.Drops mark := by
  simp +contextual [clearRequests, NetRequest.Drops, FibRule.keyedBy]

end

namespace DnsState

variable {c : Crates} {dc : DnsCrates} {ctx : DnsCtx} {now : Nat} {dns dns' : DnsState}
  {net mid net' : Net} {table : UInt32}

theorem withinTable_refl (table : UInt32) (net : Net) : net.WithinTable table net := ⟨rfl, rfl, rfl⟩

theorem withinTable_trans (h : Net.WithinTable table net mid) (h' : Net.WithinTable table mid net') :
    Net.WithinTable table net net' :=
  ⟨h'.rules.trans h.rules, h'.nat.trans h.nat, h'.routes.trans h.routes⟩

theorem withinTable_clearTable (table : UInt32) (net : Net) :
    Net.WithinTable table net (net.clearTable table) := by
  refine ⟨rfl, rfl, ?_⟩
  rw [Net.clearTable, List.filter_filter]
  exact List.filter_congr fun r _ => Bool.and_self _

theorem withinTable_setupRecord (net : Net) (rec : DnsRecord) (dir : Direction) :
    Net.WithinTable ctx.dnsTable net ((setupRecord ctx net rec dir).getD net) := by
  rw [setupRecord_routeOf]
  cases ctx.routeOf dir with
  | none => exact withinTable_refl _ _
  | some route =>
    rw [Option.elim_some]
    cases hnew : net.newRoute { table := ctx.dnsTable, dst := rec.net, oif := route.ifindex,
                                prefsrc := route.addrs.head?, gateway := route.gateway } with
    | none => exact withinTable_refl _ _
    | some net' =>
      rw [Option.getD_some, newRoute_eq hnew]
      exact ⟨rfl, rfl, by simp⟩

theorem withinTable_removeRecord (net : Net) (rec : DnsRecord) :
    Net.WithinTable ctx.dnsTable net (removeRecord ctx net rec) := by
  refine ⟨rfl, rfl, ?_⟩
  rw [removeRecord, Net.delRoute, List.filter_filter]
  refine List.filter_congr fun r _ => ?_
  by_cases htable : r.table = ctx.dnsTable
  · simp [htable]
  · simp [htable]

theorem withinTable_parse {data : Except String DnsMessage}
    (h : parse dc ctx now data dns net = .ok (dns', net')) :
    Net.WithinTable ctx.dnsTable net net' := by
  refine parse_invariant (I := fun _ net' => Net.WithinTable ctx.dnsTable net net')
    (fun dns mid ans hmid => ?_) h (withinTable_refl _ _)
  rcases parseAnswer_cases dns mid ans with ⟨hash, _, heq⟩ | ⟨record, dir, _, _, heq⟩
  · rw [heq]
    exact hmid
  · rw [heq]
    exact withinTable_trans hmid (withinTable_setupRecord mid record dir)

variable (ctx) in
theorem withinTable_sweepLoop (fuel : Nat) (dns : DnsState) (net : Net) :
    Net.WithinTable ctx.dnsTable net (sweepLoop dc ctx now fuel dns net).2 := by
  induction fuel generalizing dns net with
  | zero => exact withinTable_refl _ _
  | succ fuel ih =>
    rw [sweepLoop]
    split
    next => exact withinTable_refl _ _
    next rec _ _ =>
      split
      next =>
        dsimp only
        split
        next => exact ih _ net
        next => exact withinTable_trans (withinTable_removeRecord net rec) (ih _ _)
      next => exact withinTable_refl _ _

variable (ctx) in
theorem withinTable_removeRecords (name : Option DnsName) (dest : Option UInt32) (dns : DnsState)
    (net : Net) : Net.WithinTable ctx.dnsTable net (removeRecords ctx name dest dns net).2.2 := by
  have hfold : ∀ (recs : List DnsRecord) (found : Bool) (dns : DnsState) (net : Net),
      Net.WithinTable ctx.dnsTable net
        (recs.foldl (removeStep ctx name dest) (found, dns, net)).2.2 := by
    intro recs
    induction recs with
    | nil => exact fun _ _ net => withinTable_refl _ net
    | cons rec recs ih =>
      intro found dns net
      rw [List.foldl_cons, removeStep]
      split
      next => exact withinTable_trans (withinTable_removeRecord net rec) (ih _ _ _)
      next => exact ih _ _ net
  exact hfold dns.heap false _ net

variable (ctx) in
theorem withinTable_watchDnsRoutes (updateCaches : Bool) (dns : DnsState) (net : Net) :
    Net.WithinTable ctx.dnsTable net (watchDnsRoutes c dc ctx updateCaches dns net).2 := by
  have hfold : ∀ (cache : DnsCache) (recs : List DnsRecord) (net : Net),
      Net.WithinTable ctx.dnsTable net (recs.foldl (setupAgain dc ctx cache) net) := by
    intro cache recs
    induction recs with
    | nil => exact fun net => withinTable_refl _ net
    | cons rec recs ih =>
      intro net
      refine withinTable_trans ?_ (ih _)
      unfold setupAgain
      split
      next dir _ _ => exact withinTable_setupRecord net rec dir
      next => exact withinTable_refl _ _
  unfold watchDnsRoutes
  dsimp only
  split
  · exact withinTable_trans (withinTable_clearTable _ net) (hfold _ _ _)
  · exact withinTable_clearTable _ net

end DnsState

end Rebpf
