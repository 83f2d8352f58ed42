import Rebpf.DnsClassify
import Rebpf.DnsDisabled

namespace Rebpf

open Lib DnsState

/-- What happens while no record expires and nothing else changes: packets come
in, and the table is rebuilt in whatever order the heap hands its records out. -/
inductive Arrival
  | packet (now : Nat) (data : Except String DnsMessage)
  | rebuild (updateCaches : Bool) (order : List DnsRecord)

/-- The answers of a packet that is used. -/
def Arrival.answers : Arrival → List DnsAnswer
  | .packet _ (.ok m) => if m.isResponse && m.responseCode == .noError then m.answers else []
  | _ => []

def answersOf (events : List Arrival) : List DnsAnswer := events.flatMap Arrival.answers

def Dns.arrive (c : Crates) (dc : DnsCrates) (s : Dns) : Arrival → Option Dns
  | .packet now data => s.step c dc (.answers now data)
  | .rebuild updateCaches order =>
    if s.dns.heap.Perm order then
      Dns.step c dc { s with dns := { s.dns with heap := order } } (.rebuild updateCaches)
    else none

/-- The device that packets of a direction leave through. -/
def DnsCtx.device (ctx : DnsCtx) (dir : Direction) : Option UInt32 :=
  (ctx.routeOf dir).map (·.ifindex)

/-- The device of the route to an address. -/
def Net.deviceTo (net : Net) (table : UInt32) (dest : UInt32) : Option UInt32 :=
  (net.routes.find? fun r => r.table == table && r.dst == ⟨dest, 32⟩).map (·.oif)

/-- The enabled service has just started: both links are there, the cache is that of
the list, and there are no records and no routes yet. -/
structure Dns.Started (c : Crates) (s : Dns) : Prop where
  available : s.ctx.Available
  cache : s.dns.cache.update c s.ctx.conf.ms = s.dns.cache
  heap : s.dns.heap = []
  hash : s.dns.hash = .empty foldedKey Nat
  unrouted : ∀ d, ¬s.net.Routed s.ctx.dnsTable d

/-- The matching ones among the answers, with the direction the cache has for their name. -/
def hitsOf (dc : DnsCrates) (cache : DnsCache) (answers : List DnsAnswer) :
    List ((DnsName × UInt32) × Direction) :=
  answers.filterMap (DnsAnswer.hit dc cache)

/-- Whatever the order of the answers, every address gets the same device, and that
of `bypass` if one of its records is classified so. -/
def OrderFree (c : Crates) (dc : DnsCrates) (s₀ : Dns) (answers : List DnsAnswer) : Prop :=
  ∀ events s, Run (Dns.arrive c dc) (fun _ _ => True) s₀ events s →
    (answersOf events).Perm answers →
    (∀ events' t, Run (Dns.arrive c dc) (fun _ _ => True) s₀ events' t →
      (answersOf events').Perm answers → ∀ dest,
        s.net.deviceTo s.ctx.dnsTable dest = t.net.deviceTo t.ctx.dnsTable dest) ∧
    ∀ rec ∈ s.dns.heap, (s.dns.cache.get dc rec.name).map (·.1) = some .bypass →
      s.net.deviceTo s.ctx.dnsTable rec.dest = s.ctx.device .bypass

/-- Answers for one address lead to one device. -/
def OneDevice (dc : DnsCrates) (s : Dns) (answers : List DnsAnswer) : Prop :=
  ∀ hit ∈ hitsOf dc s.dns.cache answers, ∀ hit' ∈ hitsOf dc s.dns.cache answers,
    hit.1.2 = hit'.1.2 → s.ctx.device hit.2 = s.ctx.device hit'.2

section

variable {c : Crates} {dc : DnsCrates} {ctx : DnsCtx} {now : Nat} {cache : DnsCache}
  {dns dns' : DnsState} {net net' : Net} {got : List DnsAnswer}

theorem hit_get {hit : (DnsName × UInt32) × Direction} (h : hit ∈ hitsOf dc cache got) :
    ∃ i, cache.get dc hit.1.1 = some (hit.2, i) := by
  obtain ⟨ans, _, hhit⟩ := List.mem_filterMap.mp h
  unfold DnsAnswer.hit at hhit
  cases hdata : ans.data with
  | other =>
    rw [hdata] at hhit
    cases hhit
  | a dest =>
    rw [hdata] at hhit
    obtain ⟨⟨dir, i⟩, hget, rfl⟩ := Option.map_eq_some_iff.mp hhit
    exact ⟨i, hget⟩

/-- What is known after some answers: each record is that of an answer, each matching
answer has a record for its address, and each route leads to the device of an answer. -/
structure Arrived (dc : DnsCrates) (ctx : DnsCtx) (cache : DnsCache) (got : List DnsAnswer)
    (dns : DnsState) (net : Net) : Prop where
  same : dns.cache = cache
  keyed : dns.Keyed
  mirrors : ∀ d, net.Routed ctx.dnsTable d ↔ ∃ rec ∈ dns.heap, rec.net = d
  records : ∀ rec ∈ dns.heap, ∃ dir, (rec.key, dir) ∈ hitsOf dc cache got
  hits : ∀ hit ∈ hitsOf dc cache got, ∃ rec ∈ dns.heap, rec.dest = hit.1.2
  routes : ∀ r ∈ net.routes, r.table = ctx.dnsTable → ∃ hit ∈ hitsOf dc cache got,
    r.dst = ⟨hit.1.2, 32⟩ ∧ ctx.device hit.2 = some r.oif

/-- A record's route, if one is made, leads to the device of its direction. -/
theorem setupRecord_route {rec : DnsRecord} {dir : Direction} {r : FibRoute}
    (h : r ∈ ((setupRecord ctx net rec dir).getD net).routes) :
    r ∈ net.routes ∨ r.dst = rec.net ∧ ctx.device dir = some r.oif := by
  rw [setupRecord_routeOf] at h
  unfold DnsCtx.device
  cases hof : ctx.routeOf dir with
  | none =>
    rw [hof] at h
    exact Or.inl h
  | some route =>
    rw [hof, Option.elim_some] at h
    cases hnew : net.newRoute _ with
    | none =>
      rw [hnew] at h
      exact Or.inl h
    | some net' =>
      rw [hnew, Option.getD_some, newRoute_eq hnew] at h
      rcases List.mem_append.mp h with h | h
      · exact Or.inl h
      · rw [List.mem_singleton.mp h]
        exact Or.inr ⟨rfl, rfl⟩

/-- A matching answer renews a record that is there, or adds its own. -/
theorem parseAnswer_hit_cases (net : Net) {ans : DnsAnswer} {key : DnsName × UInt32}
    {dir : Direction} (h : ans.hit dc dns.cache = some (key, dir)) :
    (dns.hash.lookup key ≠ none ∧ ∃ hash,
      parseAnswer dc ctx now (dns, net) ans = ({ dns with hash }, net)) ∨
    (dns.hash.lookup key = none ∧ ∃ rec sleeper hash, rec.key = key ∧
      parseAnswer dc ctx now (dns, net) ans =
        (⟨sleeper, dns.heap ++ [rec], hash, dns.cache⟩, (setupRecord ctx net rec dir).getD net)) := by
  unfold DnsAnswer.hit at h
  cases hdata : ans.data with
  | other =>
    rw [hdata] at h
    cases h
  | a dest =>
    rw [hdata] at h
    obtain ⟨⟨dir, i⟩, hget, heq⟩ := Option.map_eq_some_iff.mp h
    obtain ⟨rfl, rfl⟩ := Prod.mk.inj heq
    simp only [parseAnswer, hdata, hget]
    split
    next hsome => exact Or.inl ⟨Option.ne_none_iff_exists'.mpr ⟨_, hsome⟩, _, rfl⟩
    next hnone => exact Or.inr ⟨hnone, ⟨_, dest, _⟩, _, _, rfl, rfl⟩

theorem DnsState.Keyed.record_of_lookup (keyed : dns.Keyed) {key : DnsName × UInt32}
    (h : dns.hash.lookup key ≠ none) : ∃ rec ∈ dns.heap, foldedKey rec.key = foldedKey key := by
  have hmem := not_not.mp (mt SpelledMap.lookup_eq_none_keys.mpr h)
  obtain ⟨k, hk, hkey⟩ := List.mem_map.mp hmem
  obtain ⟨rec, hrec, rfl⟩ := List.mem_map.mp (keyed.mem_iff.mpr hk)
  exact ⟨rec, hrec, hkey⟩

theorem Arrived.answer (available : ctx.Available) (h : Arrived dc ctx cache got dns net)
    (ans : DnsAnswer) :
    Arrived dc ctx cache (got ++ [ans]) (parseAnswer dc ctx now (dns, net) ans).1
      (parseAnswer dc ctx now (dns, net) ans).2 := by
  have answered : Answered ctx dns (parseAnswer dc ctx now (dns, net) ans).1 net _ :=
    parseAnswer_answered available dns net ans
  have keyed := answered.keyed h.keyed
  have mirrors := fun d => answered.routed d (h.mirrors d)
  cases hhit : ans.hit dc dns.cache with
  | none =>
    have hgot : hitsOf dc cache (got ++ [ans]) = hitsOf dc cache got := by
      rw [h.same] at hhit
      simp [hitsOf, hhit]
    rw [parseAnswer_miss hhit] at keyed mirrors ⊢
    exact ⟨h.same, keyed, mirrors, by rw [hgot]; exact h.records, by rw [hgot]; exact h.hits,
      by rw [hgot]; exact h.routes⟩
  | some hit =>
    obtain ⟨key, dir⟩ := hit
    have hgot : hitsOf dc cache (got ++ [ans]) = hitsOf dc cache got ++ [(key, dir)] := by
      rw [h.same] at hhit
      simp [hitsOf, hhit]
    have hold : ∀ hit ∈ hitsOf dc cache got, hit ∈ hitsOf dc cache (got ++ [ans]) := by
      intro hit hmem
      rw [hgot]
      exact List.mem_append_left _ hmem
    have hnew : (key, dir) ∈ hitsOf dc cache (got ++ [ans]) := by
      rw [hgot]
      exact List.mem_append_right _ (List.mem_singleton_self _)
    rcases parseAnswer_hit_cases net hhit with ⟨hthere, hash, heq⟩ | ⟨_, rec, sleeper, hash, hkey, heq⟩
    · rw [heq] at keyed mirrors ⊢
      refine ⟨h.same, keyed, mirrors, fun rec hrec => ?_, fun hit hmem => ?_, fun r hr htable => ?_⟩
      · obtain ⟨dir', hmem⟩ := h.records rec hrec
        exact ⟨dir', hold _ hmem⟩
      · rw [hgot] at hmem
        rcases List.mem_append.mp hmem with hmem | hmem
        · exact h.hits hit hmem
        · obtain ⟨rec, hrec, hkey⟩ := h.keyed.record_of_lookup hthere
          rw [List.mem_singleton.mp hmem]
          exact ⟨rec, hrec, congrArg Prod.snd hkey⟩
      · obtain ⟨hit, hmem, hroute⟩ := h.routes r hr htable
        exact ⟨hit, hold hit hmem, hroute⟩
    · rw [heq] at keyed mirrors ⊢
      refine ⟨h.same, keyed, mirrors, fun r hr => ?_, fun hit hmem => ?_, fun r hr htable => ?_⟩
      · rcases List.mem_append.mp hr with hr | hr
        · obtain ⟨dir', hmem⟩ := h.records r hr
          exact ⟨dir', hold _ hmem⟩
        · rw [List.mem_singleton.mp hr, hkey]
          exact ⟨dir, hnew⟩
      · rw [hgot] at hmem
        rcases List.mem_append.mp hmem with hmem | hmem
        · obtain ⟨r, hr, hdest⟩ := h.hits hit hmem
          exact ⟨r, List.mem_append_left _ hr, hdest⟩
        · rw [List.mem_singleton.mp hmem]
          exact ⟨rec, List.mem_append_right _ (List.mem_singleton_self _), congrArg Prod.snd hkey⟩
      · rcases setupRecord_route hr with hr | ⟨hdst, hdevice⟩
        · obtain ⟨hit, hmem, hroute⟩ := h.routes r hr htable
          exact ⟨hit, hold hit hmem, hroute⟩
        · refine ⟨(key, dir), hnew, ?_, hdevice⟩
          rw [hdst, ← hkey]
          rfl

theorem Arrived.foldl (available : ctx.Available) (answers : List DnsAnswer)
    (h : Arrived dc ctx cache got dns net) :
    Arrived dc ctx cache (got ++ answers) (answers.foldl (parseAnswer dc ctx now) (dns, net)).1
      (answers.foldl (parseAnswer dc ctx now) (dns, net)).2 := by
  induction answers generalizing got dns net with
  | nil =>
    rw [List.append_nil]
    exact h
  | cons ans answers ih =>
    rw [List.append_cons]
    exact ih (h.answer available ans)

theorem Arrived.packet (available : ctx.Available) (h : Arrived dc ctx cache got dns net)
    {data : Except String DnsMessage} (hparse : parse dc ctx now data dns net = .ok (dns', net')) :
    Arrived dc ctx cache (got ++ (Arrival.packet now data).answers) dns' net' := by
  obtain ⟨m, rfl, hresponse, hcode, heq⟩ := parse_ok hparse
  have hanswers : (Arrival.packet now (.ok m)).answers = m.answers := by
    simp [Arrival.answers, hresponse, hcode]
  have hfold : Arrived dc ctx cache (got ++ m.answers)
      (m.answers.foldl (parseAnswer dc ctx now) (dns, net)).1 _ := h.foldl available m.answers
  rw [heq] at hfold
  rw [hanswers]
  exact hfold

/-- A packet that is not used brings no answers. -/
theorem answers_of_error {data : Except String DnsMessage} {err : Failure}
    (h : parse dc ctx now data dns net = .error err) : (Arrival.packet now data).answers = [] := by
  cases data with
  | error text => rfl
  | ok m =>
    by_cases hused : (m.isResponse && m.responseCode == .noError) = true
    · obtain ⟨hresponse, hcode⟩ := (Bool.and_eq_true _ _).mp hused
      simp only [Arrival.answers, hused, if_true]
      by_contra hne
      have hcode : m.responseCode = .noError := eq_of_beq hcode
      have hsome : m.answers.isEmpty = false := by
        rw [Bool.eq_false_iff]
        exact fun hempty => hne (List.isEmpty_iff.mp hempty)
      have hok : parse dc ctx now (.ok m) dns net =
          .ok (m.answers.foldl (parseAnswer dc ctx now) (dns, net)) := by
        simp [parse, Except.mapError, ensure, hresponse, hcode, hsome, bind, Except.bind]
      rw [hok] at h
      cases h
    · simp [Arrival.answers, hused]

/-- Every route that a rebuild makes leads to the device of its record. -/
theorem setupAgain_route (heap : List DnsRecord) (net : Net) {r : FibRoute}
    (h : r ∈ (heap.foldl (setupAgain dc ctx cache) net).routes) :
    r ∈ net.routes ∨ ∃ rec ∈ heap, ∃ dir i, cache.get dc rec.name = some (dir, i) ∧
      r.dst = rec.net ∧ ctx.device dir = some r.oif := by
  induction heap generalizing net with
  | nil => exact Or.inl h
  | cons rec heap ih =>
    rw [List.foldl_cons] at h
    rcases ih _ h with h | ⟨rec', hrec', hroute⟩
    · unfold setupAgain at h
      cases hget : cache.get dc rec.name with
      | none =>
        rw [hget] at h
        exact Or.inl h
      | some result =>
        rw [hget] at h
        rcases setupRecord_route h with h | hroute
        · exact Or.inl h
        · exact Or.inr ⟨rec, List.mem_cons_self, result.1, result.2, hget, hroute⟩
    · exact Or.inr ⟨rec', List.mem_cons_of_mem _ hrec', hroute⟩

theorem Arrived.reorder (h : Arrived dc ctx cache got dns net) {order : List DnsRecord}
    (perm : dns.heap.Perm order) : Arrived dc ctx cache got { dns with heap := order } net where
  same := h.same
  keyed := (perm.map DnsRecord.key).symm.trans h.keyed
  mirrors d := (h.mirrors d).trans (exists_congr fun _ => and_congr_left fun _ => perm.mem_iff)
  records rec hrec := h.records rec (perm.mem_iff.mpr hrec)
  hits hit hmem := by
    obtain ⟨rec, hrec, hdest⟩ := h.hits hit hmem
    exact ⟨rec, perm.mem_iff.mp hrec, hdest⟩
  routes := h.routes

/-- A rebuild keeps every record, since the cache knows them all, and sets its route
up again. -/
theorem Arrived.rebuild (available : ctx.Available) (updated : cache.update c ctx.conf.ms = cache)
    (h : Arrived dc ctx cache got dns net) (updateCaches : Bool) :
    Arrived dc ctx cache got (watchDnsRoutes c dc ctx updateCaches dns net).1
      (watchDnsRoutes c dc ctx updateCaches dns net).2 := by
  have hcache : (if updateCaches then dns.cache.update c ctx.conf.ms else dns.cache) = cache := by
    rw [h.same, updated, ite_self]
  have hclass : ∀ rec ∈ dns.heap, ∃ dir i, (rec.key, dir) ∈ hitsOf dc cache got ∧
      cache.get dc rec.name = some (dir, i) := by
    intro rec hrec
    obtain ⟨dir, hmem⟩ := h.records rec hrec
    obtain ⟨i, hget⟩ := hit_get hmem
    exact ⟨dir, i, hmem, hget⟩
  have hheap : (dns.heap.filter fun rec => (cache.get dc rec.name).isSome) = dns.heap := by
    refine List.filter_eq_self.mpr fun rec hrec => ?_
    obtain ⟨dir, i, _, hget⟩ := hclass rec hrec
    rw [hget]
    rfl
  have hkeyed : (watchDnsRoutes c dc ctx updateCaches dns net).1.Keyed :=
    watchDnsRoutes_keyed h.keyed updateCaches net
  have hrouted : ∀ d, (watchDnsRoutes c dc ctx updateCaches dns net).2.Routed ctx.dnsTable d ↔ _ :=
    watchDnsRoutes_rebuilt available dns updateCaches net
  have hheap' : (watchDnsRoutes c dc ctx updateCaches dns net).1.heap = dns.heap := by
    simp only [watchDnsRoutes, hcache, hheap]
  refine ⟨hcache, hkeyed, hrouted, ?_, ?_, fun r hr htable => ?_⟩
  · rw [hheap']
    exact h.records
  · rw [hheap']
    exact h.hits
  · simp only [watchDnsRoutes, hcache, hheap, available.enable, if_true] at hr
    rcases setupAgain_route dns.heap _ hr with hr | ⟨rec, hrec, dir, i, hget, hdst, hdevice⟩
    · exact absurd htable (by simpa using (List.mem_filter.mp hr).2)
    · obtain ⟨dir', i', hmem, hget'⟩ := hclass rec hrec
      rw [hget] at hget'
      obtain ⟨rfl, _⟩ := Prod.mk.inj (Option.some.inj hget')
      exact ⟨(rec.key, dir), hmem, hdst, hdevice⟩

end

namespace Dns

variable {c : Crates} {dc : DnsCrates} {s₀ s t : Dns} {got : List DnsAnswer}

/-- The state after some arrivals: the context is that of the start. -/
structure After (dc : DnsCrates) (s₀ : Dns) (got : List DnsAnswer) (s : Dns) : Prop where
  ctx : s.ctx = s₀.ctx
  arrived : Arrived dc s.ctx s₀.dns.cache got s.dns s.net

theorem arrive_step (started : s₀.Started c) (h : After dc s₀ got s) {event : Arrival}
    (step : s.arrive c dc event = some t) : After dc s₀ (got ++ event.answers) t := by
  have available : s.ctx.Available := h.ctx ▸ started.available
  have updated : s₀.dns.cache.update c s.ctx.conf.ms = s₀.dns.cache := h.ctx ▸ started.cache
  cases event with
  | packet now data =>
    simp only [arrive, Dns.step] at step
    split at step
    next hparse =>
      cases Option.some.inj step
      exact ⟨h.ctx, h.arrived.packet available hparse⟩
    next hparse =>
      cases Option.some.inj step
      rw [answers_of_error hparse, List.append_nil]
      exact h
  | rebuild updateCaches order =>
    simp only [arrive] at step
    split at step
    next hperm =>
      have rebuilt := (h.arrived.reorder hperm).rebuild available updated updateCaches
      cases Option.some.inj step
      rw [show (Arrival.rebuild updateCaches order).answers = [] from rfl, List.append_nil]
      exact ⟨h.ctx, rebuilt⟩
    next => cases step

theorem arrive_after (started : s₀.Started c) {events : List Arrival} (h : After dc s₀ got s)
    (run : Run (arrive c dc) (fun _ _ => True) s events t) :
    After dc s₀ (got ++ answersOf events) t := by
  induction run generalizing got with
  | nil =>
    rw [answersOf, List.flatMap_nil, List.append_nil]
    exact h
  | cons _ step _ ih =>
    rw [answersOf, List.flatMap_cons, ← List.append_assoc]
    exact ih (arrive_step started h step)

theorem arrive_run (started : s₀.Started c) {events : List Arrival}
    (run : Run (arrive c dc) (fun _ _ => True) s₀ events s) : After dc s₀ (answersOf events) s := by
  have start : Arrived dc s₀.ctx s₀.dns.cache [] s₀.dns s₀.net := by
    refine ⟨rfl, ?_, fun d => ?_, ?_, ?_, ?_⟩
    · rw [Keyed, started.heap, started.hash]
      exact List.Perm.nil
    · rw [started.heap]
      refine iff_of_false (started.unrouted d) ?_
      rintro ⟨_, hrec, _⟩
      cases hrec
    · rw [started.heap]
      intro rec hrec
      cases hrec
    · intro hit hmem
      cases hmem
    · intro r hr htable
      exact absurd ⟨r, hr, htable, rfl⟩ (started.unrouted r.dst)
  exact arrive_after started ⟨rfl, start⟩ run

theorem hits_perm {cache : DnsCache} {answers : List DnsAnswer} (perm : got.Perm answers)
    (hit : (DnsName × UInt32) × Direction) :
    hit ∈ hitsOf dc cache got ↔ hit ∈ hitsOf dc cache answers :=
  (perm.filterMap _).mem_iff

/-- The address of a matching answer has the device of that answer. -/
theorem After.deviceTo_hit (h : After dc s₀ got s) (one : OneDevice dc s₀ got)
    {hit : (DnsName × UInt32) × Direction} (hmem : hit ∈ hitsOf dc s₀.dns.cache got) :
    s.net.deviceTo s.ctx.dnsTable hit.1.2 = s₀.ctx.device hit.2 := by
  obtain ⟨rec, hrec, hdest⟩ := h.arrived.hits hit hmem
  obtain ⟨r, hr, htable, hdst⟩ := (h.arrived.mirrors rec.net).mpr ⟨rec, hrec, rfl⟩
  have hnet : rec.net = ⟨hit.1.2, 32⟩ := by rw [DnsRecord.net, hdest]
  unfold Net.deviceTo
  cases hfind : s.net.routes.find? fun r => r.table == s.ctx.dnsTable && r.dst == ⟨hit.1.2, 32⟩ with
  | none =>
    have hno := List.find?_eq_none.mp hfind r hr
    simp [htable, hdst, hnet] at hno
  | some route =>
    have htest := List.find?_some hfind
    obtain ⟨htable', hdst'⟩ := (Bool.and_eq_true _ _).mp htest
    obtain ⟨hit', hmem', hdst, hdevice⟩ :=
      h.arrived.routes route (List.mem_of_find?_eq_some hfind) (eq_of_beq htable')
    have hnets : (⟨hit.1.2, 32⟩ : Ipv4Net) = ⟨hit'.1.2, 32⟩ := (eq_of_beq hdst').symm.trans hdst
    have haddr : hit.1.2 = hit'.1.2 := congrArg Ipv4Net.addr hnets
    rw [one hit hmem hit' hmem' haddr, ← h.ctx, hdevice]
    rfl

theorem After.deviceTo_none (h : After dc s₀ got s) {dest : UInt32}
    (none : ∀ hit ∈ hitsOf dc s₀.dns.cache got, hit.1.2 ≠ dest) :
    s.net.deviceTo s.ctx.dnsTable dest = .none := by
  rw [Net.deviceTo, Option.map_eq_none_iff, List.find?_eq_none]
  intro route hroute htest
  obtain ⟨htable, hdst⟩ := (Bool.and_eq_true _ _).mp htest
  obtain ⟨hit, hmem, hdst', _⟩ := h.arrived.routes route hroute (eq_of_beq htable)
  have hnets : (⟨hit.1.2, 32⟩ : Ipv4Net) = ⟨dest, 32⟩ := hdst'.symm.trans (eq_of_beq hdst)
  exact none hit hmem (congrArg Ipv4Net.addr hnets)

theorem deviceTo_prefix {net net' : Net} (h : net.routes <+: net'.routes) {table dest oif : UInt32}
    (hdevice : net.deviceTo table dest = some oif) : net'.deviceTo table dest = some oif := by
  obtain ⟨route, hroute, hoif⟩ := Option.map_eq_some_iff.mp hdevice
  obtain ⟨more, hmore⟩ := h
  rw [Net.deviceTo, ← hmore, find?_append_of_some hroute, Option.map_some, hoif]

/-- A table without a route to the address takes the one of the record. -/
theorem deviceTo_setupRecord {ctx : DnsCtx} {net : Net} {rec : DnsRecord} {dir : Direction}
    (unrouted : ¬net.Routed ctx.dnsTable rec.net) {oif : UInt32}
    (hdevice : ctx.device dir = some oif) :
    ((setupRecord ctx net rec dir).getD net).deviceTo ctx.dnsTable rec.dest = some oif := by
  obtain ⟨route, hroute, rfl⟩ := Option.map_eq_some_iff.mp hdevice
  have hnone : (net.routes.find? fun r => r.table == ctx.dnsTable && r.dst == ⟨rec.dest, 32⟩) =
      none := by
    rw [List.find?_eq_none]
    intro r hr htest
    obtain ⟨htable, hdst⟩ := (Bool.and_eq_true _ _).mp htest
    exact unrouted ⟨r, hr, eq_of_beq htable, eq_of_beq hdst⟩
  have hnew : ¬(net.routes.any fun r => r.table == ctx.dnsTable && r.dst == rec.net) = true := by
    intro hany
    obtain ⟨r, hr, htest⟩ := List.any_eq_true.mp hany
    exact List.find?_eq_none.mp hnone r hr htest
  rw [setupRecord_routeOf, hroute, Option.elim_some, Net.newRoute, if_neg hnew, Option.getD_some,
    Net.deviceTo, find?_append_of_none hnone]
  simp [DnsRecord.net]

/-- The first answer of a packet decides on the device of its address. -/
theorem deviceTo_first (started : s₀.Started c) {ans : DnsAnswer} (answers : List DnsAnswer)
    {hit : (DnsName × UInt32) × Direction} (hhit : ans.hit dc s₀.dns.cache = some hit) :
    ∃ s, Run (arrive c dc) (fun _ _ => True) s₀
        [.packet 0 (.ok ⟨1, ans :: answers, true, .noError⟩)] s ∧ s.ctx = s₀.ctx ∧
      s.net.deviceTo s.ctx.dnsTable hit.1.2 = s₀.ctx.device hit.2 := by
  refine ⟨_, .single trivial rfl, rfl, ?_⟩
  obtain ⟨key, dir⟩ := hit
  show (answers.foldl (parseAnswer dc s₀.ctx 0)
    (parseAnswer dc s₀.ctx 0 (s₀.dns, s₀.net) ans)).2.deviceTo s₀.ctx.dnsTable key.2 =
      s₀.ctx.device dir
  obtain ⟨oif, hdevice⟩ : ∃ oif, s₀.ctx.device dir = some oif := by
    cases dir with
    | redirect =>
      obtain ⟨route, hroute⟩ := Option.isSome_iff_exists.mp started.available.route
      exact ⟨route.ifindex, by simp [DnsCtx.device, DnsCtx.routeOf, hroute]⟩
    | bypass =>
      obtain ⟨route, hroute⟩ := Option.isSome_iff_exists.mp started.available.defaultRoute
      exact ⟨route.ifindex, by simp [DnsCtx.device, DnsCtx.routeOf, hroute]⟩
  rcases parseAnswer_hit_cases s₀.net hhit with ⟨hthere, _⟩ | ⟨_, rec, sleeper, hash, hkey, heq⟩
  · rw [started.hash] at hthere
    exact absurd rfl hthere
  · have hdest : key.2 = rec.dest := congrArg Prod.snd hkey.symm
    have hfirst := deviceTo_setupRecord (started.unrouted rec.net) hdevice
    rw [heq, hdest, hdevice]
    exact deviceTo_prefix (answers_keep answers _ _) hfirst

theorem oneDevice_of_orderFree (started : s₀.Started c) {answers : List DnsAnswer}
    (free : OrderFree c dc s₀ answers) : OneDevice dc s₀ answers := by
  intro hit hmem hit' hmem' haddr
  obtain ⟨ans, hans, hhit⟩ := List.mem_filterMap.mp hmem
  obtain ⟨ans', hans', hhit'⟩ := List.mem_filterMap.mp hmem'
  obtain ⟨s, run, hctx, hdevice⟩ := deviceTo_first started (answers.erase ans) hhit
  obtain ⟨t, run', hctx', hdevice'⟩ := deviceTo_first started (answers.erase ans') hhit'
  have hreceived : ∀ as : List DnsAnswer,
      answersOf [.packet 0 (.ok ⟨1, as, true, .noError⟩)] = as := fun as => List.append_nil as
  have same := (free _ s run (by rw [hreceived]; exact (List.perm_cons_erase hans).symm)).1 _ t
    run' (by rw [hreceived]; exact (List.perm_cons_erase hans').symm) hit.1.2
  rw [hdevice, haddr, hdevice'] at same
  exact same

/-- The device of an address does not depend on the order of the answers exactly if
all matching answers for it ask for one device. -/
theorem orderFree_iff (started : s₀.Started c) (answers : List DnsAnswer) :
    OrderFree c dc s₀ answers ↔ OneDevice dc s₀ answers := by
  constructor
  · exact oneDevice_of_orderFree started
  · intro one events s run hperm
    have after := arrive_run started run
    have one' : ∀ got : List DnsAnswer, got.Perm answers → OneDevice dc s₀ got := by
      intro got perm hit hmem hit' hmem'
      exact one hit ((hits_perm perm hit).mp hmem) hit' ((hits_perm perm hit').mp hmem')
    refine ⟨fun events' t run' hperm' dest => ?_, fun rec hrec hbypass => ?_⟩
    · have after' := arrive_run started run'
      by_cases hdest : ∃ hit ∈ hitsOf dc s₀.dns.cache answers, hit.1.2 = dest
      · obtain ⟨hit, hmem, rfl⟩ := hdest
        rw [after.deviceTo_hit (one' _ hperm) ((hits_perm hperm hit).mpr hmem),
          after'.deviceTo_hit (one' _ hperm') ((hits_perm hperm' hit).mpr hmem)]
      · have hnone : ∀ got : List DnsAnswer, got.Perm answers →
            ∀ hit ∈ hitsOf dc s₀.dns.cache got, hit.1.2 ≠ dest :=
          fun got perm hit hmem heq => hdest ⟨hit, (hits_perm perm hit).mp hmem, heq⟩
        rw [after.deviceTo_none (hnone _ hperm), after'.deviceTo_none (hnone _ hperm')]
    · obtain ⟨dir, hmem⟩ := after.arrived.records rec hrec
      obtain ⟨i, hget⟩ := hit_get hmem
      have hget : s₀.dns.cache.get dc rec.name = some (dir, i) := hget
      rw [after.arrived.same, hget] at hbypass
      obtain rfl : dir = .bypass := Option.some.inj hbypass
      rw [after.ctx]
      have hdevice := after.deviceTo_hit (one' _ hperm) hmem
      rw [after.ctx] at hdevice
      exact hdevice

end Dns

/-- The DFAs of `a` and of any name. -/
def sharedCrates : Crates :=
  { slashACrates with
    buildMany := fun _ pats =>
      if pats = ["^a\\.?$"] then .ok nameADfa
      else if pats = ["^(?:.*)\\.?$"] then .ok anyDfa
      else .error "unsupported" }

/-- Everything is redirected but `a`. -/
def sharedRules : Matches := ⟨[anyRule, nameARule .dns .bypass], 1, 2⟩

def startedDns : Dns :=
  { anyDns with
    ctx := { anyDns.ctx with conf := { anyDns.ctx.conf with ms := sharedRules } }
    dns := { DnsState.init with cache := DnsCache.update sharedCrates ⟨none⟩ sharedRules } }

theorem startedDns_started : startedDns.Started sharedCrates where
  available := ⟨rfl, rfl, rfl⟩
  cache := rfl
  heap := rfl
  hash := rfl
  unrouted d := anyDns_unrouted d

def answerFor (label : List UInt8) (dest : UInt32) : DnsAnswer := ⟨⟨[label], true⟩, 60, .a dest⟩

theorem Dns.orderFree_iff_started : OrderFree sharedCrates sampleDnsCrates startedDns
    [answerFor [97] (ipv4Addr 10 0 0 1), answerFor [98] (ipv4Addr 10 0 0 2)] := by
  refine (Dns.orderFree_iff startedDns_started _).mpr ?_
  unfold OneDevice
  decide +kernel

/-- An address that both `a` and `b` have gets the device of the one that came first. -/
theorem Dns.not_orderFree :
    ¬∀ {c : Crates} {dc : DnsCrates} {s₀ : Dns}, s₀.Started c → ∀ answers,
      OrderFree c dc s₀ answers := by
  intro h
  have free := @h sharedCrates sampleDnsCrates startedDns startedDns_started
    [answerFor [97] (ipv4Addr 10 0 0 1), answerFor [98] (ipv4Addr 10 0 0 1)]
  have one := Dns.oneDevice_of_orderFree startedDns_started free
  unfold OneDevice at one
  revert one
  decide +kernel

end Rebpf
