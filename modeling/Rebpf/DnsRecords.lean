import Rebpf.Dns

namespace Rebpf

open Lib

def Net.Routed (net : Net) (table : UInt32) (d : Ipv4Net) : Prop :=
  ∃ r ∈ net.routes, r.table = table ∧ r.dst = d

theorem Net.routed_delRoute (net : Net) (table : UInt32) (dst d : Ipv4Net) :
    (net.delRoute table dst).Routed table d ↔ net.Routed table d ∧ dst ≠ d := by
  constructor
  · rintro ⟨r, hr, htable, hdst⟩
    obtain ⟨hr, hkeep⟩ := List.mem_filter.mp hr
    refine ⟨⟨r, hr, htable, hdst⟩, ?_⟩
    rintro rfl
    simp [htable, hdst] at hkeep
  · rintro ⟨⟨r, hr, htable, hdst⟩, hne⟩
    refine ⟨r, List.mem_filter.mpr ⟨hr, ?_⟩, htable, hdst⟩
    simp [hdst, hne.symm]

theorem Net.not_routed_clearTable (net : Net) (table : UInt32) (d : Ipv4Net) :
    ¬(net.clearTable table).Routed table d := by
  rintro ⟨r, hr, htable, _⟩
  exact absurd htable (by simpa using (List.mem_filter.mp hr).2)

/-- An exclusive add either makes the route or finds the destination routed. -/
theorem Net.routed_newRoute (net : Net) (route : FibRoute) (d : Ipv4Net) :
    ((net.newRoute route).getD net).Routed route.table d ↔
      net.Routed route.table d ∨ route.dst = d := by
  unfold Net.newRoute
  split
  next hthere =>
    refine ⟨Or.inl, ?_⟩
    rintro (h | rfl)
    · exact h
    · obtain ⟨r, hr, htest⟩ := List.any_eq_true.mp hthere
      obtain ⟨htable, hdst⟩ := (Bool.and_eq_true _ _).mp htest
      exact ⟨r, hr, eq_of_beq htable, eq_of_beq hdst⟩
  next =>
    constructor
    · rintro ⟨r, hr, htable, hdst⟩
      rcases List.mem_append.mp hr with hr | hr
      · exact Or.inl ⟨r, hr, htable, hdst⟩
      · cases List.mem_singleton.mp hr
        exact Or.inr hdst
    · rintro (⟨r, hr, htable, hdst⟩ | hdst)
      · exact ⟨r, List.mem_append_left _ hr, htable, hdst⟩
      · exact ⟨route, List.mem_append_right _ (List.mem_singleton_self _), rfl, hdst⟩

structure DnsCtx.Available (ctx : DnsCtx) : Prop where
  enable : ctx.conf.enable = true
  route : ctx.route.isSome
  defaultRoute : ctx.defaultRoute.isSome

variable {c : Crates} {dc : DnsCrates} {ctx : DnsCtx} {now : Nat}

theorem setupRecord_routed (available : ctx.Available) (net : Net) (rec : DnsRecord)
    (dir : Direction) (d : Ipv4Net) :
    ((setupRecord ctx net rec dir).getD net).Routed ctx.dnsTable d ↔
      net.Routed ctx.dnsTable d ∨ rec.net = d := by
  obtain ⟨route, hroute⟩ := Option.isSome_iff_exists.mp available.route
  obtain ⟨defaultRoute, hdefault⟩ := Option.isSome_iff_exists.mp available.defaultRoute
  cases dir with
  | redirect =>
    simp only [setupRecord, hroute]
    exact net.routed_newRoute _ d
  | bypass =>
    simp only [setupRecord, hdefault]
    exact net.routed_newRoute _ d

namespace DnsState

/-- The records of the heap are those of the hash, in the same spelling. -/
def Keyed (dns : DnsState) : Prop := (dns.heap.map DnsRecord.key).Perm dns.hash.keys

theorem Keyed.apart {dns : DnsState} {rec : DnsRecord} {rest : List DnsRecord} (h : dns.Keyed)
    (hperm : dns.heap.Perm (rec :: rest)) :
    ∀ r ∈ rest, foldedKey r.key ≠ foldedKey rec.key := by
  have hkeys := ((hperm.map DnsRecord.key).symm.trans h).map foldedKey
  have hnodup := hkeys.nodup_iff.mpr dns.hash.keys_nodup
  rw [List.map_map, List.map_cons, List.nodup_cons] at hnodup
  intro r hr heq
  exact hnodup.1 (List.mem_map.mpr ⟨r, hr, heq⟩)

theorem Keyed.remove {dns : DnsState} {rec : DnsRecord} {rest : List DnsRecord} (h : dns.Keyed)
    (hperm : dns.heap.Perm (rec :: rest)) :
    Keyed { dns with hash := dns.hash.remove rec.key, heap := rest } :=
  SpelledMap.keys_remove_perm ((hperm.map DnsRecord.key).symm.trans h)

/-- What a sweep makes of a record: kept, renewed or, as `none`, removed. -/
def survivor (hash : SpelledMap foldedKey Nat) (now : Nat) (rec : DnsRecord) : Option DnsRecord :=
  if rec.ttlExpire ≤ now then
    ((hash.lookup rec.key).filter (now < ·)).map fun expires => { rec with ttlExpire := expires }
  else some rec

def Expired (hash : SpelledMap foldedKey Nat) (now : Nat) (rec : DnsRecord) : Prop :=
  rec.ttlExpire ≤ now ∧ ∀ expires, hash.lookup rec.key = some expires → expires ≤ now

theorem survivor_eq_none {hash : SpelledMap foldedKey Nat} {rec : DnsRecord} :
    survivor hash now rec = none ↔ Expired hash now rec := by
  unfold survivor Expired
  split
  next hdue =>
    rw [Option.map_eq_none_iff, Option.filter_eq_none_iff]
    simp [hdue]
  next hlater => simp [hlater]

theorem survivor_key {hash : SpelledMap foldedKey Nat} {rec kept : DnsRecord}
    (h : survivor hash now rec = some kept) : kept.key = rec.key := by
  unfold survivor at h
  split at h
  · obtain ⟨expires, _, rfl⟩ := Option.map_eq_some_iff.mp h
    rfl
  · cases Option.some.inj h
    rfl

theorem survivor_congr {hash hash' : SpelledMap foldedKey Nat} {rec : DnsRecord}
    (h : hash'.lookup rec.key = hash.lookup rec.key) :
    survivor hash' now rec = survivor hash now rec := by
  rw [survivor, survivor, h]

/-- What is left of a list of records, and that the table has lost the routes of the rest. -/
structure TtlSwept (dc : DnsCrates) (ctx : DnsCtx) (now : Nat) (dns dns' : DnsState)
    (net net' : Net) : Prop where
  keyed : dns'.Keyed
  heap : dns'.heap.Perm (dns.heap.filterMap (survivor dns.hash now))
  routed : ∀ d, net'.Routed ctx.dnsTable d ↔
    net.Routed ctx.dnsTable d ∧ ∀ rec ∈ dns.heap, Expired dns.hash now rec → rec.net ≠ d

theorem TtlSwept.stop {dns : DnsState} (keyed : dns.Keyed)
    (later : ∀ rec ∈ dns.heap, now < rec.ttlExpire) (net : Net) :
    TtlSwept dc ctx now dns dns net net where
  keyed := keyed
  heap := by
    have hkeep : ∀ rec ∈ dns.heap, survivor dns.hash now rec = some rec :=
      fun rec hrec => if_neg (Nat.not_le.mpr (later rec hrec))
    rw [List.filterMap_congr hkeep, List.filterMap_some]
  routed d := by
    refine ⟨fun h => ⟨h, fun rec hrec hexpired => ?_⟩, And.left⟩
    exact absurd hexpired.1 (Nat.not_le.mpr (later rec hrec))

theorem expired_congr {hash hash' : SpelledMap foldedKey Nat} {rec : DnsRecord}
    (h : hash'.lookup rec.key = hash.lookup rec.key) :
    Expired hash' now rec ↔ Expired hash now rec := by
  rw [Expired, Expired, h]

theorem TtlSwept.renew {dns dns' : DnsState} {net net' : Net} {rec rec' : DnsRecord}
    {rest : List DnsRecord} {hash : SpelledMap foldedKey Nat}
    (hperm : dns.heap.Perm (rec :: rest)) (hrec : survivor dns.hash now rec = some rec')
    (later : now < rec'.ttlExpire)
    (same : ∀ r ∈ rest, hash.lookup r.key = dns.hash.lookup r.key)
    (h : TtlSwept dc ctx now { dns with hash, heap := rest ++ [rec'] } dns' net net') :
    TtlSwept dc ctx now dns dns' net net' where
  keyed := h.keyed
  heap := by
    have hrest : rest.filterMap (survivor hash now) = rest.filterMap (survivor dns.hash now) :=
      List.filterMap_congr fun r hr => survivor_congr (same r hr)
    have hrec' : survivor hash now rec' = some rec' := if_neg (Nat.not_le.mpr later)
    have hafter := h.heap
    rw [List.filterMap_append, hrest, List.filterMap_cons_some hrec', List.filterMap_nil] at hafter
    have hbefore := hperm.filterMap (survivor dns.hash now)
    rw [List.filterMap_cons_some hrec] at hbefore
    exact hafter.trans ((List.perm_append_singleton _ _).trans hbefore.symm)
  routed d := by
    refine (h.routed d).trans (and_congr_right fun _ => ?_)
    constructor
    · intro hkept r hr hexpired
      rcases List.mem_cons.mp (hperm.mem_iff.mp hr) with rfl | hr
      · rw [survivor_eq_none.mpr hexpired] at hrec
        cases hrec
      · exact hkept r (List.mem_append_left _ hr) ((expired_congr (same r hr)).mpr hexpired)
    · intro hkept r hr hexpired
      rcases List.mem_append.mp hr with hr | hr
      · exact hkept r (hperm.mem_iff.mpr (List.mem_cons_of_mem _ hr))
          ((expired_congr (same r hr)).mp hexpired)
      · cases List.mem_singleton.mp hr
        exact absurd hexpired.1 (Nat.not_le.mpr later)

theorem TtlSwept.drop {dns dns' : DnsState} {net net' : Net} {rec : DnsRecord}
    {rest : List DnsRecord} {hash : SpelledMap foldedKey Nat}
    (hperm : dns.heap.Perm (rec :: rest)) (hrec : Expired dns.hash now rec)
    (same : ∀ r ∈ rest, hash.lookup r.key = dns.hash.lookup r.key)
    (h : TtlSwept dc ctx now { dns with hash, heap := rest } dns' (removeRecord ctx net rec) net') :
    TtlSwept dc ctx now dns dns' net net' where
  keyed := h.keyed
  heap := by
    have hrest : rest.filterMap (survivor hash now) = rest.filterMap (survivor dns.hash now) :=
      List.filterMap_congr fun r hr => survivor_congr (same r hr)
    have hafter := h.heap
    rw [hrest] at hafter
    have hbefore := hperm.filterMap (survivor dns.hash now)
    rw [List.filterMap_cons_none (survivor_eq_none.mpr hrec)] at hbefore
    exact hafter.trans hbefore.symm
  routed d := by
    rw [h.routed d, removeRecord, Net.routed_delRoute, and_assoc]
    refine and_congr_right fun _ => ?_
    constructor
    · rintro ⟨hne, hkept⟩ r hr hexpired
      rcases List.mem_cons.mp (hperm.mem_iff.mp hr) with rfl | hr
      · exact hne
      · exact hkept r hr ((expired_congr (same r hr)).mpr hexpired)
    · intro hkept
      refine ⟨hkept rec (hperm.mem_iff.mpr List.mem_cons_self) hrec, fun r hr hexpired => ?_⟩
      exact hkept r (hperm.mem_iff.mpr (List.mem_cons_of_mem _ hr))
        ((expired_congr (same r hr)).mp hexpired)

theorem Keyed.renew {dns : DnsState} {rec : DnsRecord} {rest : List DnsRecord} {expires : Nat}
    (h : dns.Keyed) (hperm : dns.heap.Perm (rec :: rest)) :
    Keyed { dns with
      hash := (dns.hash.remove rec.key).insert rec.key expires
      heap := rest ++ [{ rec with ttlExpire := expires }] } := by
  have hkeys : (rest.map DnsRecord.key).Perm _ := h.remove hperm
  rw [Keyed, SpelledMap.keys_insert_none (SpelledMap.lookup_remove_self _ _), List.map_append]
  exact hkeys.append (List.Perm.refl _)

theorem sweepLoop_swept {fuel : Nat} {dns : DnsState} (keyed : dns.Keyed) (net : Net)
    (enough : dns.heap.countP (·.ttlExpire ≤ now) ≤ fuel) :
    TtlSwept dc ctx now dns (sweepLoop dc ctx now fuel dns net).1 net
      (sweepLoop dc ctx now fuel dns net).2 := by
  induction fuel generalizing dns net with
  | zero =>
    refine TtlSwept.stop keyed (fun rec hrec => ?_) net
    have hnone := List.countP_eq_zero.mp (Nat.le_zero.mp enough) rec hrec
    simpa using hnone
  | succ fuel ih =>
    rw [sweepLoop]
    split
    next hpop =>
      refine TtlSwept.stop keyed (fun rec hrec => ?_) net
      rw [dc.heap.pop_none hpop] at hrec
      cases hrec
    next rec rest hpop =>
      have hperm := dc.heap.pop_perm hpop
      have hsame : ∀ r ∈ rest, (dns.hash.remove rec.key).lookup r.key = dns.hash.lookup r.key :=
        fun r hr => SpelledMap.lookup_remove_ne _ (keyed.apart hperm r hr)
      split
      next hdue =>
        have hcount : rest.countP (·.ttlExpire ≤ now) ≤ fuel := by
          rw [hperm.countP_eq, List.countP_cons_of_pos (by simpa using hdue)] at enough
          omega
        dsimp only
        split
        next expires hrenew =>
          obtain ⟨hlookup, hlater⟩ := Option.filter_eq_some_iff.mp hrenew
          have hrec : survivor dns.hash now rec = some { rec with ttlExpire := expires } := by
            rw [survivor, if_pos hdue, hrenew, Option.map_some]
          have hlater : now < expires := of_decide_eq_true hlater
          refine TtlSwept.renew hperm hrec hlater (fun r hr => ?_) (ih (keyed.renew hperm) net ?_)
          · rw [SpelledMap.lookup_insert_ne _ (keyed.apart hperm r hr), hsame r hr]
          · have hnot : ¬(decide (expires ≤ now) = true) := by simpa using hlater
            rw [List.countP_append, List.countP_singleton, if_neg hnot]
            exact hcount
        next hrenew =>
          have hrec : Expired dns.hash now rec := by
            rw [← survivor_eq_none, survivor, if_pos hdue, hrenew, Option.map_none]
          exact TtlSwept.drop hperm hrec hsame (ih (keyed.remove hperm) _ hcount)
      next hlater =>
        refine TtlSwept.stop keyed (fun r hr => ?_) net
        exact Nat.lt_of_lt_of_le (Nat.not_le.mp hlater) (dc.heap.pop_least hpop r hr)

theorem watchDnsTtl_swept {dns : DnsState} (keyed : dns.Keyed) (net : Net) :
    TtlSwept dc ctx now dns (watchDnsTtl dc ctx now dns net).1 net
      (watchDnsTtl dc ctx now dns net).2 := by
  have h : TtlSwept dc ctx now dns (sweepLoop dc ctx now dns.heap.length dns net).1 net _ :=
    sweepLoop_swept keyed net List.countP_le_length
  exact ⟨h.keyed, h.heap, h.routed⟩

/-- What `remove_records` has done after some of the records. -/
structure Retired (ctx : DnsCtx) (name : Option DnsName) (dest : Option UInt32)
    (recs : List DnsRecord) (dns dns' : DnsState) (net net' : Net) : Prop where
  keyed : ((dns.heap ++ recs).map DnsRecord.key).Perm dns.hash.keys → dns'.Keyed
  heap : dns'.heap = dns.heap ++ recs.filter (!picks name dest ·)
  cache : dns'.cache = dns.cache
  sleeper : dns'.ttlSleeper = dns.ttlSleeper
  routed : ∀ d, net'.Routed ctx.dnsTable d ↔
    net.Routed ctx.dnsTable d ∧ ∀ rec ∈ recs, picks name dest rec → rec.net ≠ d

theorem removeStep_retired {name : Option DnsName} {dest : Option UInt32} {recs : List DnsRecord}
    (found : Bool) (dns : DnsState) (net : Net) :
    Retired ctx name dest recs dns (recs.foldl (removeStep ctx name dest) (found, dns, net)).2.1
      net (recs.foldl (removeStep ctx name dest) (found, dns, net)).2.2 := by
  induction recs generalizing found dns net with
  | nil =>
    refine ⟨fun h => ?_, (List.append_nil _).symm, rfl, rfl,
      fun d => ⟨fun h => ⟨h, nofun⟩, And.left⟩⟩
    rw [List.append_nil] at h
    exact h
  | cons rec recs ih =>
    rw [List.foldl_cons]
    by_cases hpick : picks name dest rec = true
    · rw [removeStep, if_pos hpick]
      obtain ⟨hkeyed, hheap, hcache, hsleeper, hrouted⟩ :=
        ih true { dns with hash := dns.hash.remove rec.key } (removeRecord ctx net rec)
      refine ⟨fun h => hkeyed ?_, ?_, hcache, hsleeper, fun d => ?_⟩
      · refine SpelledMap.keys_remove_perm (List.Perm.trans ?_ h)
        rw [List.map_append, List.map_append, List.map_cons]
        exact List.perm_middle.symm
      · rw [hheap, List.filter_cons_of_neg (by simpa using hpick)]
      · rw [hrouted, removeRecord, Net.routed_delRoute, and_assoc]
        refine and_congr_right fun _ => ?_
        rw [List.forall_mem_cons]
        exact and_congr_left fun _ => ⟨fun hne _ => hne, fun h => h hpick⟩
    · rw [removeStep, if_neg hpick]
      obtain ⟨hkeyed, hheap, hcache, hsleeper, hrouted⟩ :=
        ih found { dns with heap := dns.heap ++ [rec] } net
      refine ⟨fun h => hkeyed ?_, ?_, hcache, hsleeper, fun d => ?_⟩
      · simpa using h
      · rw [hheap, List.filter_cons_of_pos (by simpa using hpick), List.append_assoc]
        rfl
      · rw [hrouted, List.forall_mem_cons]
        refine and_congr_right fun _ => ?_
        exact ⟨fun h => ⟨fun h' => absurd h' hpick, h⟩, And.right⟩

/-- The map loses the keys of the records picked. -/
theorem removeStep_lookup {name : Option DnsName} {dest : Option UInt32} (recs : List DnsRecord)
    (found : Bool) (dns : DnsState) (net : Net) (k : DnsName × UInt32) :
    (recs.foldl (removeStep ctx name dest) (found, dns, net)).2.1.hash.lookup k =
      if recs.any fun rec => picks name dest rec && decide (foldedKey k = foldedKey rec.key) then none
      else dns.hash.lookup k := by
  induction recs generalizing found dns net with
  | nil => rfl
  | cons rec recs ih =>
    rw [List.foldl_cons, removeStep, List.any_cons]
    by_cases hpick : picks name dest rec = true
    · rw [if_pos hpick, ih, hpick, Bool.true_and]
      by_cases hkey : foldedKey k = foldedKey rec.key
      · have hlookup : (dns.hash.remove rec.key).lookup k = none := by
          rw [SpelledMap.lookup_congr _ hkey, SpelledMap.lookup_remove_self]
        simp [hkey, hlookup]
      · rw [SpelledMap.lookup_remove_ne _ hkey, decide_eq_false hkey, Bool.false_or]
    · rw [if_neg hpick, ih, Bool.eq_false_iff.mpr hpick, Bool.false_and, Bool.false_or]

theorem removeRecords_retired {dns : DnsState} (name : Option DnsName) (dest : Option UInt32)
    (net : Net) :
    Retired ctx name dest dns.heap { dns with heap := [] }
      (removeRecords ctx name dest dns net).2.1 net (removeRecords ctx name dest dns net).2.2 :=
  removeStep_retired _ _ _

/-- An answer changes no key, or adds one record and asks for its route. -/
theorem parseAnswer_cases (dns : DnsState) (net : Net) (ans : DnsAnswer) :
    (∃ hash, hash.keys = dns.hash.keys ∧
      parseAnswer dc ctx now (dns, net) ans = ({ dns with hash }, net)) ∨
    ∃ record dir, (∃ i, dns.cache.get dc record.name = some (dir, i)) ∧
      dns.hash.lookup record.key = none ∧ parseAnswer dc ctx now (dns, net) ans =
        ({ dns with
            ttlSleeper := (dc.heap.peek (dns.heap ++ [record])).map (·.ttlExpire)
            hash := dns.hash.insert record.key record.ttlExpire
            heap := dns.heap ++ [record] },
          (setupRecord ctx net record dir).getD net) := by
  cases hdata : ans.data with
  | other => exact Or.inl ⟨dns.hash, rfl, by simp only [parseAnswer, hdata]⟩
  | a dest =>
    cases hget : dns.cache.get dc (ans.name.setFqdn true) with
    | none => exact Or.inl ⟨dns.hash, rfl, by simp only [parseAnswer, hdata, hget]⟩
    | some result =>
      simp only [parseAnswer, hdata, hget]
      split
      next hsome =>
        have hthere := Option.ne_none_iff_exists'.mpr ⟨_, hsome⟩
        exact Or.inl ⟨_, SpelledMap.keys_insert_some hthere _, rfl⟩
      next hnone => exact Or.inr ⟨⟨_, dest, _⟩, result.1, ⟨result.2, hget⟩, hnone, rfl⟩

theorem parseAnswer_keyed {dns : DnsState} (h : dns.Keyed) (net : Net) (ans : DnsAnswer) :
    (parseAnswer dc ctx now (dns, net) ans).1.Keyed := by
  rcases parseAnswer_cases dns net ans with ⟨hash, hkeys, heq⟩ | ⟨record, dir, _, hnone, heq⟩
  · rw [heq, Keyed, hkeys]
    exact h
  · rw [heq, Keyed, SpelledMap.keys_insert_none hnone, List.map_append]
    exact h.append (List.Perm.refl _)

theorem parse_ok {data : Except String DnsMessage} {dns dns' : DnsState} {net net' : Net}
    (h : parse dc ctx now data dns net = .ok (dns', net')) : ∃ m, data = .ok m ∧
      m.isResponse = true ∧ m.responseCode = .noError ∧
      m.answers.foldl (parseAnswer dc ctx now) (dns, net) = (dns', net') := by
  obtain ⟨m, hm, h⟩ := bind_eq_ok.mp h
  obtain ⟨_, _, h⟩ := bind_eq_ok.mp h
  obtain ⟨_, hresponse, h⟩ := bind_eq_ok.mp h
  cases hcode : m.responseCode with
  | other text =>
    rw [hcode] at h
    cases h
  | noError =>
    rw [hcode] at h
    exact ⟨m, mapError_eq_ok.mp hm, ensure_eq_ok.mp hresponse, hcode, pure_eq_ok.mp h⟩

/-- What every answer keeps, a packet keeps. -/
theorem parse_invariant {I : DnsState → Net → Prop}
    (keeps : ∀ dns net ans, I dns net → I (parseAnswer dc ctx now (dns, net) ans).1
      (parseAnswer dc ctx now (dns, net) ans).2)
    {data : Except String DnsMessage} {dns dns' : DnsState} {net net' : Net}
    (h : parse dc ctx now data dns net = .ok (dns', net')) (start : I dns net) : I dns' net' := by
  have hfold : ∀ (answers : List DnsAnswer) (dns : DnsState) (net : Net), I dns net →
      I (answers.foldl (parseAnswer dc ctx now) (dns, net)).1
        (answers.foldl (parseAnswer dc ctx now) (dns, net)).2 := by
    intro answers
    induction answers with
    | nil => exact fun _ _ h => h
    | cons ans answers ih => exact fun dns net h => ih _ _ (keeps dns net ans h)
  obtain ⟨m, _, _, _, heq⟩ := parse_ok h
  have hdone := hfold m.answers dns net start
  rw [heq] at hdone
  exact hdone

structure Answered (ctx : DnsCtx) (dns dns' : DnsState) (net net' : Net) : Prop where
  keyed : dns.Keyed → dns'.Keyed
  routed : ∀ d, (net.Routed ctx.dnsTable d ↔ ∃ rec ∈ dns.heap, rec.net = d) →
    (net'.Routed ctx.dnsTable d ↔ ∃ rec ∈ dns'.heap, rec.net = d)

theorem parseAnswer_answered (available : ctx.Available) (dns : DnsState) (net : Net)
    (ans : DnsAnswer) :
    Answered ctx dns (parseAnswer dc ctx now (dns, net) ans).1 net
      (parseAnswer dc ctx now (dns, net) ans).2 := by
  refine ⟨fun keyed => parseAnswer_keyed keyed net ans, fun d h => ?_⟩
  rcases parseAnswer_cases dns net ans with ⟨hash, _, heq⟩ | ⟨record, dir, _, _, heq⟩
  · rw [heq]
    exact h
  · rw [heq, setupRecord_routed available, h]
    simp only [List.mem_append, List.mem_singleton, or_and_right, exists_or, exists_eq_left]

theorem parse_answered (available : ctx.Available) {data : Except String DnsMessage}
    {dns dns' : DnsState} {net net' : Net}
    (h : parse dc ctx now data dns net = .ok (dns', net')) : Answered ctx dns dns' net net' := by
  refine parse_invariant (I := fun dns₂ net₂ => Answered ctx dns dns₂ net net₂)
    (fun dns₁ net₁ ans before => ?_) h ⟨id, fun _ h => h⟩
  have next : Answered ctx dns₁ (parseAnswer dc ctx now (dns₁, net₁) ans).1 net₁ _ :=
    parseAnswer_answered available dns₁ net₁ ans
  exact ⟨next.keyed ∘ before.keyed, fun d h => next.routed d (before.routed d h)⟩

theorem setupRecords_routed (available : ctx.Available) (cache : DnsCache)
    (heap : List DnsRecord) (matched : ∀ rec ∈ heap, (cache.get dc rec.name).isSome) (net : Net)
    (d : Ipv4Net) :
    (heap.foldl (setupAgain dc ctx cache) net).Routed ctx.dnsTable d ↔
      net.Routed ctx.dnsTable d ∨ ∃ rec ∈ heap, rec.net = d := by
  induction heap generalizing net with
  | nil => simp
  | cons rec heap ih =>
    obtain ⟨⟨dir, _⟩, hget⟩ := Option.isSome_iff_exists.mp (matched rec List.mem_cons_self)
    rw [List.foldl_cons, ih fun r hr => matched r (List.mem_cons_of_mem _ hr), setupAgain, hget,
      setupRecord_routed available, or_assoc]
    simp only [List.mem_cons, or_and_right, exists_or, exists_eq_left]

theorem watchDnsRoutes_keyed {dns : DnsState} (keyed : dns.Keyed) (updateCaches : Bool)
    (net : Net) : (watchDnsRoutes c dc ctx updateCaches dns net).1.Keyed := by
  simp only [watchDnsRoutes]
  generalize (if updateCaches then dns.cache.update c ctx.conf.ms else dns.cache) = cache
  have hfilter := keyed.filter fun k : DnsName × UInt32 => (cache.get dc k.1).isSome
  rw [List.filter_map] at hfilter
  rw [Keyed, SpelledMap.keys_retain]
  exact hfilter

/-- After a rebuild the table holds the routes of the records left, whatever it held. -/
theorem watchDnsRoutes_rebuilt (available : ctx.Available) (dns : DnsState) (updateCaches : Bool)
    (net : Net) (d : Ipv4Net) :
    (watchDnsRoutes c dc ctx updateCaches dns net).2.Routed ctx.dnsTable d ↔
      ∃ rec ∈ (watchDnsRoutes c dc ctx updateCaches dns net).1.heap, rec.net = d := by
  simp only [watchDnsRoutes, available.enable, if_true]
  generalize (if updateCaches then dns.cache.update c ctx.conf.ms else dns.cache) = cache
  rw [setupRecords_routed available cache _ fun rec hrec => (List.mem_filter.mp hrec).2]
  exact or_iff_right (Net.not_routed_clearTable net ctx.dnsTable d)

end DnsState

end Rebpf
