import Rebpf.Cleanup
import Rebpf.Settled

namespace Rebpf

open Lib

/-- No route is in the table. -/
def Net.NoRoutes (net : Net) (table : UInt32) : Prop := ∀ r ∈ net.routes, r.table ≠ table

theorem Net.NoRoutes.subset {net net' : Net} {table : UInt32} (h : net.NoRoutes table)
    (routes : ∀ r ∈ net'.routes, r ∈ net.routes) : net'.NoRoutes table :=
  fun r hr => h r (routes r hr)

theorem Net.noRoutes_clearTable (net : Net) (table : UInt32) :
    (net.clearTable table).NoRoutes table :=
  fun _ hr => by simpa using (List.mem_filter.mp hr).2

/-- The name and address an answer is about, and the direction the cache has for it. -/
def DnsAnswer.hit (dc : DnsCrates) (cache : DnsCache) (ans : DnsAnswer) :
    Option ((DnsName × UInt32) × Direction) :=
  match ans.data with
  | .other => none
  | .a dest =>
    (cache.get dc (ans.name.setFqdn true)).map fun r => ((ans.name.setFqdn true, dest), r.1)

def DnsCtx.routeOf (ctx : DnsCtx) : Direction → Option Route
  | .redirect => ctx.route
  | .bypass => ctx.defaultRoute

/-- The first answer about a name and an address that are not known is one for a
direction without a route. -/
def SilentHits (ctx : DnsCtx) (hash : SpelledMap foldedKey Nat)
    (hits : List ((DnsName × UInt32) × Direction)) : Prop :=
  ∀ front hit back, hits = front ++ hit :: back → hash.lookup hit.1 = none →
    (∀ earlier ∈ front, foldedKey hit.1 ≠ foldedKey earlier.1) → ctx.routeOf hit.2 = none

/-- The packet brings no route. -/
def Silent (dc : DnsCrates) (ctx : DnsCtx) (dns : DnsState) (data : Except String DnsMessage) :
    Prop :=
  ∀ m, data = .ok m → m.isResponse = true → m.responseCode = .noError →
    SilentHits ctx dns.hash (m.answers.filterMap (DnsAnswer.hit dc dns.cache))

theorem silentHits_cons {ctx : DnsCtx} {hash : SpelledMap foldedKey Nat}
    {hit : (DnsName × UInt32) × Direction} {hits : List ((DnsName × UInt32) × Direction)}
    (expires : Nat) :
    SilentHits ctx hash (hit :: hits) ↔
      (hash.lookup hit.1 = none → ctx.routeOf hit.2 = none) ∧
        SilentHits ctx (hash.insert hit.1 expires) hits := by
  constructor
  · intro h
    refine ⟨fun hnone => h [] hit hits rfl hnone nofun, ?_⟩
    intro front next back hsplit hnone hfront
    obtain ⟨hbefore, hne⟩ := SpelledMap.lookup_insert_eq_none.mp hnone
    refine h (hit :: front) next back (by rw [hsplit]; rfl) hbefore fun earlier hmem => ?_
    rcases List.mem_cons.mp hmem with rfl | hmem
    · exact hne
    · exact hfront earlier hmem
  · rintro ⟨hfirst, hrest⟩ front next back hsplit hnone hfront
    cases front with
    | nil =>
      obtain ⟨rfl, _⟩ := List.cons.inj hsplit
      exact hfirst hnone
    | cons first front =>
      obtain ⟨rfl, htail⟩ := List.cons.inj hsplit
      refine hrest front next back htail ?_ fun earlier hmem =>
        hfront earlier (List.mem_cons_of_mem _ hmem)
      exact SpelledMap.lookup_insert_eq_none.mpr ⟨hnone, hfront _ List.mem_cons_self⟩

namespace DnsState

variable {c : Crates} {dc : DnsCrates} {ctx : DnsCtx} {now : Nat} {dns dns' : DnsState}
  {net net' : Net}

/-- The link of the direction decides whether a route is asked for. -/
theorem setupRecord_routeOf (ctx : DnsCtx) (net : Net) (rec : DnsRecord) (dir : Direction) :
    setupRecord ctx net rec dir = (ctx.routeOf dir).elim (some net) fun route =>
      net.newRoute { table := ctx.dnsTable, dst := rec.net, oif := route.ifindex,
                     prefsrc := route.addrs.head?, gateway := route.gateway } := by
  cases dir with
  | redirect =>
    simp only [setupRecord, DnsCtx.routeOf]
    cases ctx.route <;> rfl
  | bypass =>
    simp only [setupRecord, DnsCtx.routeOf]
    cases ctx.defaultRoute <;> rfl

/-- In a table without routes the request for a record's route succeeds. -/
theorem setupRecord_noRoutes (h : net.NoRoutes ctx.dnsTable) (rec : DnsRecord) (dir : Direction) :
    ((setupRecord ctx net rec dir).getD net).NoRoutes ctx.dnsTable ↔ ctx.routeOf dir = none := by
  rw [setupRecord_routeOf]
  cases ctx.routeOf dir with
  | none => exact iff_of_true h rfl
  | some route =>
    rw [Option.elim_some]
    refine iff_of_false (fun hno => ?_) (by simp)
    have hnew : ¬(net.routes.any fun r => r.table == ctx.dnsTable && r.dst == rec.net) = true := by
      intro hany
      obtain ⟨r, hr, htest⟩ := List.any_eq_true.mp hany
      exact h r hr (eq_of_beq ((Bool.and_eq_true _ _).mp htest).1)
    simp only [Net.newRoute, if_neg hnew, Option.getD_some] at hno
    exact hno _ (List.mem_append_right _ (List.mem_singleton_self _)) rfl

theorem parseAnswer_miss {ans : DnsAnswer} (h : ans.hit dc dns.cache = none) :
    parseAnswer dc ctx now (dns, net) ans = (dns, net) := by
  unfold DnsAnswer.hit at h
  cases hdata : ans.data with
  | other => simp only [parseAnswer, hdata]
  | a dest =>
    rw [hdata] at h
    simp only [parseAnswer, hdata, Option.map_eq_none_iff.mp h]

theorem parseAnswer_hit (ctx : DnsCtx) (now : Nat) (net : Net) {ans : DnsAnswer}
    {key : DnsName × UInt32} {dir : Direction} (h : ans.hit dc dns.cache = some (key, dir)) :
    ∃ rec : DnsRecord, rec.key = key ∧
      (parseAnswer dc ctx now (dns, net) ans).1.cache = dns.cache ∧
      (parseAnswer dc ctx now (dns, net) ans).1.hash = dns.hash.insert key rec.ttlExpire ∧
      (parseAnswer dc ctx now (dns, net) ans).2 =
        if dns.hash.lookup key = none then (setupRecord ctx net rec dir).getD net else net := by
  unfold DnsAnswer.hit at h
  cases hdata : ans.data with
  | other =>
    rw [hdata] at h
    cases h
  | a dest =>
    rw [hdata] at h
    obtain ⟨⟨dir, i⟩, hget, heq⟩ := Option.map_eq_some_iff.mp h
    obtain ⟨rfl, rfl⟩ := Prod.mk.inj heq
    refine ⟨⟨now + fromSecs (min ans.ttl ctx.conf.config.dnsMaxTtlSec), dest,
      ans.name.setFqdn true⟩, rfl, ?_⟩
    simp only [parseAnswer, hdata, hget]
    split
    next hsome =>
      have hthere : ¬dns.hash.lookup (ans.name.setFqdn true, dest) = none := by
        rw [show dns.hash.lookup (ans.name.setFqdn true, dest) = _ from hsome]
        exact Option.some_ne_none _
      exact ⟨rfl, rfl, (if_neg hthere).symm⟩
    next hnone => exact ⟨rfl, rfl, (if_pos hnone).symm⟩

/-- The routes that are there stay, and a new one comes behind them. -/
theorem setupRecord_keeps (net : Net) (rec : DnsRecord) (dir : Direction) :
    net.routes <+: ((setupRecord ctx net rec dir).getD net).routes := by
  cases hsetup : setupRecord ctx net rec dir with
  | none => exact List.prefix_rfl
  | some net' =>
    unfold setupRecord at hsetup
    dsimp only at hsetup
    split at hsetup
    next =>
      cases Option.some.inj hsetup
      exact List.prefix_rfl
    next =>
      rw [Option.getD_some, newRoute_eq hsetup]
      exact List.prefix_append _ _

theorem parseAnswer_keeps (dns : DnsState) (net : Net) (ans : DnsAnswer) :
    net.routes <+: (parseAnswer dc ctx now (dns, net) ans).2.routes := by
  rcases parseAnswer_cases dns net ans with ⟨hash, _, heq⟩ | ⟨record, dir, _, _, heq⟩
  · exact ⟨[], by rw [List.append_nil, heq]⟩
  · rw [heq]
    exact setupRecord_keeps net record dir

theorem answers_keep (answers : List DnsAnswer) (dns : DnsState) (net : Net) :
    net.routes <+: (answers.foldl (parseAnswer dc ctx now) (dns, net)).2.routes := by
  induction answers generalizing dns net with
  | nil => exact List.prefix_rfl
  | cons ans answers ih => exact (parseAnswer_keeps dns net ans).trans (ih _ _)

/-- The answers leave an empty table empty exactly if they are silent. -/
theorem answers_noRoutes (dc : DnsCrates) (now : Nat) (dns : DnsState)
    (answers : List DnsAnswer) (h : net.NoRoutes ctx.dnsTable) :
    (answers.foldl (parseAnswer dc ctx now) (dns, net)).2.NoRoutes ctx.dnsTable ↔
      SilentHits ctx dns.hash (answers.filterMap (DnsAnswer.hit dc dns.cache)) := by
  induction answers generalizing dns net with
  | nil => exact iff_of_true h fun front _ _ hsplit => by simp at hsplit
  | cons ans answers ih =>
    rw [List.foldl_cons]
    cases hhit : ans.hit dc dns.cache with
    | none =>
      rw [parseAnswer_miss hhit, List.filterMap_cons_none hhit]
      exact ih _ h
    | some hit =>
      obtain ⟨key, dir⟩ := hit
      obtain ⟨rec, _, hcache, hhash, hnet⟩ := parseAnswer_hit ctx now net hhit
      rw [List.filterMap_cons_some hhit, silentHits_cons rec.ttlExpire]
      generalize parseAnswer dc ctx now (dns, net) ans = r at hcache hhash hnet
      obtain ⟨dns', net'⟩ := r
      dsimp only at hcache hhash hnet
      rw [← hcache, ← hhash]
      have hfirst : net'.NoRoutes ctx.dnsTable ↔
          (dns.hash.lookup key = none → ctx.routeOf dir = none) := by
        by_cases hnone : dns.hash.lookup key = none
        · rw [hnet, if_pos hnone, setupRecord_noRoutes h]
          exact (true_imp_iff.symm.trans (by simp [hnone]))
        · rw [hnet, if_neg hnone]
          exact iff_of_true h fun hno => absurd hno hnone
      by_cases hno : net'.NoRoutes ctx.dnsTable
      · rw [ih _ hno]
        exact (and_iff_right (hfirst.mp hno)).symm
      · refine iff_of_false (fun hall => hno ?_) fun hsilent => hno (hfirst.mpr hsilent.1)
        exact hall.subset fun r hr => (answers_keep answers dns' net').subset hr

/-- A packet that is used leaves an empty table empty exactly if it is silent. -/
theorem parse_noRoutes {data : Except String DnsMessage}
    (h : parse dc ctx now data dns net = .ok (dns', net')) (hno : net.NoRoutes ctx.dnsTable) :
    net'.NoRoutes ctx.dnsTable ↔ Silent dc ctx dns data := by
  obtain ⟨m, hdata, hresponse, hcode, heq⟩ := parse_ok h
  have hanswers := answers_noRoutes dc now dns m.answers hno
  rw [heq] at hanswers
  rw [hanswers]
  constructor
  · intro hsilent m' hdata' _ _
    rw [← Except.ok.inj (hdata.symm.trans hdata')]
    exact hsilent
  · exact fun hsilent => hsilent m hdata hresponse hcode

theorem sweepLoop_routes (fuel : Nat) (dns : DnsState) (net : Net) :
    ∀ r ∈ (sweepLoop dc ctx now fuel dns net).2.routes, r ∈ net.routes := by
  induction fuel generalizing dns net with
  | zero => exact fun _ hr => hr
  | succ fuel ih =>
    rw [sweepLoop]
    split
    next => exact fun _ hr => hr
    next =>
      split
      next =>
        dsimp only
        split
        next => exact ih _ net
        next => exact fun r hr => (List.mem_filter.mp (ih _ _ r hr)).1
      next => exact fun _ hr => hr

theorem removeStep_routes {name : Option DnsName} {dest : Option UInt32}
    (recs : List DnsRecord) (found : Bool) (dns : DnsState) (net : Net) :
    ∀ r ∈ (recs.foldl (removeStep ctx name dest) (found, dns, net)).2.2.routes,
      r ∈ net.routes := by
  induction recs generalizing found dns net with
  | nil => exact fun _ hr => hr
  | cons rec recs ih =>
    intro r hr
    rw [List.foldl_cons, removeStep] at hr
    split at hr
    next => exact (List.mem_filter.mp (ih _ _ _ r hr)).1
    next => exact ih _ _ net r hr

end DnsState

def SystemEvent.isDnsTurn : SystemEvent → Bool
  | .dnsTurn => true
  | _ => false

/-- The daemon, and whether `watch_dns_routes` has had a turn since the service
was last enabled. -/
structure Monitored where
  sys : System
  processed : Bool

namespace Monitored

variable (c : Crates) (e : Endian) (dc : DnsCrates) (alloc : Nat → Option (Nat → UInt8))
  (lookup : Net → List Link → UInt32 → Option FibResult)

def step (m : Monitored) (event : SystemEvent) : Option Monitored := do
  let sys ← m.sys.step c e dc alloc lookup event
  return { sys, processed := !sys.conf.value.enable && (m.processed || event.isDnsTurn) }

/-- No packet that brings a route is handled after that. -/
def Allowed (m : Monitored) : SystemEvent → Prop
  | .callback _ => m.processed = true → ∀ data ring, m.sys.ring = data :: ring →
      Silent dc m.sys.dnsCtx m.sys.dns data
  | _ => True

end Monitored

namespace System

variable {c : Crates} {e : Endian} {dc : DnsCrates} {alloc : Nat → Option (Nat → UInt8)}
  {lookup : Net → List Link → UInt32 → Option FibResult} {s t : System}

theorem reloadRules_routes (off : s.conf.value.enable = false) (h : s.reloadRules c = some t) :
    ∀ r ∈ t.net.routes, r ∈ s.net.routes := by
  obtain ⟨newMark, enable, blocker, net, _, hrules, rfl⟩ := reloadRules_some h
  obtain ⟨_, _, hroutes⟩ := reloadRules_eq hrules
  intro r hr
  rw [show net.routes = _ from hroutes, reloadRoutes, usable_disabled off, List.append_nil] at hr
  unfold Net.cleared at hr
  split at hr
  next => exact (List.mem_filter.mp hr).1
  next => exact hr

/-- A turn of `watch_dns_routes` that reads a disabled service empties the table. -/
theorem dnsTurn_noRoutes (off : s.conf.value.enable = false) (h : s.dnsTurn c dc = some t) :
    t.net.NoRoutes t.dnsTable := by
  obtain ⟨updateCaches, _, rfl⟩ := dnsTurn_some h
  have hctx : s.dnsCtx.conf.enable = false := off
  simp only [DnsState.watchDnsRoutes, hctx]
  exact Net.noRoutes_clearTable _ _

theorem step_noRoutes {event : SystemEvent} (drawn : isRandTable s.dnsTable = true)
    (off : s.conf.value.enable = false) (hno : s.net.NoRoutes s.dnsTable)
    (silent : ∀ now, event = .callback now → ∀ data ring, s.ring = data :: ring →
      Silent dc s.dnsCtx s.dns data)
    (h : s.step c e dc alloc lookup event = some t) : t.net.NoRoutes t.dnsTable := by
  cases event with
  | routeAdded route =>
    simp only [step] at h
    split at h
    next hmain =>
      cases Option.some.inj h
      intro r hr
      rcases List.mem_append.mp hr with hr | hr
      · exact hno r hr
      · rw [List.mem_singleton.mp hr, hmain]
        exact isRandTable_ne_main drawn
    next => cases h
  | routeDeleted route =>
    simp only [step] at h
    split at h
    next =>
      cases Option.some.inj h
      exact hno.subset fun r hr => List.mem_of_mem_erase hr
    next => cases h
  | reloadRules =>
    have hsubset := reloadRules_routes off h
    obtain ⟨newMark, enable, blocker, net, _, _, rfl⟩ := reloadRules_some h
    exact hno.subset hsubset
  | dnsTurn => exact dnsTurn_noRoutes off h
  | callback now =>
    obtain ⟨data, ring, hring, ⟨_, _, rfl⟩ | ⟨dns, net, hparse, rfl⟩⟩ := callback_some h
    · exact hno
    · exact (DnsState.parse_noRoutes hparse hno).mpr (silent now rfl data ring hring)
  | sweep now =>
    cases Option.some.inj h
    exact hno.subset (DnsState.sweepLoop_routes _ s.dns s.net)
  | retire name dest =>
    cases Option.some.inj h
    exact hno.subset (DnsState.removeStep_routes _ _ _ s.net)
  | _ =>
    have frame := step_frame h
    rw [frame.net rfl, frame.dnsTable]
    exact hno

end System

namespace Monitored

variable {c : Crates} {e : Endian} {dc : DnsCrates} {alloc : Nat → Option (Nat → UInt8)}
  {lookup : Net → List Link → UInt32 → Option FibResult} {m m' : Monitored}

structure Inv (m : Monitored) : Prop where
  drawn : isRandTable m.sys.dnsTable = true
  off : m.processed = true → m.sys.conf.value.enable = false
  empty : m.processed = true → m.sys.net.NoRoutes m.sys.dnsTable

theorem inv_step {event : SystemEvent} (h : m.Inv) (ok : m.Allowed dc event)
    (step : m.step c e dc alloc lookup event = some m') : m'.Inv := by
  obtain ⟨sys, hsys, step⟩ := Option.bind_eq_some_iff.mp step
  cases Option.some.inj step
  have hdrawn := h.drawn
  rw [← (System.step_frame hsys).dnsTable] at hdrawn
  refine ⟨hdrawn, fun hprocessed => ?_, fun hprocessed => ?_⟩
  · simpa using ((Bool.and_eq_true _ _).mp hprocessed).1
  obtain ⟨hoff, hturn⟩ := (Bool.and_eq_true _ _).mp hprocessed
  obtain hbefore | hturn := (Bool.or_eq_true _ _).mp hturn
  · refine System.step_noRoutes h.drawn (h.off hbefore) (h.empty hbefore) ?_ hsys
    rintro now rfl
    exact ok hbefore
  · cases event with
    | dnsTurn =>
      have hsame : sys.conf = m.sys.conf := by
        obtain ⟨updateCaches, _, rfl⟩ := System.dnsTurn_some hsys
        rfl
      refine System.dnsTurn_noRoutes ?_ hsys
      rw [← hsame]
      simpa using hoff
    | _ => cases hturn

/-- Once `watch_dns_routes` has had a turn with the service disabled, the table
stays empty until it is enabled again, as long as the packets handled are silent. -/
theorem processed_noRoutes {s₀ : System} (drawn : isRandTable s₀.dnsTable = true)
    {events : List SystemEvent}
    (run : Run (step c e dc alloc lookup) (Allowed dc) ⟨s₀, false⟩ events m)
    (processed : m.processed = true) : m.sys.net.NoRoutes m.sys.dnsTable :=
  (run.invariant (fun _ _ _ => inv_step) ⟨drawn, nofun, nofun⟩).empty processed

/-- One packet is handled before the service is disabled, and one is still queued then. -/
def crossing : List SystemEvent :=
  turns 70001 ++ [.packet sharedAnswers, .packet sharedAnswers, .callback 0, .change .disable,
    .dnsWake, .dnsTurn]

theorem processed_noRoutes_crossing :
    ∃ m, Run (step anyCrates .little sampleDnsCrates zeroedPages firstMain) (Allowed sampleDnsCrates)
        ⟨wgSystem, false⟩ crossing m ∧ m.sys.net.NoRoutes m.sys.dnsTable := by
  have run : ∃ m, Run (step anyCrates .little sampleDnsCrates zeroedPages firstMain)
      (Allowed sampleDnsCrates) ⟨wgSystem, false⟩ crossing m ∧ m.processed = true :=
    ⟨_, .cons trivial rfl (.cons trivial rfl (.cons trivial rfl (.cons trivial rfl
      (.cons trivial rfl (.cons trivial rfl (.cons trivial rfl (.cons trivial rfl
      (.cons trivial rfl (.cons nofun rfl (.cons trivial rfl (.cons trivial rfl
      (.single trivial rfl)))))))))))), rfl⟩
  obtain ⟨m, run, processed⟩ := run
  exact ⟨m, run, processed_noRoutes rfl run processed⟩

theorem processed_not_noRoutes :
    ¬∀ {c : Crates} {e : Endian} {dc : DnsCrates} {alloc : Nat → Option (Nat → UInt8)}
      {lookup : Net → List Link → UInt32 → Option FibResult} {s₀ : System} {m : Monitored}
      {events : List SystemEvent}, s₀.Started → isRandTable s₀.dnsTable = true →
      Run (step c e dc alloc lookup) (fun _ _ => True) ⟨s₀, false⟩ events m →
      m.processed = true → m.sys.net.NoRoutes m.sys.dnsTable := by
  intro h
  have run : ∃ m, Run (step anyCrates .little sampleDnsCrates zeroedPages firstMain)
      (fun _ _ => True) ⟨wgSystem, false⟩ (turns 70001 ++ [.packet sharedAnswers,
        .change .disable, .dnsWake, .dnsTurn, .callback 0]) m ∧ m.processed = true ∧
      (m.sys.net.routes.any fun r => r.table == m.sys.dnsTable) = true :=
    ⟨_, Run.of_foldlM rfl, rfl, rfl⟩
  obtain ⟨m, run, processed, hany⟩ := run
  obtain ⟨r, hr, htable⟩ := List.any_eq_true.mp hany
  exact h wgSystem_started rfl run processed r hr (eq_of_beq htable)

end Monitored

end Rebpf
