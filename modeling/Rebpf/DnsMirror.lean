import Rebpf.DnsRecords
import Rebpf.Lib.Run

namespace Rebpf

open Lib DnsState

structure Dns where
  ctx : DnsCtx
  dns : DnsState
  net : Net

inductive DnsEvent
  | conf (conf : State)
  | route (route : Option Route)
  | defaultRoute (route : Option Route)
  | answers (now : Nat) (data : Except String DnsMessage)
  | sweep (now : Nat)
  | retire (name : Option DnsName) (dest : Option UInt32)
  | rebuild (updateCaches : Bool)

def DnsState.init : DnsState := ⟨none, [], .empty foldedKey Nat, ⟨none⟩⟩

namespace Dns

def step (c : Crates) (dc : DnsCrates) (s : Dns) : DnsEvent → Option Dns
  | .conf conf => some { s with ctx := { s.ctx with conf } }
  | .route route => some { s with ctx := { s.ctx with route } }
  | .defaultRoute defaultRoute => some { s with ctx := { s.ctx with defaultRoute } }
  | .answers now data =>
    match parse dc s.ctx now data s.dns s.net with
    | .ok (dns, net) => some { s with dns, net }
    | .error _ => some s
  | .sweep now =>
    let (dns, net) := watchDnsTtl dc s.ctx now s.dns s.net
    some { s with dns, net }
  | .retire name dest =>
    let (_, dns, net) := removeRecords s.ctx name dest s.dns s.net
    some { s with dns, net }
  | .rebuild updateCaches =>
    let (dns, net) := watchDnsRoutes c dc s.ctx updateCaches s.dns s.net
    some { s with dns, net }

/-- The destinations routed are those of the records. -/
def Mirrors (s : Dns) : Prop :=
  ∀ d, s.net.Routed s.ctx.dnsTable d ↔ ∃ rec ∈ s.dns.heap, rec.net = d

def Apart (s : Dns) (gone : DnsRecord → Prop) : Prop :=
  ∀ rec ∈ s.dns.heap, gone rec → ∀ left ∈ s.dns.heap, ¬gone left → rec.dest ≠ left.dest

/-- The service stays on with both routes, and a sweep or a retirement removes
all records of an address or none. -/
def Allowed (s : Dns) : DnsEvent → Prop
  | .conf conf => conf.enable = true
  | .route route => route.isSome
  | .defaultRoute route => route.isSome
  | .answers _ _ => True
  | .sweep now => s.Apart (Expired s.dns.hash now)
  | .retire name dest => s.Apart (picks name dest ·)
  | .rebuild _ => True

structure Inv (s : Dns) : Prop where
  available : s.ctx.Available
  keyed : s.dns.Keyed
  mirrors : s.Mirrors

variable {c : Crates} {dc : DnsCrates} {s t : Dns}

/-- A table that mirrored the heap and has lost the routes of the records that
are gone mirrors the rest exactly if these have no address in common. -/
theorem mirrors_left {gone : DnsRecord → Prop} {net' : Net} (h : s.Mirrors)
    (lost : ∀ d, net'.Routed s.ctx.dnsTable d ↔
      s.net.Routed s.ctx.dnsTable d ∧ ∀ rec ∈ s.dns.heap, gone rec → rec.net ≠ d) :
    (∀ d, net'.Routed s.ctx.dnsTable d ↔ ∃ rec ∈ s.dns.heap, ¬gone rec ∧ rec.net = d) ↔
      s.Apart gone := by
  constructor
  · intro hleft rec hrec hgone left hmem hkept heq
    obtain ⟨_, hlost⟩ := (lost left.net).mp ((hleft left.net).mpr ⟨left, hmem, hkept, rfl⟩)
    exact hlost rec hrec hgone (congrArg (Ipv4Net.mk · 32) heq)
  · intro apart d
    constructor
    · intro hd
      obtain ⟨hbefore, hlost⟩ := (lost d).mp hd
      obtain ⟨rec, hrec, hnet⟩ := (h d).mp hbefore
      exact ⟨rec, hrec, fun hgone => hlost rec hrec hgone hnet, hnet⟩
    · rintro ⟨left, hmem, hkept, rfl⟩
      refine (lost _).mpr ⟨(h _).mpr ⟨left, hmem, rfl⟩, fun rec hrec hgone heq => ?_⟩
      exact apart rec hrec hgone left hmem hkept (congrArg Ipv4Net.addr heq)

theorem survivor_net {hash : SpelledMap foldedKey Nat} {now : Nat} {rec kept : DnsRecord}
    (h : survivor hash now rec = some kept) : kept.net = rec.net :=
  congrArg (fun key : DnsName × UInt32 => Ipv4Net.mk key.2 32) (survivor_key h)

theorem swept_destinations {now : Nat} {dns' : DnsState} {net' : Net}
    (h : TtlSwept dc s.ctx now s.dns dns' s.net net') (d : Ipv4Net) :
    (∃ rec ∈ dns'.heap, rec.net = d) ↔
      ∃ rec ∈ s.dns.heap, ¬Expired s.dns.hash now rec ∧ rec.net = d := by
  constructor
  · rintro ⟨kept, hkept, rfl⟩
    obtain ⟨rec, hrec, hsurvivor⟩ := List.mem_filterMap.mp (h.heap.mem_iff.mp hkept)
    refine ⟨rec, hrec, fun hexpired => ?_, (survivor_net hsurvivor).symm⟩
    rw [survivor_eq_none.mpr hexpired] at hsurvivor
    cases hsurvivor
  · rintro ⟨rec, hrec, hkept, rfl⟩
    obtain ⟨kept, hsurvivor⟩ :=
      Option.ne_none_iff_exists'.mp (mt survivor_eq_none.mp hkept)
    refine ⟨kept, h.heap.mem_iff.mpr (List.mem_filterMap.mpr ⟨rec, hrec, hsurvivor⟩), ?_⟩
    exact survivor_net hsurvivor

theorem sweep_mirrors_iff {now : Nat} (h : s.Inv) (step : s.step c dc (.sweep now) = some t) :
    t.Mirrors ↔ s.Allowed (.sweep now) := by
  have swept : TtlSwept dc s.ctx now s.dns _ s.net _ := watchDnsTtl_swept h.keyed s.net
  cases Option.some.inj step
  refine Iff.trans (forall_congr' fun d => ?_) (mirrors_left h.mirrors swept.routed)
  exact iff_congr Iff.rfl (swept_destinations swept d)

theorem retire_mirrors_iff {name : Option DnsName} {dest : Option UInt32} (h : s.Inv)
    (step : s.step c dc (.retire name dest) = some t) :
    t.Mirrors ↔ s.Allowed (.retire name dest) := by
  have retired : Retired s.ctx name dest s.dns.heap _ _ s.net _ := removeRecords_retired _ _ _
  cases Option.some.inj step
  refine Iff.trans (forall_congr' fun d => ?_) (mirrors_left h.mirrors retired.routed)
  refine iff_congr Iff.rfl ?_
  show (∃ rec ∈ (removeRecords s.ctx name dest s.dns s.net).2.1.heap, rec.net = d) ↔ _
  rw [retired.heap]
  simp only [List.nil_append, List.mem_filter, Bool.not_eq_true', Bool.not_eq_true, and_assoc]

theorem inv_step {event : DnsEvent} (h : s.Inv) (ok : s.Allowed event)
    (step : s.step c dc event = some t) : t.Inv := by
  obtain ⟨⟨enable, route, defaultRoute⟩, keyed, mirrors⟩ := h
  cases event with
  | conf conf =>
    cases Option.some.inj step
    exact ⟨⟨ok, route, defaultRoute⟩, keyed, mirrors⟩
  | route route' =>
    cases Option.some.inj step
    exact ⟨⟨enable, ok, defaultRoute⟩, keyed, mirrors⟩
  | defaultRoute route' =>
    cases Option.some.inj step
    exact ⟨⟨enable, route, ok⟩, keyed, mirrors⟩
  | answers now data =>
    simp only [Dns.step] at step
    split at step
    next hparse =>
      have answered := parse_answered ⟨enable, route, defaultRoute⟩ hparse
      cases Option.some.inj step
      exact ⟨⟨enable, route, defaultRoute⟩, answered.keyed keyed,
        fun d => answered.routed d (mirrors d)⟩
    next =>
      cases Option.some.inj step
      exact ⟨⟨enable, route, defaultRoute⟩, keyed, mirrors⟩
  | sweep now =>
    have swept : TtlSwept dc s.ctx now s.dns _ s.net _ := watchDnsTtl_swept keyed s.net
    have hmirrors := (sweep_mirrors_iff ⟨⟨enable, route, defaultRoute⟩, keyed, mirrors⟩ step).mpr ok
    cases Option.some.inj step
    exact ⟨⟨enable, route, defaultRoute⟩, swept.keyed, hmirrors⟩
  | retire name dest =>
    have retired : Retired s.ctx name dest s.dns.heap _ _ s.net _ := removeRecords_retired _ _ _
    have hmirrors :=
      (retire_mirrors_iff ⟨⟨enable, route, defaultRoute⟩, keyed, mirrors⟩ step).mpr ok
    cases Option.some.inj step
    exact ⟨⟨enable, route, defaultRoute⟩, retired.keyed keyed, hmirrors⟩
  | rebuild updateCaches =>
    have available : s.ctx.Available := ⟨enable, route, defaultRoute⟩
    have hkeyed : (watchDnsRoutes c dc s.ctx updateCaches s.dns s.net).1.Keyed :=
      watchDnsRoutes_keyed keyed updateCaches s.net
    have hrouted : ∀ d, (watchDnsRoutes c dc s.ctx updateCaches s.dns s.net).2.Routed
        s.ctx.dnsTable d ↔ _ := watchDnsRoutes_rebuilt available s.dns updateCaches s.net
    cases Option.some.inj step
    exact ⟨available, hkeyed, hrouted⟩

/-- As long as no sweep and no retirement separates records of one address, the
table mirrors the heap. -/
theorem run_mirrors {s₀ : Dns} (available : s₀.ctx.Available) (fresh : s₀.dns = .init)
    (unrouted : ∀ d, ¬s₀.net.Routed s₀.ctx.dnsTable d) {events : List DnsEvent}
    (run : Run (Dns.step c dc) Dns.Allowed s₀ events s) : s.Mirrors := by
  have start : s₀.Inv := by
    refine ⟨available, ?_, fun d => ⟨fun h => absurd h (unrouted d), ?_⟩⟩
    · rw [fresh]
      exact List.Perm.nil
    · rw [fresh]
      rintro ⟨_, hrec, _⟩
      cases hrec
  exact (run.invariant (I := Dns.Inv) (fun _ _ _ => inv_step) start).mirrors

end Dns

def emptyDfa : DenseDfa where
  byteClass _ := 0
  eoi := ⟨1, by decide⟩
  stride := 2
  table := [0, 0]
  start := .ok 0
  minMatch := 0
  maxMatch := 0
  pats := []
  aligned := by decide
  start_aligned := by rintro s ⟨⟩; decide
  match_aligned := by decide
  dead_row := by decide
  class_zero := rfl
  class_lt _ := by decide
  eoi_lt := by decide

/-- The DFA of `^(?:.*)\.?$` over names: after the dead row, the match row and
the start row, which every byte leads back to. -/
def anyDfa : DenseDfa where
  byteClass _ := 0
  eoi := ⟨1, by decide⟩
  stride := 2
  table := [0, 0, 0, 0, 4, 2]
  start := .ok 4
  minMatch := 2
  maxMatch := 2
  pats := [[0]]
  aligned := by decide
  start_aligned := by rintro s ⟨⟩; decide
  match_aligned := by decide
  dead_row := by decide
  class_zero := rfl
  class_lt _ := by decide
  eoi_lt := by decide

def anyCrates : Crates :=
  { slashACrates with
    buildMany := fun _ pats =>
      if pats = [] then .ok emptyDfa
      else if pats = ["^(?:.*)\\.?$"] then .ok anyDfa
      else .error "unsupported" }

def anyRule : Match where
  pattern := ".*"
  kind := .dns
  method := .regex
  direction := .redirect
  uid := 0

def sampleDnsCrates : DnsCrates where
  nameToString name :=
    ".".intercalate (name.labels.map fun l => String.ofList (l.map fun b => Char.ofNat b.toNat)) ++
      if name.isFqdn then "." else ""
  trySearchFwd d text := do
    let s ← d.search text.toUTF8.data.toList
    if d.isMatchState s then (d.matchPatterns s).bind List.head? else none
  heap := firstLeast _

def anyDns : Dns where
  ctx :=
    { conf := { State.default with enable := true, ms := ⟨[anyRule], 1, 1⟩ }
      route := some ⟨true, 2, "wg0", [], none⟩
      defaultRoute := some ⟨true, 1, "eth0", [], none⟩
      dnsTable := 70000 }
  dns := .init
  net := ⟨[], [], []⟩

/-- An answer of 60 seconds for `a` and one of 120 for `b`, both for 10.0.0.1. -/
def sharedAnswers : Except String DnsMessage :=
  .ok ⟨1, [⟨⟨[[97]], true⟩, 60, .a (ipv4Addr 10 0 0 1)⟩,
    ⟨⟨[[98]], true⟩, 120, .a (ipv4Addr 10 0 0 1)⟩], true, .noError⟩

theorem anyDns_available : anyDns.ctx.Available := ⟨rfl, rfl, rfl⟩

theorem anyDns_unrouted (d : Ipv4Net) : ¬anyDns.net.Routed anyDns.ctx.dnsTable d := by
  rintro ⟨_, hr, _⟩
  cases hr

theorem Dns.run_mirrors_shared :
    ∃ s, Run (Dns.step anyCrates sampleDnsCrates) Dns.Allowed anyDns
        [.rebuild true, .answers 0 sharedAnswers, .sweep (fromSecs 120)] s ∧ s.Mirrors := by
  have answered : ∃ s, Run (Dns.step anyCrates sampleDnsCrates) Dns.Allowed anyDns
      [.rebuild true, .answers 0 sharedAnswers] s ∧
      s.dns.heap.filterMap (survivor s.dns.hash (fromSecs 120)) = [] :=
    ⟨_, .cons trivial rfl (.single trivial rfl), by decide +kernel⟩
  obtain ⟨s, run, hexpired⟩ := answered
  have allowed : s.Allowed (.sweep (fromSecs 120)) := by
    intro _ _ _ left hleft hkept
    exact absurd (survivor_eq_none.mp (List.filterMap_eq_nil_iff.mp hexpired left hleft)) hkept
  have all := run.append (.single allowed rfl)
  exact ⟨_, all, Dns.run_mirrors anyDns_available rfl anyDns_unrouted all⟩

/-- After 60 seconds the record of `a` takes the route of `b` with it. -/
theorem Dns.run_not_mirrors :
    ¬∀ {c : Crates} {dc : DnsCrates} {s₀ s : Dns}, s₀.ctx.Available → s₀.dns = .init →
      (∀ d, ¬s₀.net.Routed s₀.ctx.dnsTable d) → ∀ {events : List DnsEvent},
      Run (Dns.step c dc) (fun s _ => s.ctx.Available) s₀ events s → s.Mirrors := by
  intro h
  have run : ∃ s, Run (Dns.step anyCrates sampleDnsCrates) (fun s _ => s.ctx.Available) anyDns
        [.rebuild true, .answers 0 sharedAnswers, .sweep (fromSecs 60)] s ∧
        s.net.routes = [] ∧ s.dns.heap.length = 1 :=
    ⟨_, .cons anyDns_available rfl (.cons ⟨rfl, rfl, rfl⟩ rfl (.single ⟨rfl, rfl, rfl⟩ rfl)),
      rfl, rfl⟩
  obtain ⟨s, run, hroutes, hlength⟩ := run
  obtain ⟨rec, hheap⟩ := List.length_eq_one_iff.mp hlength
  have hrec : rec ∈ s.dns.heap := hheap ▸ List.mem_singleton_self rec
  obtain ⟨r, hr, _⟩ :=
    (h anyDns_available rfl anyDns_unrouted run rec.net).mpr ⟨rec, hrec, rfl⟩
  rw [hroutes] at hr
  cases hr

end Rebpf
