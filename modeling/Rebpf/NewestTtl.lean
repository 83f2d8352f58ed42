import Rebpf.DnsServed
import Rebpf.TtlSweep

namespace Rebpf

open Lib DnsState

/-- A pair of a name and an address, as far as names compare equal, and the
expiry an answer gives for it. -/
abbrev Receipt := ((Bool × List (List UInt8)) × UInt32) × Nat

/-- What an answer gives, if its name is one that is matched. -/
def DnsCache.receipt (dc : DnsCrates) (ctx : DnsCtx) (now : Nat) (cache : DnsCache)
    (ans : DnsAnswer) : Option Receipt :=
  match ans.data with
  | .other => none
  | .a dest =>
    if (cache.get dc (ans.name.setFqdn true)).isSome then
      some (foldedKey (ans.name.setFqdn true, dest),
        now + fromSecs (min ans.ttl ctx.conf.config.dnsMaxTtlSec))
    else none

namespace Dns

/-- What the daemon receives with an event, in the order of the answers. -/
def received (dc : DnsCrates) (s : Dns) : DnsEvent → List Receipt
  | .answers now data =>
    match parse dc s.ctx now data s.dns s.net with
    | .ok _ => (data.toOption.elim [] (·.answers)).filterMap (s.dns.cache.receipt dc s.ctx now)
    | .error _ => []
  | _ => []

/-- All that is received in a run, the newest first. -/
def receipts (c : Crates) (dc : DnsCrates) : Dns → List DnsEvent → List Receipt
  | _, [] => []
  | s, event :: events =>
    match s.step c dc event with
    | some t => receipts c dc t events ++ (s.received dc event).reverse
    | none => []

end Dns

namespace DnsState

/-- The map has the newest expiry received for each record, and its own expiry
is one of those received. -/
structure Receives (log : List Receipt) (dns : DnsState) : Prop where
  keyed : dns.Keyed
  newest : ∀ rec ∈ dns.heap, dns.hash.lookup rec.key = log.lookup (foldedKey rec.key)
  stored : ∀ rec ∈ dns.heap, (foldedKey rec.key, rec.ttlExpire) ∈ log

variable {c : Crates} {dc : DnsCrates} {ctx : DnsCtx} {now : Nat} {dns dns' : DnsState}
  {net net' : Net} {log : List Receipt}

/-- Records may go, or be stored with the expiry the map has for them. -/
theorem Receives.carried (h : dns.Receives log) (keyed : dns'.Keyed)
    (carried : ∀ rec ∈ dns'.heap, ∃ old ∈ dns.heap, old.key = rec.key ∧
      dns'.hash.lookup rec.key = dns.hash.lookup rec.key ∧
        (rec.ttlExpire = old.ttlExpire ∨ dns'.hash.lookup rec.key = some rec.ttlExpire)) :
    dns'.Receives log := by
  refine ⟨keyed, fun rec hrec => ?_, fun rec hrec => ?_⟩
  · obtain ⟨old, hold, hkey, hlookup, _⟩ := carried rec hrec
    rw [hlookup, ← hkey]
    exact h.newest old hold
  · obtain ⟨old, hold, hkey, hlookup, hexpire | hrenewed⟩ := carried rec hrec
    · rw [hexpire, ← hkey]
      exact h.stored old hold
    · rw [hlookup, ← hkey, h.newest old hold] at hrenewed
      obtain ⟨newer, older, hlog, _⟩ := List.lookup_eq_some_iff.mp hrenewed
      rw [← hkey, hlog]
      exact List.mem_append_right _ List.mem_cons_self

/-- An expiry that is written to the map is the newest for its own key only. -/
theorem Receives.insert (h : dns.Receives log) (key : DnsName × UInt32) (expiry : Nat) :
    ∀ rec ∈ dns.heap, (dns.hash.insert key expiry).lookup rec.key =
      ((foldedKey key, expiry) :: log).lookup (foldedKey rec.key) := by
  intro rec hrec
  by_cases hkey : foldedKey rec.key = foldedKey key
  · rw [SpelledMap.lookup_congr _ hkey, SpelledMap.lookup_insert_self, hkey, List.lookup_cons_self]
  · have hne : (foldedKey rec.key == foldedKey key) = false := by simpa using hkey
    rw [SpelledMap.lookup_insert_ne _ hkey, h.newest rec hrec, List.lookup_cons, hne]

theorem parseAnswer_receives (h : dns.Receives log) (net : Net) (ans : DnsAnswer) :
    (parseAnswer dc ctx now (dns, net) ans).1.Receives
      ((dns.cache.receipt dc ctx now ans).toList ++ log) := by
  have keyed : (parseAnswer dc ctx now (dns, net) ans).1.Keyed := parseAnswer_keyed h.keyed net ans
  cases hdata : ans.data with
  | other =>
    simp only [parseAnswer, DnsCache.receipt, hdata]
    exact h
  | a dest =>
    cases hget : dns.cache.get dc (ans.name.setFqdn true) with
    | none =>
      simp only [parseAnswer, DnsCache.receipt, hdata, hget]
      exact h
    | some result =>
      obtain ⟨key, hkey⟩ : ∃ key, key = (ans.name.setFqdn true, dest) := ⟨_, rfl⟩
      obtain ⟨expiry, hexpiry⟩ : ∃ expiry,
        expiry = now + fromSecs (min ans.ttl ctx.conf.config.dnsMaxTtlSec) := ⟨_, rfl⟩
      have hreceipt : dns.cache.receipt dc ctx now ans = some (foldedKey key, expiry) := by
        simp [DnsCache.receipt, hdata, hget, hkey, hexpiry]
      have hinsert := h.insert key expiry
      rw [hreceipt]
      cases hlookup : dns.hash.lookup key with
      | some old =>
        have heq : (parseAnswer dc ctx now (dns, net) ans).1 =
            { dns with hash := dns.hash.insert key expiry } := by
          rw [hkey] at hlookup
          simp only [parseAnswer, hdata, hget, DnsRecord.key, hlookup, hkey, hexpiry]
        rw [heq] at keyed ⊢
        exact ⟨keyed, hinsert, fun rec hrec => List.mem_cons_of_mem _ (h.stored rec hrec)⟩
      | none =>
        have heq : (parseAnswer dc ctx now (dns, net) ans).1 = { dns with
            hash := dns.hash.insert key expiry
            heap := dns.heap ++ [⟨expiry, key.2, key.1⟩]
            ttlSleeper := (dc.heap.peek (dns.heap ++ [⟨expiry, key.2, key.1⟩])).map
              (·.ttlExpire) } := by
          rw [hkey] at hlookup
          simp only [parseAnswer, hdata, hget, DnsRecord.key, hlookup, hkey, hexpiry]
        rw [heq] at keyed ⊢
        refine ⟨keyed, fun rec hrec => ?_, fun rec hrec => ?_⟩
        · rcases List.mem_append.mp hrec with hrec | hrec
          · exact hinsert rec hrec
          · cases List.mem_singleton.mp hrec
            exact (SpelledMap.lookup_insert_self _ _ _).trans List.lookup_cons_self.symm
        · rcases List.mem_append.mp hrec with hrec | hrec
          · exact List.mem_cons_of_mem _ (h.stored rec hrec)
          · cases List.mem_singleton.mp hrec
            exact List.mem_cons_self

theorem answers_receive (answers : List DnsAnswer) (h : dns.Receives log) (net : Net) :
    (answers.foldl (parseAnswer dc ctx now) (dns, net)).1.Receives
      ((answers.filterMap (dns.cache.receipt dc ctx now)).reverse ++ log) := by
  induction answers generalizing dns net log with
  | nil => exact h
  | cons ans answers ih =>
    have hfirst : (parseAnswer dc ctx now (dns, net) ans).1.Receives _ :=
      parseAnswer_receives h net ans
    have hrest := ih hfirst (parseAnswer dc ctx now (dns, net) ans).2
    rw [(parseAnswer_served dns net ans).cache] at hrest
    rw [List.foldl_cons, List.filterMap_cons]
    cases hreceipt : dns.cache.receipt dc ctx now ans with
    | none =>
      rw [hreceipt] at hrest
      exact hrest
    | some receipt =>
      rw [hreceipt] at hrest
      rw [List.reverse_cons, List.append_assoc]
      exact hrest

theorem watchDnsTtl_receives (h : dns.Receives log) (net : Net) :
    (watchDnsTtl dc ctx now dns net).1.Receives log := by
  obtain ⟨dns', gone, _, hswept, hwatch⟩ := @watchDnsTtl_eq dc ctx now dns h.keyed.paired
  refine h.carried (watchDnsTtl_swept h.keyed net).keyed fun rec hrec => ?_
  rw [hwatch net] at hrec ⊢
  obtain ⟨_, old, hold, hkept, hleft⟩ := hswept.left rec hrec
  have hlookup := hswept.hash old hold
  rw [if_neg hkept] at hlookup
  split at hleft
  next =>
    cases hleft
    exact ⟨rec, hold, rfl, hlookup, Or.inl rfl⟩
  next =>
    obtain ⟨hrec', hrenewed⟩ := hleft
    have hkey : old.key = rec.key := by
      rw [hrec']
      rfl
    rw [hkey] at hlookup
    exact ⟨old, hold, hkey, hlookup, Or.inr hrenewed⟩

/-- Whether a record is picked is the same for all spellings of its key. -/
theorem picks_congr {name : Option DnsName} {dest : Option UInt32} {rec rec' : DnsRecord}
    (h : foldedKey rec.key = foldedKey rec'.key) : picks name dest rec = picks name dest rec' := by
  obtain ⟨hname, hdest⟩ := Prod.mk.inj h
  have hfolded : rec.name.folded = rec'.name.folded := hname
  have hsame : rec.dest = rec'.dest := hdest
  rw [picks, picks, hfolded, hsame]

theorem removeRecords_receives (h : dns.Receives log) (name : Option DnsName)
    (dest : Option UInt32) (net : Net) :
    (removeRecords ctx name dest dns net).2.1.Receives log := by
  have retired : Retired ctx name dest dns.heap _ _ net _ := removeRecords_retired name dest net
  refine h.carried (retired.keyed h.keyed) fun rec hrec => ?_
  rw [retired.heap, List.nil_append] at hrec
  obtain ⟨hold, hleft⟩ := List.mem_filter.mp hrec
  refine ⟨rec, hold, rfl, ?_, Or.inl rfl⟩
  refine (removeStep_lookup _ false { dns with heap := [] } net _).trans (if_neg fun hany => ?_)
  obtain ⟨r, _, htest⟩ := List.any_eq_true.mp hany
  obtain ⟨hpick, heq⟩ := (Bool.and_eq_true _ _).mp htest
  rw [picks_congr (of_decide_eq_true heq), hpick] at hleft
  cases hleft

theorem watchDnsRoutes_receives (h : dns.Receives log) (updateCaches : Bool) (net : Net) :
    (watchDnsRoutes c dc ctx updateCaches dns net).1.Receives log := by
  refine h.carried (watchDnsRoutes_keyed h.keyed updateCaches net) fun rec hrec => ?_
  obtain ⟨hold, hmatched⟩ := List.mem_filter.mp hrec
  have hkey : rec.key ∈ dns.hash.keys := h.keyed.mem_iff.mp (List.mem_map_of_mem hold)
  exact ⟨rec, hold, rfl, SpelledMap.lookup_retain hkey hmatched, Or.inl rfl⟩

end DnsState

namespace Dns

variable {c : Crates} {dc : DnsCrates} {s t : Dns} {log : List Receipt}

theorem step_receives {event : DnsEvent} (h : s.dns.Receives log)
    (step : s.step c dc event = some t) :
    t.dns.Receives ((s.received dc event).reverse ++ log) := by
  cases event with
  | answers now data =>
    simp only [Dns.step] at step
    rw [received]
    cases hparse : parse dc s.ctx now data s.dns s.net with
    | error f =>
      rw [hparse] at step
      cases Option.some.inj step
      exact h
    | ok after =>
      rw [hparse] at step
      cases Option.some.inj step
      obtain ⟨m, rfl, _, _, hanswers⟩ := parse_ok hparse
      have hreceive : (m.answers.foldl (parseAnswer dc s.ctx now) (s.dns, s.net)).1.Receives _ :=
        answers_receive m.answers h s.net
      rw [hanswers] at hreceive
      exact hreceive
  | sweep now =>
    cases Option.some.inj step
    exact watchDnsTtl_receives h s.net
  | retire name dest =>
    cases Option.some.inj step
    exact removeRecords_receives h name dest s.net
  | rebuild updateCaches =>
    cases Option.some.inj step
    exact watchDnsRoutes_receives h updateCaches s.net
  | _ =>
    cases Option.some.inj step
    exact h

theorem run_receives {events : List DnsEvent}
    (run : Run (Dns.step c dc) (fun _ _ => True) s events t) (h : s.dns.Receives log) :
    t.dns.Receives (receipts c dc s events ++ log) := by
  induction run generalizing log with
  | nil => exact h
  | cons _ step _ ih =>
    rw [receipts, step, List.append_assoc]
    exact ih (step_receives h step)

/-- A record that a sweep leaves has an expiry of its answers that is still to
come. If it was due, that is the newest; otherwise it may be one of an earlier
answer, since the newest is only taken from the map when the record is renewed. -/
theorem sweep_newest {s₀ : Dns} (fresh : s₀.dns = .init) {events : List DnsEvent}
    (run : Run (Dns.step c dc) (fun _ _ => True) s₀ events s) {now : Nat}
    (step : s.step c dc (.sweep now) = some t) :
    ∀ rec ∈ t.dns.heap, ∃ newest,
      (receipts c dc s₀ events).lookup (foldedKey rec.key) = some newest ∧
      now < rec.ttlExpire ∧
      (foldedKey rec.key, rec.ttlExpire) ∈ receipts c dc s₀ events ∧
      (∀ old ∈ s.dns.heap, foldedKey old.key = foldedKey rec.key → old.ttlExpire ≤ now →
        rec.ttlExpire = newest) ∧
      ((∀ expiry, (foldedKey rec.key, expiry) ∈ receipts c dc s₀ events → expiry ≤ newest) →
        now < newest) := by
  have start : s₀.dns.Receives [] := by
    rw [fresh]
    exact ⟨List.Perm.nil, fun rec hrec => absurd hrec List.not_mem_nil,
      fun rec hrec => absurd hrec List.not_mem_nil⟩
  have before := run_receives run start
  rw [List.append_nil] at before
  have after : t.dns.Receives (receipts c dc s₀ events) := step_receives before step
  obtain ⟨dns', gone, _, hswept, hwatch⟩ := @watchDnsTtl_eq dc s.ctx now s.dns before.keyed.paired
  have hheap : t.dns.heap = dns'.heap ∧ t.dns.hash = dns'.hash := by
    simp only [Dns.step, hwatch] at step
    cases Option.some.inj step
    exact ⟨rfl, rfl⟩
  intro rec hrec
  have hstored := after.stored rec hrec
  obtain ⟨newest, hnewest⟩ : ∃ newest,
      (receipts c dc s₀ events).lookup (foldedKey rec.key) = some newest := by
    refine Option.ne_none_iff_exists'.mp fun hnone => ?_
    have hne := List.lookup_eq_none_iff.mp hnone _ hstored
    simp at hne
  have hlookup := (after.newest rec hrec).trans hnewest
  rw [hheap.1] at hrec
  rw [hheap.2] at hlookup
  obtain ⟨hlater, old, hold, _, hleft⟩ := hswept.left rec hrec
  refine ⟨newest, hnewest, hlater, hstored, fun due hdue hkey hexpire => ?_, fun hall => ?_⟩
  · split at hleft
    next =>
      cases hleft
      have hnodup := before.keyed.paired.nodup_iff.mpr s.dns.hash.keys_nodup
      cases List.inj_on_of_nodup_map hnodup hdue hold hkey
      omega
    next => exact Option.some.inj (hleft.2.symm.trans hlookup)
  · exact Nat.lt_of_lt_of_le hlater (hall _ hstored)

/-- An answer of an hour for `a`, and after a second one of a minute. -/
def shrinkingTtl : List DnsEvent :=
  [.rebuild true,
    .answers 0 (.ok ⟨1, [⟨⟨[[97]], true⟩, 3600, .a (ipv4Addr 10 0 0 1)⟩], true, .noError⟩),
    .answers (fromSecs 1)
      (.ok ⟨1, [⟨⟨[[97]], true⟩, 60, .a (ipv4Addr 10 0 0 1)⟩], true, .noError⟩)]

theorem sweep_newest_shrinking :
    ∃ s t, Run (Dns.step anyCrates sampleDnsCrates) (fun _ _ => True) anyDns shrinkingTtl s ∧
      s.step anyCrates sampleDnsCrates (.sweep (fromSecs 100)) = some t ∧
      ∀ rec ∈ t.dns.heap, fromSecs 100 < rec.ttlExpire := by
  have run : ∃ s t, Run (Dns.step anyCrates sampleDnsCrates) (fun _ _ => True) anyDns shrinkingTtl s ∧
      s.step anyCrates sampleDnsCrates (.sweep (fromSecs 100)) = some t :=
    ⟨_, _, Run.of_foldlM rfl, rfl⟩
  obtain ⟨s, t, run, step⟩ := run
  have fresh : anyDns.dns = .init := rfl
  refine ⟨s, t, run, step, fun rec hrec => ?_⟩
  obtain ⟨_, _, hlater, _⟩ := sweep_newest fresh run step rec hrec
  exact hlater

/-- After 100 seconds the record is still there, with the expiry of the first answer. -/
theorem sweep_not_newest :
    ¬∀ {c : Crates} {dc : DnsCrates} {s₀ s t : Dns} {events : List DnsEvent} {now : Nat},
      s₀.dns = .init → Run (Dns.step c dc) (fun _ _ => True) s₀ events s →
      s.step c dc (.sweep now) = some t → ∀ rec ∈ t.dns.heap, ∀ newest,
        (receipts c dc s₀ events).lookup (foldedKey rec.key) = some newest → now < newest := by
  intro h
  have run : ∃ s t, Run (Dns.step anyCrates sampleDnsCrates) (fun _ _ => True) anyDns shrinkingTtl s ∧
      s.step anyCrates sampleDnsCrates (.sweep (fromSecs 100)) = some t ∧
      t.dns.heap = [⟨fromSecs 3600, ipv4Addr 10 0 0 1, ⟨[[97]], true⟩⟩] :=
    ⟨_, _, Run.of_foldlM rfl, rfl, rfl⟩
  obtain ⟨s, t, run, step, hheap⟩ := run
  have fresh : anyDns.dns = .init := rfl
  have hrec : ⟨fromSecs 3600, ipv4Addr 10 0 0 1, ⟨[[97]], true⟩⟩ ∈ t.dns.heap := by
    rw [hheap]
    exact List.mem_singleton_self _
  have hlater := h fresh run step _ hrec (fromSecs 61) (by decide +kernel)
  exact absurd hlater (by decide)

end Dns

end Rebpf
