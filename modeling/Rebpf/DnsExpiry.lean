import Rebpf.DnsMirror

namespace Rebpf

open Lib DnsState

namespace DnsState

/-- The sleeper wakes up no later than the first record of the heap expires. -/
def Awake (dns : DnsState) : Prop :=
  dns.heap ≠ [] → ∃ t, dns.ttlSleeper = some t ∧ ∀ rec ∈ dns.heap, t ≤ rec.ttlExpire

/-- No name and address twice in the heap, the pairs in the heap exactly the
keys of the map, in one spelling, and no expiry missed. -/
structure Consistent (dns : DnsState) : Prop where
  distinct : (dns.heap.map fun rec => foldedKey rec.key).Nodup
  keys : ∀ k, k ∈ dns.heap.map DnsRecord.key ↔ k ∈ dns.hash.keys
  awake : dns.Awake

theorem Keyed.consistent {dns : DnsState} (h : dns.Keyed) (awake : dns.Awake) :
    dns.Consistent := by
  refine ⟨?_, fun _ => h.mem_iff, awake⟩
  have hnodup := (List.Perm.map foldedKey h).nodup_iff.mpr dns.hash.keys_nodup
  rwa [List.map_map] at hnodup

variable {c : Crates} {dc : DnsCrates} {ctx : DnsCtx} {now : Nat} {dns : DnsState}

theorem awake_of_peek (h : dns.ttlSleeper = (dc.heap.peek dns.heap).map (·.ttlExpire)) :
    dns.Awake := by
  intro hne
  obtain ⟨rec, _, hpeek, hleast⟩ := dc.heap.peek_least hne
  refine ⟨rec.ttlExpire, ?_, hleast⟩
  rw [h, hpeek, Option.map_some]

/-- Records may go without the sleeper being told. -/
theorem Awake.subset {dns' : DnsState} (h : dns.Awake)
    (sleeper : dns'.ttlSleeper = dns.ttlSleeper) (heap : ∀ rec ∈ dns'.heap, rec ∈ dns.heap) :
    dns'.Awake := by
  intro hne
  obtain ⟨rec, hrec⟩ := List.exists_mem_of_ne_nil _ hne
  obtain ⟨t, ht, hleast⟩ := h (List.ne_nil_of_mem (heap rec hrec))
  exact ⟨t, sleeper.trans ht, fun r hr => hleast r (heap r hr)⟩

/-- What the four operations on the DNS state keep, whatever the context. -/
structure Kept (c : Crates) (dc : DnsCrates) (I : DnsState → Prop) : Prop where
  answer : ∀ {ctx now dns} net ans, I dns → I (parseAnswer dc ctx now (dns, net) ans).1
  sweep : ∀ {ctx now dns} net, I dns → I (watchDnsTtl dc ctx now dns net).1
  retire : ∀ {ctx dns} name dest net, I dns → I (removeRecords ctx name dest dns net).2.1
  rebuild : ∀ {ctx dns} updateCaches net, I dns →
    I (watchDnsRoutes c dc ctx updateCaches dns net).1

theorem kept_keyed : Kept c dc Keyed where
  answer net ans h := parseAnswer_keyed h net ans
  sweep net h := (watchDnsTtl_swept h net).keyed
  retire name dest net h := (removeRecords_retired name dest net).keyed h
  rebuild updateCaches net h := watchDnsRoutes_keyed h updateCaches net

theorem kept_awake : Kept c dc Awake where
  answer {_ _ dns} net ans h := by
    rcases parseAnswer_cases dns net ans with ⟨hash, _, heq⟩ | ⟨record, dir, _, _, heq⟩
    · rw [heq]
      exact h
    · rw [heq]
      exact awake_of_peek rfl
  sweep net h := awake_of_peek rfl
  retire {ctx dns} name dest net h := by
    have retired : Retired ctx name dest dns.heap _ _ net _ := removeRecords_retired name dest net
    refine h.subset retired.sleeper fun rec hrec => ?_
    rw [retired.heap, List.nil_append] at hrec
    exact (List.mem_filter.mp hrec).1
  rebuild updateCaches net h := h.subset rfl fun rec hrec => (List.mem_filter.mp hrec).1

end DnsState

namespace Dns

variable {c : Crates} {dc : DnsCrates} {s t : Dns}

theorem step_kept {I : DnsState → Prop} (kept : Kept c dc I) {event : DnsEvent} (h : I s.dns)
    (step : s.step c dc event = some t) : I t.dns := by
  cases event with
  | conf conf =>
    cases Option.some.inj step
    exact h
  | route route =>
    cases Option.some.inj step
    exact h
  | defaultRoute route =>
    cases Option.some.inj step
    exact h
  | answers now data =>
    simp only [Dns.step] at step
    split at step
    next hparse =>
      cases Option.some.inj step
      exact parse_invariant (I := fun dns _ => I dns) (fun _ net ans => kept.answer net ans) hparse h
    next =>
      cases Option.some.inj step
      exact h
  | sweep now =>
    cases Option.some.inj step
    exact kept.sweep s.net h
  | retire name dest =>
    cases Option.some.inj step
    exact kept.retire name dest s.net h
  | rebuild updateCaches =>
    cases Option.some.inj step
    exact kept.rebuild updateCaches s.net h

theorem run_kept {I : DnsState → Prop} (kept : Kept c dc I) {s₀ : Dns} {events : List DnsEvent}
    (run : Run (Dns.step c dc) (fun _ _ => True) s₀ events s) (start : I s₀.dns) : I s.dns :=
  run.invariant (I := fun s => I s.dns) (fun _ _ _ h _ => step_kept kept h) start

/-- In every run the heap and the map hold the same records, each once, and the
sleeper misses no expiry. -/
theorem run_consistent {s₀ : Dns} (fresh : s₀.dns = .init) {events : List DnsEvent}
    (run : Run (Dns.step c dc) (fun _ _ => True) s₀ events s) : s.dns.Consistent := by
  have keyed : s.dns.Keyed := by
    refine run_kept kept_keyed run ?_
    rw [fresh]
    exact List.Perm.nil
  have awake : s.dns.Awake := by
    refine run_kept kept_awake run ?_
    rw [fresh]
    exact fun hne => absurd rfl hne
  exact keyed.consistent awake

theorem run_consistent_shared :
    ∃ s, Run (Dns.step anyCrates sampleDnsCrates) (fun _ _ => True) anyDns
        [.rebuild true, .answers 0 sharedAnswers, .sweep (fromSecs 60)] s ∧
      s.dns.Consistent := by
  have run : ∃ s, Run (Dns.step anyCrates sampleDnsCrates) (fun _ _ => True) anyDns
      [.rebuild true, .answers 0 sharedAnswers, .sweep (fromSecs 60)] s :=
    ⟨_, Run.of_foldlM rfl⟩
  obtain ⟨s, run⟩ := run
  have fresh : anyDns.dns = .init := rfl
  exact ⟨s, run, Dns.run_consistent fresh run⟩

end Dns

end Rebpf
