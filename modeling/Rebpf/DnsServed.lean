import Rebpf.DnsRecords

namespace Rebpf

open Lib

namespace DnsState

variable {c : Crates} {dc : DnsCrates} {ctx : DnsCtx} {now : Nat} {dns dns' dns'' : DnsState}
  {net net' : Net}

def Matched (dc : DnsCrates) (dns : DnsState) : Prop :=
  ∀ rec ∈ dns.heap, (dns.cache.get dc rec.name).isSome

/-- The cache stays as it is, and new records are of names it knows. -/
structure Served (dc : DnsCrates) (dns dns' : DnsState) : Prop where
  cache : dns'.cache = dns.cache
  records : ∀ rec ∈ dns'.heap,
    (∃ old ∈ dns.heap, old.key = rec.key) ∨ (dns.cache.get dc rec.name).isSome

theorem Served.subset (cache : dns'.cache = dns.cache)
    (heap : ∀ rec ∈ dns'.heap, ∃ old ∈ dns.heap, old.key = rec.key) : Served dc dns dns' :=
  ⟨cache, fun rec hrec => Or.inl (heap rec hrec)⟩

theorem Served.refl (dns : DnsState) : Served dc dns dns :=
  .subset rfl fun rec hrec => ⟨rec, hrec, rfl⟩

theorem Served.trans (h : Served dc dns dns') (h' : Served dc dns' dns'') :
    Served dc dns dns'' where
  cache := h'.cache.trans h.cache
  records rec hrec := by
    obtain ⟨old, hold, hkey⟩ | hmatched := h'.records rec hrec
    · rw [← hkey]
      obtain ⟨first, hfirst, hkey'⟩ | hmatched := h.records old hold
      · exact Or.inl ⟨first, hfirst, hkey'⟩
      · rw [show rec.name = old.name from congrArg Prod.fst hkey.symm]
        exact Or.inr hmatched
    · rw [h.cache] at hmatched
      exact Or.inr hmatched

theorem Served.matched (h : Served dc dns dns') (matched : dns.Matched dc) : dns'.Matched dc := by
  intro rec hrec
  rw [h.cache]
  obtain ⟨old, hold, hkey⟩ | hmatched := h.records rec hrec
  · rw [show rec.name = old.name from congrArg Prod.fst hkey.symm]
    exact matched old hold
  · exact hmatched

theorem parseAnswer_served (dns : DnsState) (net : Net) (ans : DnsAnswer) :
    Served dc dns (parseAnswer dc ctx now (dns, net) ans).1 := by
  rcases parseAnswer_cases dns net ans with ⟨hash, _, heq⟩ | ⟨record, dir, ⟨i, hget⟩, _, heq⟩
  · rw [heq]
    exact .subset rfl fun rec hrec => ⟨rec, hrec, rfl⟩
  · rw [heq]
    refine ⟨rfl, fun rec hrec => ?_⟩
    obtain hold | hnew := List.mem_append.mp hrec
    · exact Or.inl ⟨rec, hold, rfl⟩
    · rw [List.mem_singleton.mp hnew, hget]
      exact Or.inr rfl

theorem parse_served {data : Except String DnsMessage}
    (h : parse dc ctx now data dns net = .ok (dns', net')) : Served dc dns dns' :=
  parse_invariant (I := fun dns' _ => Served dc dns dns')
    (fun dns' net ans before => before.trans (parseAnswer_served dns' net ans)) h (.refl dns)

theorem sweepLoop_served (fuel : Nat) (dns : DnsState) (net : Net) :
    Served dc dns (sweepLoop dc ctx now fuel dns net).1 := by
  induction fuel generalizing dns net with
  | zero => exact .refl dns
  | succ fuel ih =>
    rw [sweepLoop]
    split
    next => exact .refl dns
    next rec rest hpop =>
      have hperm := dc.heap.pop_perm hpop
      have hrest : ∀ r ∈ rest, r ∈ dns.heap :=
        fun r hr => hperm.mem_iff.mpr (List.mem_cons_of_mem _ hr)
      split
      next =>
        dsimp only
        split
        next expires _ =>
          have renewed : Served dc dns { dns with
              hash := (dns.hash.remove rec.key).insert rec.key expires
              heap := rest ++ [{ rec with ttlExpire := expires }] } := by
            refine .subset rfl fun r hr => ?_
            obtain hr | hr := List.mem_append.mp hr
            · exact ⟨r, hrest r hr, rfl⟩
            · refine ⟨rec, hperm.mem_iff.mpr List.mem_cons_self, ?_⟩
              rw [List.mem_singleton.mp hr]
              rfl
          exact renewed.trans (ih _ net)
        next =>
          have dropped : Served dc dns
              { dns with hash := dns.hash.remove rec.key, heap := rest } :=
            .subset rfl fun r hr => ⟨r, hrest r hr, rfl⟩
          exact dropped.trans (ih _ _)
      next => exact .refl dns

theorem watchDnsTtl_served (dns : DnsState) (net : Net) :
    Served dc dns (watchDnsTtl dc ctx now dns net).1 :=
  have h : Served dc dns (sweepLoop dc ctx now dns.heap.length dns net).1 := sweepLoop_served _ _ _
  ⟨h.cache, h.records⟩

theorem removeRecords_served (name : Option DnsName) (dest : Option UInt32) (dns : DnsState)
    (net : Net) : Served dc dns (removeRecords ctx name dest dns net).2.1 := by
  have retired : Retired ctx name dest dns.heap _ _ net _ := removeRecords_retired name dest net
  refine .subset retired.cache fun rec hrec => ⟨rec, ?_, rfl⟩
  rw [retired.heap, List.nil_append] at hrec
  exact (List.mem_filter.mp hrec).1

theorem watchDnsRoutes_matched (dns : DnsState) (updateCaches : Bool) (net : Net) :
    (watchDnsRoutes c dc ctx updateCaches dns net).1.Matched dc :=
  fun _ hrec => (List.mem_filter.mp hrec).2

end DnsState

end Rebpf
