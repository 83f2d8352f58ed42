import Rebpf.DnsMirror
import Rebpf.Fields

namespace Rebpf

open Lib DnsState

namespace DnsState

/-- The map `get_dns_records` makes of a record. -/
def recordFields (dc : DnsCrates) (now : Nat) (dns : DnsState) (rec : DnsRecord) : Fields :=
  [("ttl", toString ((rec.ttlExpire - now) / 1000000000)),
    ("name", dc.nameToString rec.name),
    ("address", ipv4ToString rec.dest)] ++
  match dns.cache.get dc rec.name with
  | some (dir, patId) => [("direction", dir.name), ("match-id", toString patId)]
  | none => []

/-- `fromStrRelaxed` is the parser of names. -/
def retireDnsRecord (fromStrRelaxed : String → Except String DnsName) (ctx : DnsCtx)
    (record : Fields) (dns : DnsState) (net : Net) : Except String Unit × DnsState × Net :=
  let parsed : Except String (Option UInt32 × Option DnsName) := do
    let dest ← (record.lookup "destination").mapM fun ip =>
      orErr (parseIpv4Addr ip) "invalid IPv4 address syntax"
    let name ← (record.lookup "name").mapM fromStrRelaxed
    return (dest, name.map (·.setFqdn true))
  match parsed with
  | .error err => (.error err, dns, net)
  | .ok (dest, name) =>
    let (found, dns, net) := removeRecords ctx name dest dns net
    (ensure found "Didn't match any active records", dns, net)

/-- The printed name is read as an equal one. -/
def ReadsBack (dc : DnsCrates) (fromStrRelaxed : String → Except String DnsName)
    (name : DnsName) : Prop :=
  ∃ name', fromStrRelaxed (dc.nameToString name) = .ok name' ∧ name'.folded = name.folded

/-- The call has succeeded, and the record is gone from the heap and the map and nothing else is. -/
structure RetiredAlone (rec : DnsRecord) (dns : DnsState)
    (result : Except String Unit × DnsState × Net) : Prop where
  ok : result.1 = .ok ()
  heap : dns.heap.Perm (rec :: result.2.1.heap)
  gone : result.2.1.hash.lookup rec.key = none
  kept : ∀ k, foldedKey k ≠ foldedKey rec.key → result.2.1.hash.lookup k = dns.hash.lookup k

variable {dc : DnsCrates} {ctx : DnsCtx} {now : Nat} {dns : DnsState} {net : Net} {rec : DnsRecord}

theorem removeStep_found {name : Option DnsName} {dest : Option UInt32} (recs : List DnsRecord)
    (found : Bool) (dns : DnsState) (net : Net) :
    (recs.foldl (removeStep ctx name dest) (found, dns, net)).1 =
      (found || recs.any (picks name dest)) := by
  induction recs generalizing found dns net with
  | nil => simp
  | cons rec recs ih =>
    rw [List.foldl_cons, removeStep]
    by_cases hpick : picks name dest rec = true
    · rw [if_pos hpick, ih]
      simp [hpick]
    · rw [if_neg hpick, ih]
      simp [hpick]

theorem removeRecords_found {name : Option DnsName} {dest : Option UInt32} (dns : DnsState)
    (net : Net) :
    (removeRecords ctx name dest dns net).1 = dns.heap.any (picks name dest) := by
  rw [removeRecords, removeStep_found, Bool.false_or]

theorem folded_setFqdn (name : DnsName) : (name.setFqdn true).folded = (true, name.folded.2) := rfl

/-- No key of the map names the address, so every record of the name is retired. -/
theorem retireDnsRecord_eq {fromStrRelaxed : String → Except String DnsName}
    (reads : ReadsBack dc fromStrRelaxed rec.name) (dns : DnsState) (net : Net) :
    ∃ name, name.folded = (true, rec.name.folded.2) ∧
      retireDnsRecord fromStrRelaxed ctx (recordFields dc now dns rec) dns net =
        (ensure (dns.heap.any (picks (some name) none)) "Didn't match any active records",
          (removeRecords ctx (some name) none dns net).2) := by
  obtain ⟨name, hread, hfolded⟩ := reads
  refine ⟨name.setFqdn true, by rw [folded_setFqdn, hfolded], ?_⟩
  have hdest : (recordFields dc now dns rec).lookup "destination" = none := by
    unfold recordFields
    cases dns.cache.get dc rec.name <;> rfl
  have hname : (recordFields dc now dns rec).lookup "name" = some (dc.nameToString rec.name) := by
    unfold recordFields
    cases dns.cache.get dc rec.name <;> rfl
  have hsome : (some (dc.nameToString rec.name)).mapM fromStrRelaxed = .ok (some name) := by
    rw [Option.mapM_some, hread]
    rfl
  rw [← @removeRecords_found ctx _ _ dns net]
  unfold retireDnsRecord
  rw [hdest, hname, hsome]
  rfl

theorem picks_name {name : DnsName} {r : DnsRecord} :
    picks (some name) none r = decide (name.folded = r.name.folded) := by
  simp [picks, beq_eq_decide]

theorem perm_cons_filter {heap : List DnsRecord} (unique : heap.Nodup) (hrec : rec ∈ heap)
    {test : DnsRecord → Bool} (alone : ∀ r ∈ heap, test r = true ↔ r ≠ rec) :
    heap.Perm (rec :: heap.filter test) := by
  have hfilter : heap.filter test = heap.erase rec := by
    rw [unique.erase_eq_filter]
    exact List.filter_congr fun r hr => Bool.eq_iff_iff.mpr ((alone r hr).trans bne_iff_ne.symm)
  rw [hfilter]
  exact List.perm_cons_erase hrec

/-- A listed record can be retired alone exactly if its name is fully qualified and
no other record has an equal one. -/
theorem retireDnsRecord_alone_iff {fromStrRelaxed : String → Except String DnsName}
    (reads : ReadsBack dc fromStrRelaxed rec.name)
    (unique : (dns.heap.map fun r => foldedKey r.key).Nodup) (hrec : rec ∈ dns.heap)
    (net : Net) :
    RetiredAlone rec dns
        (retireDnsRecord fromStrRelaxed ctx (recordFields dc now dns rec) dns net) ↔
      rec.name.isFqdn = true ∧
        ∀ other ∈ dns.heap, other.name.folded = rec.name.folded → other = rec := by
  obtain ⟨name, hname, heq⟩ := @retireDnsRecord_eq dc ctx now rec _ reads dns net
  have retired : Retired ctx (some name) none dns.heap _ _ net _ := removeRecords_retired _ _ net
  have hheap := retired.heap
  rw [List.nil_append] at hheap
  have hpicks : ∀ r, picks (some name) none r = true ↔ name.folded = r.name.folded :=
    fun r => by rw [picks_name, decide_eq_true_iff]
  rw [heq]
  constructor
  · intro h
    have hperm : dns.heap.Perm (rec :: (removeRecords ctx (some name) none dns net).2.1.heap) :=
      h.heap
    rw [hheap] at hperm
    have hgone : ∀ r ∈ dns.heap, picks (some name) none r = true → r = rec := by
      intro r hr hpick
      rcases List.mem_cons.mp (hperm.mem_iff.mp hr) with hsame | hkept
      · exact hsame
      · rw [List.mem_filter, hpick] at hkept
        exact absurd hkept.2 Bool.false_ne_true
    have hnot : rec ∉ dns.heap.filter (!picks (some name) none ·) :=
      (List.nodup_cons.mp (hperm.nodup_iff.mp unique.of_map)).1
    have hsame : name.folded = rec.name.folded := by
      rw [← hpicks]
      by_contra hpick
      exact hnot (List.mem_filter.mpr ⟨hrec, by simpa using hpick⟩)
    refine ⟨?_, fun other hother hname' => hgone other hother ?_⟩
    · exact (congrArg Prod.fst (hname.symm.trans hsame)).symm
    · rw [hpicks, hname', hsame]
  · rintro ⟨hfqdn, halone⟩
    have hsame : name.folded = rec.name.folded := by
      rw [hname]
      exact Prod.ext hfqdn.symm rfl
    have hpick : ∀ r ∈ dns.heap, picks (some name) none r = true ↔ r = rec := by
      intro r hr
      rw [hpicks, hsame]
      exact ⟨fun h => halone r hr h.symm, fun h => by rw [h]⟩
    refine ⟨?_, ?_, ?_, fun k hk => ?_⟩
    · exact ensure_eq_ok.mpr (List.any_eq_true.mpr ⟨rec, hrec, (hpick rec hrec).mpr rfl⟩)
    · show dns.heap.Perm (rec :: (removeRecords ctx (some name) none dns net).2.1.heap)
      rw [hheap]
      refine perm_cons_filter unique.of_map hrec fun r hr => ?_
      rw [Bool.not_eq_true', ← Bool.not_eq_true, hpick r hr]
    · refine (removeStep_lookup dns.heap false _ net rec.key).trans (if_pos ?_)
      refine List.any_eq_true.mpr ⟨rec, hrec, ?_⟩
      rw [(hpick rec hrec).mpr rfl, Bool.true_and]
      exact decide_eq_true rfl
    · refine (removeStep_lookup dns.heap false _ net k).trans (if_neg fun hany => hk ?_)
      obtain ⟨r, hr, htest⟩ := List.any_eq_true.mp hany
      obtain ⟨hr', hkey⟩ := (Bool.and_eq_true _ _).mp htest
      rw [← (hpick r hr).mp hr']
      exact of_decide_eq_true hkey

def FullyQualified (dns : DnsState) : Prop := ∀ rec ∈ dns.heap, rec.name.isFqdn = true

theorem parseAnswer_fullyQualified (h : dns.FullyQualified) (net : Net) (ans : DnsAnswer) :
    (parseAnswer dc ctx now (dns, net) ans).1.FullyQualified := by
  cases hdata : ans.data with
  | other =>
    simp only [parseAnswer, hdata]
    exact h
  | a dest =>
    simp only [parseAnswer, hdata]
    split
    next => exact h
    next =>
      split
      next => exact h
      next =>
        intro rec hrec
        rcases List.mem_append.mp hrec with hrec | hrec
        · exact h rec hrec
        · rw [List.mem_singleton.mp hrec]
          rfl

end DnsState

namespace Dns

variable {c : Crates} {dc : DnsCrates} {s t : Dns}

theorem fullyQualified_step {event : DnsEvent} (h : s.dns.Keyed ∧ s.dns.FullyQualified)
    (step : s.step c dc event = some t) : t.dns.Keyed ∧ t.dns.FullyQualified := by
  obtain ⟨keyed, qualified⟩ := h
  cases event with
  | answers now data =>
    simp only [Dns.step] at step
    split at step
    next hparse =>
      cases Option.some.inj step
      exact parse_invariant (I := fun dns _ => dns.Keyed ∧ dns.FullyQualified)
        (fun dns net ans before => ⟨parseAnswer_keyed before.1 net ans,
          parseAnswer_fullyQualified before.2 net ans⟩) hparse ⟨keyed, qualified⟩
    next =>
      cases Option.some.inj step
      exact ⟨keyed, qualified⟩
  | sweep now =>
    have swept : TtlSwept dc s.ctx now s.dns _ s.net _ := watchDnsTtl_swept keyed s.net
    cases Option.some.inj step
    refine ⟨swept.keyed, fun kept hkept => ?_⟩
    obtain ⟨rec, hrec, hsurvivor⟩ := List.mem_filterMap.mp (swept.heap.mem_iff.mp hkept)
    have hname : kept.name = rec.name := congrArg Prod.fst (survivor_key hsurvivor)
    rw [hname]
    exact qualified rec hrec
  | retire name dest =>
    have retired : Retired s.ctx name dest s.dns.heap _ _ s.net _ := removeRecords_retired _ _ _
    cases Option.some.inj step
    refine ⟨retired.keyed keyed, fun rec hrec => ?_⟩
    have hrec : rec ∈ (removeRecords s.ctx name dest s.dns s.net).2.1.heap := hrec
    rw [retired.heap, List.nil_append] at hrec
    exact qualified rec (List.mem_filter.mp hrec).1
  | rebuild updateCaches =>
    have hkeyed : (watchDnsRoutes c dc s.ctx updateCaches s.dns s.net).1.Keyed :=
      watchDnsRoutes_keyed keyed updateCaches s.net
    cases Option.some.inj step
    exact ⟨hkeyed, fun rec hrec => qualified rec (List.mem_filter.mp hrec).1⟩
  | _ =>
    cases Option.some.inj step
    exact ⟨keyed, qualified⟩

/-- In every state reached the names are fully qualified, and no two records have
equal names and the same address. -/
theorem run_fullyQualified {s₀ : Dns} (fresh : s₀.dns = .init) {ok : Dns → DnsEvent → Prop}
    {events : List DnsEvent} (run : Run (Dns.step c dc) ok s₀ events s) :
    s.dns.FullyQualified ∧ (s.dns.heap.map fun r => foldedKey r.key).Nodup := by
  have start : s₀.dns.Keyed ∧ s₀.dns.FullyQualified := by
    rw [fresh]
    exact ⟨List.Perm.nil, nofun⟩
  obtain ⟨keyed, qualified⟩ :=
    run.invariant (I := fun s => s.dns.Keyed ∧ s.dns.FullyQualified)
      (fun _ _ _ h _ step => fullyQualified_step h step) start
  refine ⟨qualified, ?_⟩
  have hkeys := (List.Perm.map foldedKey keyed).nodup_iff.mpr s.dns.hash.keys_nodup
  rw [List.map_map] at hkeys
  exact hkeys

end Dns

/-- A parser for names without escapes. -/
def sampleFromStrRelaxed (text : String) : Except String DnsName :=
  let labels := (text.toList.splitOn '.').map (·.map fun ch => UInt8.ofNat ch.toNat)
  .ok ⟨labels.filter (· ≠ []), text.toList.getLast? = some '.'⟩

def dnsOf (heap : List DnsRecord) : DnsState :=
  { DnsState.init with
    heap
    hash := heap.foldl (fun hash rec => hash.insert rec.key rec.ttlExpire) (.empty foldedKey Nat) }

/-- A record of 60 seconds for 10.0.0.`host`. -/
def hostRecord (label : List UInt8) (host : UInt8) : DnsRecord :=
  ⟨fromSecs 60, ipv4Addr 10 0 0 host, ⟨[label], true⟩⟩

theorem hostRecord_readsBack :
    ReadsBack sampleDnsCrates sampleFromStrRelaxed (hostRecord [97] 1).name :=
  ⟨⟨[[97]], true⟩, rfl, rfl⟩

/-- Another name with the same address is no hindrance. -/
theorem retireDnsRecord_alone_hostRecord :
    RetiredAlone (hostRecord [97] 1) (dnsOf [hostRecord [97] 1, hostRecord [98] 1])
      (retireDnsRecord sampleFromStrRelaxed anyDns.ctx
        (recordFields sampleDnsCrates 0 (dnsOf [hostRecord [97] 1, hostRecord [98] 1])
          (hostRecord [97] 1)) (dnsOf [hostRecord [97] 1, hostRecord [98] 1]) anyDns.net) := by
  refine (retireDnsRecord_alone_iff hostRecord_readsBack (by decide +kernel) List.mem_cons_self
    anyDns.net).mpr ⟨rfl, ?_⟩
  decide +kernel

/-- A name with two addresses loses both. -/
theorem retireDnsRecord_not_alone :
    ¬∀ {dc : DnsCrates} {fromStrRelaxed : String → Except String DnsName} {ctx : DnsCtx}
      {now : Nat} {dns : DnsState} {net : Net}, dns.FullyQualified →
      (∀ rec ∈ dns.heap, ReadsBack dc fromStrRelaxed rec.name) →
      (dns.heap.map fun r => foldedKey r.key).Nodup → ∀ rec ∈ dns.heap,
      RetiredAlone rec dns
        (retireDnsRecord fromStrRelaxed ctx (recordFields dc now dns rec) dns net) := by
  intro h
  have alone := @h sampleDnsCrates sampleFromStrRelaxed anyDns.ctx 0
    (dnsOf [hostRecord [97] 1, hostRecord [97] 2]) anyDns.net ?_ ?_ (by decide +kernel)
    (hostRecord [97] 1) List.mem_cons_self
  · have hlength := alone.heap.length_eq
    exact absurd hlength (by decide +kernel)
  · unfold FullyQualified
    decide +kernel
  · intro rec hrec
    rcases List.mem_cons.mp hrec with rfl | hrec
    · exact hostRecord_readsBack
    · cases List.mem_singleton.mp hrec
      exact hostRecord_readsBack

end Rebpf
