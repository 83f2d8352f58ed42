import Rebpf.DnsMirror

namespace Rebpf

open Lib

namespace DnsState

/-- One turn of the loop of `watch_dns_ttl`, with the record whose route it
deletes. `none`: no record is due and the loop ends. -/
def sweepTurn (dc : DnsCrates) (now : Nat) (dns : DnsState) : Option (DnsState × List DnsRecord) :=
  match dc.heap.pop dns.heap with
  | none => none
  | some (rec, rest) =>
    if rec.ttlExpire ≤ now then
      let hash := dns.hash.remove rec.key
      match (dns.hash.lookup rec.key).filter (now < ·) with
      | some expires => some
          ({ dns with
              hash := hash.insert rec.key expires
              heap := rest ++ [{ rec with ttlExpire := expires }] }, [])
      | none => some ({ dns with hash, heap := rest }, [rec])
    else none

/-- The loop, with the records whose routes it deletes. `none`: it has not ended
after so many turns. -/
def sweepTurns (dc : DnsCrates) (now : Nat) : Nat → DnsState → Option (DnsState × List DnsRecord)
  | 0, _ => none
  | fuel + 1, dns =>
    match sweepTurn dc now dns with
    | none => some (dns, [])
    | some (dns, gone) => (sweepTurns dc now fuel dns).map fun left => (left.1, gone ++ left.2)

/-- The heap and the map have the same keys, each once, as far as names compare equal. -/
def Paired (dns : DnsState) : Prop :=
  (dns.heap.map fun rec => foldedKey rec.key).Perm (dns.hash.keys.map foldedKey)

instance (hash : SpelledMap foldedKey Nat) (now : Nat) (rec : DnsRecord) :
    Decidable (Expired hash now rec) :=
  decidable_of_iff (survivor hash now rec = none) survivor_eq_none

/-- What the loop makes of the records: `gone` are the ones it has removed. -/
structure SweptTo (now : Nat) (dns dns' : DnsState) (gone : List DnsRecord) : Prop where
  paired : dns'.Paired
  removed : gone.Perm (dns.heap.filter fun rec => Expired dns.hash now rec)
  heap : dns'.heap.Perm (dns.heap.filterMap (survivor dns.hash now))
  hash : ∀ rec ∈ dns.heap, dns'.hash.lookup rec.key =
    if Expired dns.hash now rec then none else dns.hash.lookup rec.key
  other : ∀ k, (∀ rec ∈ dns.heap, foldedKey rec.key ≠ foldedKey k) →
    dns'.hash.lookup k = dns.hash.lookup k

variable {dc : DnsCrates} {ctx : DnsCtx} {now : Nat} {dns dns' : DnsState} {rec : DnsRecord}
  {rest gone : List DnsRecord}

theorem Keyed.paired (h : dns.Keyed) : dns.Paired := by
  have hkeys := h.map foldedKey
  rwa [List.map_map] at hkeys

theorem Paired.apart (h : dns.Paired) (hperm : dns.heap.Perm (rec :: rest)) :
    ∀ r ∈ rest, foldedKey r.key ≠ foldedKey rec.key := by
  have hkeys := (hperm.map fun rec : DnsRecord => foldedKey rec.key).symm.trans h
  have hnodup := hkeys.nodup_iff.mpr dns.hash.keys_nodup
  rw [List.map_cons, List.nodup_cons] at hnodup
  intro r hr heq
  exact hnodup.1 (List.mem_map.mpr ⟨r, hr, heq⟩)

theorem Paired.remove (h : dns.Paired) (hperm : dns.heap.Perm (rec :: rest)) :
    Paired { dns with hash := dns.hash.remove rec.key, heap := rest } :=
  SpelledMap.keys_remove_norm ((hperm.map fun rec : DnsRecord => foldedKey rec.key).symm.trans h)

theorem Paired.renew (h : dns.Paired) (hperm : dns.heap.Perm (rec :: rest)) (expires : Nat) :
    Paired { dns with
      hash := (dns.hash.remove rec.key).insert rec.key expires
      heap := rest ++ [{ rec with ttlExpire := expires }] } := by
  have hkeys : (rest.map fun rec => foldedKey rec.key).Perm _ := h.remove hperm
  rw [Paired, SpelledMap.keys_insert_none (SpelledMap.lookup_remove_self _ _), List.map_append,
    List.map_append]
  exact hkeys.append (List.Perm.refl _)

theorem survivor_later {hash : SpelledMap foldedKey Nat} {kept : DnsRecord}
    (h : survivor hash now rec = some kept) : now < kept.ttlExpire := by
  unfold survivor at h
  split at h
  next =>
    obtain ⟨expires, hexpires, rfl⟩ := Option.map_eq_some_iff.mp h
    exact of_decide_eq_true (Option.filter_eq_some_iff.mp hexpires).2
  next hlater =>
    cases Option.some.inj h
    exact Nat.not_le.mp hlater

theorem SweptTo.stop (paired : dns.Paired) (later : ∀ rec ∈ dns.heap, now < rec.ttlExpire) :
    SweptTo now dns dns [] := by
  have hkept : ∀ rec ∈ dns.heap, ¬Expired dns.hash now rec :=
    fun rec hrec hexpired => absurd hexpired.1 (Nat.not_le.mpr (later rec hrec))
  refine ⟨paired, ?_, ?_, fun rec hrec => (if_neg (hkept rec hrec)).symm, fun _ _ => rfl⟩
  · have hnil : dns.heap.filter (fun rec => Expired dns.hash now rec) = [] :=
      List.filter_eq_nil_iff.mpr fun rec hrec => by simpa using hkept rec hrec
    rw [hnil]
  · have hkeep : ∀ rec ∈ dns.heap, survivor dns.hash now rec = some rec :=
      fun rec hrec => if_neg (Nat.not_le.mpr (later rec hrec))
    rw [List.filterMap_congr hkeep, List.filterMap_some]

/-- What one turn does with the record it takes out: the record is dropped from
the map and the heap, or both have it again with the expiry of the map. -/
structure Turned (now : Nat) (dns mid : DnsState) (rec : DnsRecord) (rest : List DnsRecord) :
    Prop where
  perm : dns.heap.Perm (rec :: rest)
  due : rec.ttlExpire ≤ now
  heap : mid.heap = rest ++ (survivor dns.hash now rec).toList
  self : mid.hash.lookup rec.key =
    if Expired dns.hash now rec then none else dns.hash.lookup rec.key
  other : ∀ k, foldedKey k ≠ foldedKey rec.key → mid.hash.lookup k = dns.hash.lookup k

theorem sweepTurn_eq_none (h : sweepTurn dc now dns = none) : dc.heap.pop dns.heap = none ∨
    ∃ rec rest, dc.heap.pop dns.heap = some (rec, rest) ∧ now < rec.ttlExpire := by
  unfold sweepTurn at h
  split at h
  next hpop => exact Or.inl hpop
  next rec rest hpop =>
    split at h
    next =>
      dsimp only at h
      split at h
      next => cases h
      next => cases h
    next hlater => exact Or.inr ⟨rec, rest, hpop, Nat.not_le.mp hlater⟩

theorem sweepTurn_eq_some {turn : DnsState × List DnsRecord}
    (h : sweepTurn dc now dns = some turn) : ∃ rec rest,
      dc.heap.pop dns.heap = some (rec, rest) ∧ rec.ttlExpire ≤ now ∧
        ((∃ expires, (dns.hash.lookup rec.key).filter (now < ·) = some expires ∧
            turn = ({ dns with
              hash := (dns.hash.remove rec.key).insert rec.key expires
              heap := rest ++ [{ rec with ttlExpire := expires }] }, [])) ∨
          (dns.hash.lookup rec.key).filter (now < ·) = none ∧
            turn = ({ dns with hash := dns.hash.remove rec.key, heap := rest }, [rec])) := by
  unfold sweepTurn at h
  split at h
  next => cases h
  next rec rest hpop =>
    split at h
    next hdue =>
      refine ⟨rec, rest, hpop, hdue, ?_⟩
      dsimp only at h
      split at h
      next expires hrenew => exact Or.inl ⟨expires, hrenew, (Option.some.inj h).symm⟩
      next hnone => exact Or.inr ⟨hnone, (Option.some.inj h).symm⟩
    next => cases h

theorem sweepTurn_some (paired : dns.Paired) {mid : DnsState}
    (h : sweepTurn dc now dns = some (mid, gone)) :
    mid.Paired ∧ ∃ rec rest, Turned now dns mid rec rest ∧
      gone = if Expired dns.hash now rec then [rec] else [] := by
  obtain ⟨rec, rest, hpop, hdue, hturn⟩ := sweepTurn_eq_some h
  have hperm := dc.heap.pop_perm hpop
  rcases hturn with ⟨expires, hrenew, heq⟩ | ⟨hnone, heq⟩
  · cases heq
    have hsurvivor : survivor dns.hash now rec = some { rec with ttlExpire := expires } := by
      rw [survivor, if_pos hdue, hrenew, Option.map_some]
    have hkept : ¬Expired dns.hash now rec := by
      intro hexpired
      rw [survivor_eq_none.mpr hexpired] at hsurvivor
      cases hsurvivor
    refine ⟨paired.renew hperm expires, rec, rest, ⟨hperm, hdue, ?_, ?_, fun k hk => ?_⟩, ?_⟩
    · rw [hsurvivor]
      rfl
    · rw [if_neg hkept, SpelledMap.lookup_insert_self, (Option.filter_eq_some_iff.mp hrenew).1]
    · rw [SpelledMap.lookup_insert_ne _ hk, SpelledMap.lookup_remove_ne _ hk]
    · rw [if_neg hkept]
  · cases heq
    have hsurvivor : survivor dns.hash now rec = none := by
      rw [survivor, if_pos hdue, hnone, Option.map_none]
    have hexpired := survivor_eq_none.mp hsurvivor
    refine ⟨paired.remove hperm, rec, rest, ⟨hperm, hdue, ?_, ?_, fun k hk => ?_⟩, ?_⟩
    · rw [hsurvivor]
      exact (List.append_nil rest).symm
    · rw [if_pos hexpired, SpelledMap.lookup_remove_self]
    · exact SpelledMap.lookup_remove_ne _ hk
    · rw [if_pos hexpired]

theorem sweepTurn_none (h : sweepTurn dc now dns = none) : ∀ rec ∈ dns.heap, now < rec.ttlExpire := by
  intro r hr
  obtain hpop | ⟨rec, rest, hpop, hlater⟩ := sweepTurn_eq_none h
  · rw [dc.heap.pop_none hpop] at hr
    cases hr
  · exact Nat.lt_of_lt_of_le hlater (dc.heap.pop_least hpop r hr)

theorem Turned.same {mid : DnsState} (turned : Turned now dns mid rec rest) (paired : dns.Paired) :
    ∀ r ∈ rest, mid.hash.lookup r.key = dns.hash.lookup r.key :=
  fun r hr => turned.other r.key (paired.apart turned.perm r hr)

/-- What the loop removes after a turn is what it removed without, less the turn's own. -/
theorem Turned.removed {mid : DnsState} (turned : Turned now dns mid rec rest)
    (paired : dns.Paired) (h : gone.Perm (mid.heap.filter fun r => Expired mid.hash now r)) :
    ((if Expired dns.hash now rec then [rec] else []) ++ gone).Perm
      (dns.heap.filter fun r => Expired dns.hash now r) := by
  have hrest : rest.filter (fun r => Expired mid.hash now r) =
      rest.filter fun r => Expired dns.hash now r :=
    List.filter_congr fun r hr => by simp only [expired_congr (turned.same paired r hr)]
  have hnone : (survivor dns.hash now rec).toList.filter (fun r => Expired mid.hash now r) = [] := by
    refine List.filter_eq_nil_iff.mpr fun r hr hexpired => ?_
    have hlater := survivor_later (Option.mem_toList.mp hr)
    exact Nat.not_le.mpr hlater (of_decide_eq_true hexpired).1
  rw [turned.heap, List.filter_append, hrest, hnone, List.append_nil] at h
  have hstart := turned.perm.filter fun r => Expired dns.hash now r
  rw [List.filter_cons] at hstart
  refine (List.Perm.append_left _ h).trans (List.Perm.trans ?_ hstart.symm)
  by_cases hexpired : Expired dns.hash now rec
  · simp [hexpired]
  · simp [hexpired]

/-- The loop leaves alone what the turn has renewed. -/
theorem Turned.survivors {mid : DnsState} (turned : Turned now dns mid rec rest)
    (paired : dns.Paired) :
    (mid.heap.filterMap (survivor mid.hash now)).Perm
      (dns.heap.filterMap (survivor dns.hash now)) := by
  have hrest : rest.filterMap (survivor mid.hash now) = rest.filterMap (survivor dns.hash now) :=
    List.filterMap_congr fun r hr => survivor_congr (turned.same paired r hr)
  have hkept : (survivor dns.hash now rec).toList.filterMap (survivor mid.hash now) =
      (survivor dns.hash now rec).toList := by
    have hkeep : ∀ r ∈ (survivor dns.hash now rec).toList, survivor mid.hash now r = some r :=
      fun r hr => if_neg (Nat.not_le.mpr (survivor_later (Option.mem_toList.mp hr)))
    rw [List.filterMap_congr hkeep, List.filterMap_some]
  rw [turned.heap, List.filterMap_append, hrest, hkept]
  refine List.Perm.trans ?_ (turned.perm.filterMap (survivor dns.hash now)).symm
  cases hsurvivor : survivor dns.hash now rec with
  | none => simp [hsurvivor]
  | some kept =>
    rw [List.filterMap_cons_some hsurvivor]
    exact List.perm_append_singleton _ _

/-- The record of the turn is not looked at again if it is gone, and stays as it
is if it was renewed. -/
theorem Turned.lookup_self {mid : DnsState} (turned : Turned now dns mid rec rest)
    (paired : dns.Paired) (h : SweptTo now mid dns' gone) : dns'.hash.lookup rec.key =
      if Expired dns.hash now rec then none else dns.hash.lookup rec.key := by
  by_cases hexpired : Expired dns.hash now rec
  · have hnot : ∀ r ∈ mid.heap, foldedKey r.key ≠ foldedKey rec.key := by
      intro r hr
      rw [turned.heap, survivor_eq_none.mpr hexpired, Option.toList_none, List.append_nil] at hr
      exact paired.apart turned.perm r hr
    rw [h.other rec.key hnot, turned.self]
  · obtain ⟨kept, hkept⟩ := Option.ne_none_iff_exists'.mp (mt survivor_eq_none.mp hexpired)
    have hmem : kept ∈ mid.heap := by
      rw [turned.heap, hkept]
      exact List.mem_append_right _ (List.mem_singleton_self kept)
    have hnot : ¬Expired mid.hash now kept :=
      fun hexpired' => Nat.not_le.mpr (survivor_later hkept) hexpired'.1
    have hlookup := h.hash kept hmem
    rwa [if_neg hnot, survivor_key hkept, turned.self] at hlookup

theorem Turned.lookup_rest {mid : DnsState} (turned : Turned now dns mid rec rest)
    (paired : dns.Paired) (h : SweptTo now mid dns' gone) : ∀ r ∈ rest, dns'.hash.lookup r.key =
      if Expired dns.hash now r then none else dns.hash.lookup r.key := by
  intro r hr
  have hmem : r ∈ mid.heap := by
    rw [turned.heap]
    exact List.mem_append_left _ hr
  have hsame := turned.same paired r hr
  have hlookup := h.hash r hmem
  rw [hsame] at hlookup
  by_cases hexpired : Expired dns.hash now r
  · rw [if_pos ((expired_congr hsame).mpr hexpired)] at hlookup
    rw [hlookup, if_pos hexpired]
  · rw [if_neg (mt (expired_congr hsame).mp hexpired)] at hlookup
    rw [hlookup, if_neg hexpired]

/-- A turn and then the rest of the loop. -/
theorem Turned.swept {mid : DnsState} (turned : Turned now dns mid rec rest) (paired : dns.Paired)
    (h : SweptTo now mid dns' gone) :
    SweptTo now dns dns' ((if Expired dns.hash now rec then [rec] else []) ++ gone) := by
  constructor
  · exact h.paired
  · exact turned.removed paired h.removed
  · exact h.heap.trans (turned.survivors paired)
  · intro r hr
    rcases List.mem_cons.mp (turned.perm.mem_iff.mp hr) with rfl | hr
    · exact turned.lookup_self paired h
    · exact turned.lookup_rest paired h r hr
  · intro k hk
    have hrec := hk rec (turned.perm.mem_iff.mpr List.mem_cons_self)
    rw [h.other k, turned.other k (Ne.symm hrec)]
    intro r hr
    rw [turned.heap] at hr
    rcases List.mem_append.mp hr with hr | hr
    · exact hk r (turned.perm.mem_iff.mpr (List.mem_cons_of_mem _ hr))
    · rw [survivor_key (Option.mem_toList.mp hr)]
      exact hrec

/-- The records that are due get fewer with each turn. -/
theorem Turned.fewer {mid : DnsState} (turned : Turned now dns mid rec rest) :
    mid.heap.countP (·.ttlExpire ≤ now) < dns.heap.countP (·.ttlExpire ≤ now) := by
  have hback : (survivor dns.hash now rec).toList.countP (·.ttlExpire ≤ now) = 0 := by
    refine List.countP_eq_zero.mpr fun r hr hdue => ?_
    exact Nat.not_le.mpr (survivor_later (Option.mem_toList.mp hr)) (of_decide_eq_true hdue)
  have hcons : (rec :: rest).countP (·.ttlExpire ≤ now) = rest.countP (·.ttlExpire ≤ now) + 1 :=
    List.countP_cons_of_pos (decide_eq_true turned.due)
  rw [turned.heap, List.countP_append, hback, turned.perm.countP_eq, hcons]
  omega

/-- With a turn for each record that is due, and one to find that none is left, the loop ends. -/
theorem sweepTurns_ends {fuel : Nat} (paired : dns.Paired)
    (enough : dns.heap.countP (·.ttlExpire ≤ now) < fuel) :
    ∃ dns' gone, sweepTurns dc now fuel dns = some (dns', gone) ∧ SweptTo now dns dns' gone := by
  induction fuel generalizing dns with
  | zero => omega
  | succ fuel ih =>
    rw [sweepTurns]
    cases hturn : sweepTurn dc now dns with
    | none => exact ⟨dns, [], rfl, SweptTo.stop paired (sweepTurn_none hturn)⟩
    | some turn =>
      obtain ⟨hpaired, rec, rest, turned, hgone⟩ := sweepTurn_some paired hturn
      have hfewer := turned.fewer
      obtain ⟨dns', gone, hloop, hswept⟩ := ih hpaired (by omega)
      refine ⟨dns', turn.2 ++ gone, ?_, ?_⟩
      · dsimp only
        rw [hloop]
        rfl
      · rw [hgone]
        exact turned.swept paired hswept

/-- More turns than the loop takes change nothing. -/
theorem sweepTurns_more {fuel fuel' : Nat} (hle : fuel ≤ fuel')
    (h : sweepTurns dc now fuel dns = some (dns', gone)) :
    sweepTurns dc now fuel' dns = some (dns', gone) := by
  induction fuel generalizing dns gone fuel' with
  | zero => cases h
  | succ fuel ih =>
    cases fuel' with
    | zero => omega
    | succ fuel' =>
      rw [sweepTurns] at h ⊢
      cases hturn : sweepTurn dc now dns with
      | none =>
        rw [hturn] at h
        exact h
      | some turn =>
        rw [hturn] at h
        obtain ⟨left, hleft, heq⟩ := Option.map_eq_some_iff.mp h
        obtain ⟨rfl, rfl⟩ := Prod.mk.inj heq
        dsimp only
        rw [ih (by omega) hleft]
        rfl

theorem sweepLoop_stop {fuel : Nat} (h : sweepTurn dc now dns = none) (net : Net) :
    sweepLoop dc ctx now fuel dns net = (dns, net) := by
  cases fuel with
  | zero => rfl
  | succ fuel =>
    rw [sweepLoop]
    obtain hpop | ⟨rec, rest, hpop, hlater⟩ := sweepTurn_eq_none h
    · rw [hpop]
    · simp only [hpop, if_neg (Nat.not_le.mpr hlater)]

theorem sweepLoop_turn {fuel : Nat} {turn : DnsState × List DnsRecord}
    (h : sweepTurn dc now dns = some turn) (net : Net) :
    sweepLoop dc ctx now (fuel + 1) dns net =
      sweepLoop dc ctx now fuel turn.1 (turn.2.foldl (removeRecord ctx) net) := by
  rw [sweepLoop]
  obtain ⟨rec, rest, hpop, hdue, ⟨expires, hrenew, rfl⟩ | ⟨hnone, rfl⟩⟩ := sweepTurn_eq_some h
  · simp only [hpop, if_pos hdue, hrenew]
    rfl
  · simp only [hpop, if_pos hdue, hnone]
    rfl

/-- The loop of `watch_dns_ttl` needs no turn to find that it has ended. It ends in the
same state, and the routes of the records that are gone are deleted. -/
theorem sweepLoop_eq {fuel : Nat} (h : sweepTurns dc now (fuel + 1) dns = some (dns', gone))
    (net : Net) :
    sweepLoop dc ctx now fuel dns net = (dns', gone.foldl (removeRecord ctx) net) := by
  induction fuel generalizing dns gone net with
  | zero =>
    rw [sweepTurns] at h
    cases hturn : sweepTurn dc now dns with
    | none =>
      rw [hturn] at h
      cases Option.some.inj h
      rfl
    | some turn =>
      rw [hturn] at h
      cases h
  | succ fuel ih =>
    rw [sweepTurns] at h
    cases hturn : sweepTurn dc now dns with
    | none =>
      rw [hturn] at h
      cases Option.some.inj h
      exact sweepLoop_stop hturn net
    | some turn =>
      rw [hturn] at h
      obtain ⟨left, hleft, heq⟩ := Option.map_eq_some_iff.mp h
      obtain ⟨rfl, rfl⟩ := Prod.mk.inj heq
      rw [sweepLoop_turn hturn, ih hleft, List.foldl_append]

/-- What `watch_dns_ttl` leaves, whatever the queue does with records due at the same time. -/
theorem watchDnsTtl_eq (paired : dns.Paired) : ∃ dns' gone,
    sweepTurns dc now (dns.heap.length + 1) dns = some (dns', gone) ∧
      SweptTo now dns dns' gone ∧ ∀ net, watchDnsTtl dc ctx now dns net =
        ({ dns' with ttlSleeper := (dc.heap.peek dns'.heap).map (·.ttlExpire) },
          gone.foldl (removeRecord ctx) net) := by
  have henough : dns.heap.countP (·.ttlExpire ≤ now) < dns.heap.length + 1 :=
    Nat.lt_succ_of_le List.countP_le_length
  obtain ⟨dns', gone, hturns, hswept⟩ := sweepTurns_ends paired henough
  refine ⟨dns', gone, hturns, hswept, fun net => ?_⟩
  rw [watchDnsTtl, sweepLoop_eq hturns]

/-- A record left by the loop is due later; it was there before, or is one that
was due with the expiry the map has for it. -/
theorem SweptTo.left (h : SweptTo now dns dns' gone) :
    ∀ rec ∈ dns'.heap, now < rec.ttlExpire ∧ ∃ old ∈ dns.heap, ¬Expired dns.hash now old ∧
      if now < old.ttlExpire then rec = old
      else rec = { old with ttlExpire := rec.ttlExpire } ∧
        dns'.hash.lookup rec.key = some rec.ttlExpire := by
  intro rec hrec
  obtain ⟨old, hold, hsurvivor⟩ := List.mem_filterMap.mp (h.heap.mem_iff.mp hrec)
  have hkept : ¬Expired dns.hash now old := by
    intro hexpired
    rw [survivor_eq_none.mpr hexpired] at hsurvivor
    cases hsurvivor
  refine ⟨survivor_later hsurvivor, old, hold, hkept, ?_⟩
  have hlookup := h.hash old hold
  rw [if_neg hkept] at hlookup
  unfold survivor at hsurvivor
  split at hsurvivor
  next hdue =>
    obtain ⟨expires, hexpires, rfl⟩ := Option.map_eq_some_iff.mp hsurvivor
    rw [if_neg (Nat.not_lt.mpr hdue)]
    exact ⟨rfl, hlookup.trans (Option.filter_eq_some_iff.mp hexpires).1⟩
  next hlater =>
    rw [if_pos (Nat.not_le.mp hlater)]
    exact (Option.some.inj hsurvivor).symm

theorem survivors_key (hash : SpelledMap foldedKey Nat) (recs : List DnsRecord) :
    (recs.filterMap (survivor hash now)).map DnsRecord.key =
      (recs.filter fun rec => ¬Expired hash now rec).map DnsRecord.key := by
  induction recs with
  | nil => rfl
  | cons rec recs ih =>
    cases hsurvivor : survivor hash now rec with
    | none =>
      have hexpired : Expired hash now rec := survivor_eq_none.mp hsurvivor
      rw [List.filterMap_cons_none hsurvivor, ih, List.filter_cons_of_neg (by simpa using hexpired)]
    | some kept =>
      have hkept : ¬Expired hash now rec := by
        intro hexpired
        rw [survivor_eq_none.mpr hexpired] at hsurvivor
        cases hsurvivor
      rw [List.filterMap_cons_some hsurvivor, List.map_cons, ih,
        List.filter_cons_of_pos (by simpa using hkept), List.map_cons, survivor_key hsurvivor]

theorem foldl_delRoute (table : UInt32) (dsts : List Ipv4Net) (net : Net) :
    dsts.foldl (Net.delRoute · table ·) net =
      { net with
        routes := net.routes.filter fun r => decide ¬(r.table = table ∧ r.dst ∈ dsts) } := by
  induction dsts generalizing net with
  | nil => simp
  | cons dst dsts ih =>
    rw [List.foldl_cons, ih, Net.delRoute]
    dsimp only
    rw [List.filter_filter]
    congr 2
    funext r
    rw [Bool.eq_iff_iff]
    simp only [Bool.and_eq_true, Bool.not_eq_true', Bool.and_eq_false_iff, beq_eq_false_iff_ne,
      decide_eq_true_iff, List.mem_cons]
    tauto

/-- The loop ends. It removes the records that are due in the heap and in the map
and deletes the route of each once, and no other route; the other records it keeps, all
due later. -/
theorem sweepTurns_ttl (paired : dns.Paired) : ∃ dns' gone,
    (∀ fuel, dns.heap.length < fuel → sweepTurns dc now fuel dns = some (dns', gone)) ∧
    (∀ net, watchDnsTtl dc ctx now dns net =
      ({ dns' with ttlSleeper := (dc.heap.peek dns'.heap).map (·.ttlExpire) },
        (gone.map DnsRecord.net).foldl (Net.delRoute · ctx.dnsTable ·) net)) ∧
    (∀ net, (watchDnsTtl dc ctx now dns net).2 = { net with
      routes := net.routes.filter fun r => decide ¬(r.table = ctx.dnsTable ∧
        ∃ rec ∈ dns.heap, Expired dns.hash now rec ∧ rec.net = r.dst) }) ∧
    gone.Perm (dns.heap.filter fun rec => Expired dns.hash now rec) ∧
    (dns'.heap.map DnsRecord.key).Perm
      ((dns.heap.filter fun rec => ¬Expired dns.hash now rec).map DnsRecord.key) ∧
    dns'.Paired ∧
    (∀ rec ∈ dns.heap, dns'.hash.lookup rec.key =
      if Expired dns.hash now rec then none else dns.hash.lookup rec.key) ∧
    ∀ rec ∈ dns'.heap, now < rec.ttlExpire ∧ ∃ old ∈ dns.heap, ¬Expired dns.hash now old ∧
      if now < old.ttlExpire then rec = old
      else rec = { old with ttlExpire := rec.ttlExpire } ∧
        dns'.hash.lookup rec.key = some rec.ttlExpire := by
  obtain ⟨dns', gone, hturns, hswept, hwatch⟩ := watchDnsTtl_eq paired
  have hdeleted : ∀ net, gone.foldl (removeRecord ctx) net =
      (gone.map DnsRecord.net).foldl (Net.delRoute · ctx.dnsTable ·) net := by
    intro net
    rw [List.foldl_map]
    rfl
  refine ⟨dns', gone, fun fuel hfuel => sweepTurns_more hfuel hturns, fun net => ?_, fun net => ?_,
    hswept.removed, ?_, hswept.paired, hswept.hash, hswept.left⟩
  · rw [hwatch, hdeleted]
  · have hdsts : ∀ d, d ∈ gone.map DnsRecord.net ↔
        ∃ rec ∈ dns.heap, Expired dns.hash now rec ∧ rec.net = d := by
      intro d
      simp only [List.mem_map, hswept.removed.mem_iff, List.mem_filter, decide_eq_true_iff,
        and_assoc]
    rw [hwatch, hdeleted, foldl_delRoute]
    simp only [hdsts]
  · rw [← survivors_key]
    exact hswept.heap.map DnsRecord.key

/-- Two records that are due at 10, of which the map has renewed one until 100. -/
def dueDns : DnsState where
  ttlSleeper := some 10
  heap := [⟨10, 1, ⟨[[97]], true⟩⟩, ⟨10, 2, ⟨[[65]], true⟩⟩]
  hash := ((SpelledMap.empty foldedKey Nat).insert (⟨[[97]], true⟩, 1) 10).insert
    (⟨[[97]], true⟩, 2) 100
  cache := ⟨none⟩

/-- Routes to both, and one of another table. -/
def dueNet : Net where
  rules := []
  routes := [⟨anyDns.ctx.dnsTable, ⟨1, 32⟩, 2, none, none⟩,
    ⟨anyDns.ctx.dnsTable, ⟨2, 32⟩, 2, none, none⟩, ⟨rtTableMain, ⟨1, 32⟩, 2, none, none⟩]
  nat := []

theorem sweepTurns_ttl_due : ∃ dns' gone,
    sweepTurns sampleDnsCrates 50 3 dueDns = some (dns', gone) ∧
      gone.Perm (dueDns.heap.filter fun rec => Expired dueDns.hash 50 rec) ∧
      (watchDnsTtl sampleDnsCrates anyDns.ctx 50 dueDns dueNet).2.routes = dueNet.routes.tail := by
  have paired : dueDns.Paired := by
    unfold Paired
    decide
  obtain ⟨dns', gone, hturns, _, hroutes, hgone, _⟩ :=
    @sweepTurns_ttl sampleDnsCrates anyDns.ctx 50 dueDns paired
  refine ⟨dns', gone, hturns 3 (by decide), hgone, ?_⟩
  rw [hroutes]
  decide

example : (dueDns.heap.filter fun rec => Expired dueDns.hash 50 rec) =
    [⟨10, 1, ⟨[[97]], true⟩⟩] := by decide

end DnsState

end Rebpf
