import Rebpf.Deletable
import Rebpf.DnsMirror

namespace Rebpf

open Lib

/-- Whether a pattern, as it is handed to the DFA builder, accepts a printed name. -/
abbrev AcceptsName := String → String → Bool

/-- An anchored forward search reports the lowest-numbered pattern that accepts the text. -/
def DnsCrates.SearchesFirst (dc : DnsCrates) (c : Crates) (accepts : AcceptsName) : Prop :=
  ∀ pats d text, buildDfa c pats false = .ok d →
    dc.trySearchFwd d text = pats.findIdx? (accepts · text)

/-- The four vectors `build_dns_dfa` fills. -/
structure DnsSets where
  redir : List String
  redirMap : List Nat
  bypass : List String
  bypassMap : List Nat

namespace DnsSets

/-- The body of the loop over the entries. -/
def push (c : Crates) (self : DnsSets) (r : Match × Nat) : DnsSets :=
  match dnsPattern c r.1 with
  | none => self
  | some pat =>
    match r.1.direction with
    | .redirect => { self with redir := self.redir ++ [pat], redirMap := self.redirMap ++ [r.2] }
    | .bypass => { self with bypass := self.bypass ++ [pat], bypassMap := self.bypassMap ++ [r.2] }

def fill (c : Crates) (ms : List Match) : DnsSets := ms.zipIdx.foldl (push c) ⟨[], [], [], []⟩

end DnsSets

section

variable {c : Crates}

/-- The pattern of an entry, if it is one of the direction. -/
def patternFor (c : Crates) (direction : Direction) (m : Match) : Option String :=
  if m.direction = direction then dnsPattern c m else none

theorem foldl_push (rs : List (Match × Nat)) (sets : DnsSets) :
    rs.foldl (DnsSets.push c) sets =
      ⟨sets.redir ++ (numbered (patternFor c .redirect) rs).map (·.1),
        sets.redirMap ++ (numbered (patternFor c .redirect) rs).map (·.2),
        sets.bypass ++ (numbered (patternFor c .bypass) rs).map (·.1),
        sets.bypassMap ++ (numbered (patternFor c .bypass) rs).map (·.2)⟩ := by
  induction rs generalizing sets with
  | nil => simp [numbered]
  | cons r rs ih =>
    rw [List.foldl_cons, ih]
    unfold DnsSets.push numbered patternFor
    cases hpat : dnsPattern c r.1 with
    | none => simp [hpat]
    | some pat =>
      cases hdir : r.1.direction with
      | redirect => simp [hpat, hdir]
      | bypass => simp [hpat, hdir]

theorem dnsPatterns_numbered (ms : List Match) (direction : Direction) :
    dnsPatterns c ms direction = numbered (patternFor c direction) ms.zipIdx :=
  dnsPatterns_eq ms direction

/-- The loop leaves, for each direction, the patterns of its entries and their ids. -/
theorem fill_eq (ms : List Match) :
    DnsSets.fill c ms =
      ⟨(dnsPatterns c ms .redirect).map (·.1), (dnsPatterns c ms .redirect).map (·.2),
        (dnsPatterns c ms .bypass).map (·.1), (dnsPatterns c ms .bypass).map (·.2)⟩ := by
  rw [DnsSets.fill, foldl_push]
  simp only [dnsPatterns_numbered, List.nil_append]

theorem buildDnsDfa_fill (ms : Matches) :
    ms.buildDnsDfa c = do
      let sets := DnsSets.fill c ms.entries
      let redir ← buildDfa c sets.redir false
      let bypass ← buildDfa c sets.bypass false
      return ⟨redir, sets.redirMap, bypass, sets.bypassMap⟩ := by
  rw [fill_eq]
  rfl

end

/-- The entry is a `dns` match of the direction, and its pattern accepts the text. -/
def Match.acceptsName (c : Crates) (accepts : AcceptsName) (direction : Direction) (text : String)
    (m : Match) : Bool :=
  m.direction = direction && (dnsPattern c m).any (accepts · text)

section

variable {c : Crates} {dc : DnsCrates} {accepts : AcceptsName} {direction : Direction}
  {text : String}

theorem acceptsName_eq (m : Match) : m.acceptsName c accepts direction text =
    (patternFor c direction m).any (accepts · text) := by
  unfold Match.acceptsName patternFor
  by_cases hdir : m.direction = direction
  · simp [hdir]
  · simp [hdir]

theorem dnsPatterns_findIdx? (ms : List Match) :
    (((dnsPatterns c ms direction).map (·.1)).findIdx? (accepts · text)).bind
        (((dnsPatterns c ms direction).map (·.2))[·]?) =
      ms.findIdx? (Match.acceptsName c accepts direction text) := by
  rw [dnsPatterns_numbered, numbered_findIdx?, Option.map_congr (fun i _ => Nat.add_zero i),
    Option.map_id']
  congr 1
  funext m
  exact (acceptsName_eq m).symm

theorem dnsPatterns_findIdx?_isSome (ms : List Match) :
    (((dnsPatterns c ms direction).map (·.1)).findIdx? (accepts · text)).isSome =
      (ms.findIdx? (Match.acceptsName c accepts direction text)).isSome := by
  rw [List.findIdx?_isSome, List.findIdx?_isSome, dnsPatterns_fst, List.any_filterMap]
  congr 1
  funext m
  exact (acceptsName_eq m).symm

/-- The id at the number of the pattern found is that of the first entry accepting the text. -/
theorem dnsPatterns_found {ms : List Match} {k : Nat}
    (h : ((dnsPatterns c ms direction).map (·.1)).findIdx? (accepts · text) = some k) :
    ∃ i, ((dnsPatterns c ms direction).map (·.2))[k]? = some i ∧
      ms.findIdx? (Match.acceptsName c accepts direction text) = some i := by
  have hsome := @dnsPatterns_findIdx?_isSome c accepts direction text ms
  have hid := @dnsPatterns_findIdx? c accepts direction text ms
  rw [h] at hsome hid
  obtain ⟨i, hi⟩ := Option.isSome_iff_exists.mp hsome.symm
  exact ⟨i, hid.trans hi, hi⟩

theorem dnsPatterns_missed {ms : List Match}
    (h : ((dnsPatterns c ms direction).map (·.1)).findIdx? (accepts · text) = none) :
    ms.findIdx? (Match.acceptsName c accepts direction text) = none := by
  have hid := @dnsPatterns_findIdx? c accepts direction text ms
  rw [h] at hid
  exact hid.symm

/-- The direction and id of the first entry that accepts the text, `bypass` entries first. -/
def firstAccepting (c : Crates) (accepts : AcceptsName) (ms : List Match) (text : String) :
    Option (Direction × Nat) :=
  ((ms.findIdx? (Match.acceptsName c accepts .bypass text)).map (.bypass, ·)).or
    ((ms.findIdx? (Match.acceptsName c accepts .redirect text)).map (.redirect, ·))

theorem DnsCache.get_of_build (searches : dc.SearchesFirst c accepts) {ms : Matches} {dfa : DnsDfa}
    (h : ms.buildDnsDfa c = .ok dfa) (name : DnsName) :
    DnsCache.get dc ⟨some dfa⟩ name =
      firstAccepting c accepts ms.entries (dc.nameToString name) := by
  obtain ⟨redir, hredir, h⟩ := bind_eq_ok.mp h
  obtain ⟨bypass, hbypass, h⟩ := bind_eq_ok.mp h
  cases Except.ok.inj h
  simp only [DnsCache.get, Option.bind_eq_bind, Option.bind_some, searches _ _ _ hredir,
    searches _ _ _ hbypass, firstAccepting]
  cases hfirst : ((dnsPatterns c ms.entries .bypass).map (·.1)).findIdx?
      (accepts · (dc.nameToString name)) with
  | some k =>
    obtain ⟨i, hid, hi⟩ := dnsPatterns_found hfirst
    rw [hi, Option.map_some, Option.some_or]
    exact congrArg (Option.map _) hid
  | none =>
    rw [dnsPatterns_missed hfirst, Option.map_none, Option.none_or]
    cases hsecond : ((dnsPatterns c ms.entries .redirect).map (·.1)).findIdx?
        (accepts · (dc.nameToString name)) with
    | some k =>
      obtain ⟨i, hid, hi⟩ := dnsPatterns_found hsecond
      rw [hi]
      exact congrArg (Option.map _) hid
    | none =>
      rw [dnsPatterns_missed hsecond]
      rfl

/-- After an update the first accepting entry decides; a failed one changes nothing. -/
theorem DnsCache.get_update (searches : dc.SearchesFirst c accepts) (cache : DnsCache)
    (ms : Matches) (name : DnsName) :
    (∀ dfa, ms.buildDnsDfa c = .ok dfa → (cache.update c ms).get dc name =
        firstAccepting c accepts ms.entries (dc.nameToString name)) ∧
      ∀ err, ms.buildDnsDfa c = .error err →
        (cache.update c ms).get dc name = cache.get dc name := by
  constructor
  · intro dfa h
    rw [DnsCache.update, h]
    exact get_of_build searches h name
  · intro err h
    rw [DnsCache.update, h]

end

/-- The DFA of `^a\.?$` over names: after the dead and the quit row, the match row,
the start row, the start row of a search inside a text, and the rows that have read the dot
and the `a` before it. -/
def nameADfa : DenseDfa :=
  { slashADfa with
    byteClass := fun b => if b < 46 then 0 else if b = 46 then 1 else if b < 97 then 2 else
      if b = 97 then 3 else 4
    table := List.replicate 24 0 ++ [0, 0, 0, 48, 0, 0, 0, 0] ++ List.replicate 8 0 ++
      [0, 0, 0, 0, 0, 16, 0, 0] ++ [0, 40, 0, 0, 0, 16, 0, 0]
    aligned := by decide
    dead_row := by decide
    class_zero := rfl
    class_lt := fun b => by
      show (if b < 46 then (0 : UInt8) else _).toNat < 8
      split_ifs <;> decide }

theorem nameADfa_nextState (b : UInt8) :
    nameADfa.nextState 24 b = some (if b = 97 then 48 else dead) ∧
      nameADfa.nextState 48 b = some (if b = 46 then 40 else dead) ∧
      nameADfa.nextState 40 b = some dead := by
  simp only [DenseDfa.nextState, nameADfa, slashADfa]
  split_ifs <;> first | exact ⟨rfl, rfl, rfl⟩ | grind

theorem nameADfa_search (bytes : List UInt8) :
    nameADfa.search bytes = some (if bytes = [97] ∨ bytes = [97, 46] then 16 else dead) := by
  have hdead : ∀ rest, (nameADfa.runBytes dead rest).bind nameADfa.nextEoiState = some dead := by
    intro rest
    rw [nameADfa.runBytes_dead, Option.bind_some, nameADfa.nextEoiState_dead]
  have hstep : ∀ s b rest next, nameADfa.nextState s b = some next →
      (nameADfa.runBytes s (b :: rest)).bind nameADfa.nextEoiState =
        (nameADfa.runBytes next rest).bind nameADfa.nextEoiState := by
    intro s b rest next h
    rw [DenseDfa.runBytes, h]
    rfl
  show (nameADfa.runBytes 24 bytes).bind nameADfa.nextEoiState = _
  cases bytes with
  | nil => rfl
  | cons b bytes =>
    rw [hstep _ _ _ _ (nameADfa_nextState b).1]
    by_cases hb : b = 97
    · rw [if_pos hb]
      cases bytes with
      | nil =>
        rw [hb, if_pos (Or.inl rfl)]
        rfl
      | cons b' bytes =>
        rw [hstep _ _ _ _ (nameADfa_nextState b').2.1]
        by_cases hb' : b' = 46
        · rw [if_pos hb']
          cases bytes with
          | nil =>
            rw [hb, hb', if_pos (Or.inr rfl)]
            rfl
          | cons b'' bytes =>
            rw [hstep _ _ _ _ (nameADfa_nextState b'').2.2, hdead]
            simp
        · rw [if_neg hb', hdead]
          simp [hb']
    · rw [if_neg hb, hdead]
      simp [hb]

def nameACrates : Crates :=
  { slashACrates with
    buildMany := fun _ pats =>
      if pats = [] then .ok emptyDfa
      else if pats = ["^a\\.?$"] then .ok nameADfa
      else .error "unsupported" }

def nameAAccepts : AcceptsName := fun p text => p == "^a\\.?$" && (text == "a" || text == "a.")

theorem nameACrates_searchesFirst :
    sampleDnsCrates.SearchesFirst nameACrates nameAAccepts := by
  intro pats d text h
  have h := mapError_eq_ok.mp h
  have hbytes : ∀ s : String, text.toUTF8.data.toList = s.toUTF8.data.toList ↔ text = s := by
    intro s
    rw [Array.toList_inj, ← ByteArray.ext_iff]
    exact String.toByteArray_inj
  simp only [nameACrates] at h
  split at h
  next hnil =>
    cases Except.ok.inj h
    rw [hnil]
    simp only [sampleDnsCrates]
    cases emptyDfa.search text.toUTF8.data.toList with
    | none => rfl
    | some s =>
      have hmatch : emptyDfa.isMatchState s = false := rfl
      simp [hmatch]
  next =>
    split at h
    next hpats =>
      cases Except.ok.inj h
      rw [hpats]
      have htext : (text.toUTF8.data.toList = [97] ∨ text.toUTF8.data.toList = [97, 46]) ↔
          text = "a" ∨ text = "a." := or_congr (hbytes "a") (hbytes "a.")
      simp only [sampleDnsCrates, nameADfa_search, htext]
      by_cases ha : text = "a" ∨ text = "a."
      · have haccepts : nameAAccepts "^a\\.?$" text = true := by
          simpa [nameAAccepts] using ha
        rw [if_pos ha, List.findIdx?_cons, if_pos haccepts]
        rfl
      · have haccepts : ¬nameAAccepts "^a\\.?$" text = true := by
          simpa [nameAAccepts] using ha
        rw [if_neg ha, List.findIdx?_cons, if_neg haccepts]
        rfl
    next => cases h

def nameARule (kind : Kind) (direction : Direction) : Match where
  pattern := "a"
  kind
  method := .full
  direction
  uid := 0

/-- Entries of other kinds and without a use, and one of each direction for `a`. -/
def mixedRules : Matches :=
  ⟨[nameARule .path .bypass, { nameARule .dns .bypass with pattern := "" },
    nameARule .dns .redirect, { nameARule .dns .redirect with method := .subnet },
    nameARule .dns .bypass], 1, 4⟩

theorem mixedRules_builds : ∃ dfa, mixedRules.buildDnsDfa nameACrates = .ok dfa := ⟨_, rfl⟩

theorem DnsCache.get_update_mixedRules :
    (DnsCache.update nameACrates ⟨none⟩ mixedRules).get sampleDnsCrates ⟨[[97]], true⟩ =
      some (.bypass, 4) := by
  obtain ⟨dfa, hdfa⟩ := mixedRules_builds
  rw [(DnsCache.get_update nameACrates_searchesFirst ⟨none⟩ mixedRules _).1 dfa hdfa]
  decide +kernel

end Rebpf
