import Rebpf.Lib.Optimistic
import Rebpf.Netlink

namespace Rebpf

open Lib

inductive PayloadBase
  | networkHeader
  | transportHeader
deriving DecidableEq, Repr

/-- `NatRange2`, as far as it is not left at zero. -/
structure NatRange where
  flags : Nat
  minAddr : List UInt8
  maxAddr : List UInt8
deriving DecidableEq, Repr

/-- The expressions of nftables in the daemon's rules, all on register 1. -/
inductive NftExpr
  | payload (base : PayloadBase) (offset len : Nat)
  | metaMark
  | cmpEq (value : List UInt8)
  | target (name : String) (rev : Nat) (info : NatRange)
deriving DecidableEq, Repr

def mapIps : Nat := 1

def addrBits (addr : UInt32) : List UInt8 := wordBytes .big addr.toNat ++ List.replicate 12 0

def portBytes (port : UInt16) : List UInt8 :=
  [.ofNat (port.toNat / 256), .ofNat port.toNat]

/-- `-m mark --mark <mark> -p udp -m udp --dport <port> -j DNAT --to-destination <addr>` -/
def natExprs (e : Endian) (rule : NatRule) : List NftExpr :=
  [.payload .networkHeader 9 1, .cmpEq [17], .metaMark, .cmpEq (wordBytes e rule.mark.toNat),
    .payload .transportHeader 2 2, .cmpEq (portBytes rule.port),
    .target "DNAT" 2 ⟨mapIps, addrBits rule.addr, addrBits rule.addr⟩]

/-- What the expressions see of a packet. -/
structure NatPacket where
  mark : UInt32
  network : List UInt8
  transport : List UInt8
deriving DecidableEq, Repr

def NatPacket.header (pkt : NatPacket) : PayloadBase → List UInt8
  | .networkHeader => pkt.network
  | .transportHeader => pkt.transport

/-- The kernel runs a rule's expressions from the first on, until one fails or has a verdict. -/
def runExprs (e : Endian) (pkt : NatPacket) : List NftExpr → List UInt8 → Option NatRange
  | [], _ => none
  | .payload base offset len :: exprs, _ =>
    if offset + len ≤ (pkt.header base).length then
      runExprs e pkt exprs (((pkt.header base).drop offset).take len)
    else none
  | .metaMark :: exprs, _ => runExprs e pkt exprs (wordBytes e pkt.mark.toNat)
  | .cmpEq value :: exprs, reg =>
    if reg.take value.length = value then runExprs e pkt exprs reg else none
  | .target _ _ info :: _, _ => some info

/-- A rule of the chain `OUTPUT` of the table `nat`. -/
structure NftRule where
  handle : Nat
  userdata : Option (List UInt8)
  exprs : List NftExpr
deriving DecidableEq, Repr

structure NftChain where
  nextHandle : Nat
  rules : List NftRule
deriving DecidableEq, Repr

/-- The kernel gives no handle twice. -/
structure NftChain.Valid (chain : NftChain) : Prop where
  handles : (chain.rules.map (·.handle)).Nodup
  below : ∀ r ∈ chain.rules, r.handle < chain.nextHandle

inductive NatEdit
  | insert (rule : NatRule)
  | delete (mark : UInt32)
deriving DecidableEq, Repr

section

variable (e : Endian)

def NftRule.tagged (mark : UInt32) (r : NftRule) : Bool :=
  r.userdata == some (wordBytes e mark.toNat)

/-- A request as an edit of the chain in one piece: a new rule stands first, and the first
rule that has the mark is deleted. -/
def NatEdit.apply : NatEdit → NftChain → Option NftChain
  | .insert rule, chain => some {
      nextHandle := chain.nextHandle + 1
      rules := ⟨chain.nextHandle, some (wordBytes e rule.mark.toNat), natExprs e rule⟩ ::
        chain.rules }
  | .delete mark, chain =>
    if chain.rules.any (NftRule.tagged e mark) then
      some { chain with rules := chain.rules.eraseP (NftRule.tagged e mark) }
    else none

/-- How far an `iptables_rule_try` has got before it sends its batch. -/
inductive NatNotes
  | ready
  | dumping (next : Nat)
  | found (handle : Nat)
  | missing
deriving DecidableEq, Repr

/-- A dump goes on by the number of rules it has passed; the batch names a handle. -/
def iptablesAttempt : Attempt NftChain NatEdit NatNotes where
  start
    | .insert _ => .ready
    | .delete _ => .dumping 0
  look
    | .delete mark, .dumping next, chain =>
      match chain.rules[next]? with
      | none => some .missing
      | some r => some (if r.tagged e mark then .found r.handle else .dumping (next + 1))
    | _, _, _ => none
  edit
    | .insert rule, .ready, chain => (NatEdit.insert rule).apply e chain
    | .delete _, .found handle, chain =>
      if chain.rules.any (·.handle == handle) then
        some { chain with rules := chain.rules.eraseP (·.handle == handle) }
      else none
    | _, _, _ => none

/-- What the notes say of a chain that nobody has edited since. -/
def NatNotes.Knows : NatEdit → NatNotes → NftChain → Prop
  | .insert _, .ready, _ => True
  | .delete mark, .dumping next, chain =>
    ∀ r ∈ chain.rules.take next, r.tagged e mark = false
  | .delete mark, .found handle, chain =>
    ∃ r, chain.rules.find? (NftRule.tagged e mark) = some r ∧ r.handle = handle
  | .delete mark, .missing, chain => chain.rules.any (NftRule.tagged e mark) = false
  | _, _, _ => False

def NatRule.takes (pkt : NatPacket) (rule : NatRule) : Bool :=
  pkt.mark == rule.mark && pkt.network[9]? == some 17 &&
    (pkt.transport.drop 2).take 2 == portBytes rule.port

/-- A rule of the chain that the daemon has made. -/
structure NftRule.Is (rule : NatRule) (r : NftRule) : Prop where
  userdata : r.userdata = some (wordBytes e rule.mark.toNat)
  exprs : r.exprs = natExprs e rule

def NftRule.own (marks : List UInt32) (r : NftRule) : Bool := marks.any fun mark => r.tagged e mark

/-- The rules with one of these marks are these, in their order. -/
def NftChain.Shows (marks : List UInt32) (chain : NftChain) (nat : List NatRule) : Prop :=
  List.Forall₂ (NftRule.Is e) nat (chain.rules.filter (NftRule.own e marks))

def NatEdit.mark : NatEdit → UInt32
  | .insert rule => rule.mark
  | .delete mark => mark

/-- What the first rule that takes the packet makes of it. -/
def NftChain.redirect (pkt : NatPacket) (chain : NftChain) : Option NatRange :=
  chain.rules.findSome? fun r => runExprs e pkt r.exprs []

/-- A request for a list of the daemon's rules. -/
def NatEdit.onto (nat : List NatRule) : NatEdit → List NatRule
  | .insert rule => rule :: nat
  | .delete mark => nat.eraseP (·.mark == mark)

end

section

variable {e : Endian} {chain chain' : NftChain} {mark : UInt32} {rule : NatRule}

theorem wordBytes_inj {m n : UInt32} (h : wordBytes e m.toNat = wordBytes e n.toNat) : m = n := by
  obtain ⟨a, b, c, d, hm, hmOf⟩ := wordBytes_eq e m.toNat
  obtain ⟨a', b', c', d', hn, hnOf⟩ := wordBytes_eq e n.toNat
  rw [hm, hn] at h
  cases h
  have heq : m.toNat = n.toNat := by
    rw [← Nat.mod_eq_of_lt m.toNat_lt, ← Nat.mod_eq_of_lt n.toNat_lt]
    exact hmOf.symm.trans hnOf
  exact UInt32.toNat_inj.mp heq

/-- The rule sends on exactly the UDP packets with its mark that go to its port. -/
theorem natExprs_iff (pkt : NatPacket) (info : NatRange) :
    runExprs e pkt (natExprs e rule) [] = some info ↔
      info = ⟨mapIps, addrBits rule.addr, addrBits rule.addr⟩ ∧ pkt.mark = rule.mark ∧
        pkt.network[9]? = some 17 ∧ (pkt.transport.drop 2).take 2 = portBytes rule.port := by
  have hprotocol : pkt.network[9]? = some 17 ↔
      9 + 1 ≤ pkt.network.length ∧ ((pkt.network.drop 9).take 1).take 1 = [17] := by
    rw [List.take_take, Nat.min_self, List.take_one, List.head?_drop]
    cases hget : pkt.network[9]? with
    | none => simp
    | some b =>
      obtain ⟨hlt, _⟩ := List.getElem?_eq_some_iff.mp hget
      simpa using fun _ => Nat.succ_le_of_lt hlt
  have hmark : pkt.mark = rule.mark ↔ (wordBytes e pkt.mark.toNat).take
      (wordBytes e rule.mark.toNat).length = wordBytes e rule.mark.toNat := by
    rw [List.take_of_length_le (by simp)]
    exact ⟨fun h => by rw [h], wordBytes_inj⟩
  have hport : (pkt.transport.drop 2).take 2 = portBytes rule.port ↔
      2 + 2 ≤ pkt.transport.length ∧ ((pkt.transport.drop 2).take 2).take
        (portBytes rule.port).length = portBytes rule.port := by
    have htwo : (portBytes rule.port).length = 2 := rfl
    rw [htwo, List.take_take, Nat.min_self]
    refine ⟨fun h => ⟨?_, h⟩, And.right⟩
    have hlength := congrArg List.length h
    rw [htwo, List.length_take, List.length_drop] at hlength
    omega
  rw [hprotocol, hmark, hport]
  simp only [natExprs, runExprs, Option.ite_none_right_eq_some, Option.some.injEq]
  simp only [NatPacket.header, List.length_singleton]
  constructor
  · rintro ⟨hroom, hbyte, hmark, hroom', hbytes, rfl⟩
    exact ⟨rfl, hmark, ⟨hroom, hbyte⟩, hroom', hbytes⟩
  · rintro ⟨rfl, hmark, ⟨hroom, hbyte⟩, hroom', hbytes⟩
    exact ⟨hroom, hbyte, hmark, hroom', hbytes, rfl⟩

theorem runExprs_natExprs (pkt : NatPacket) : runExprs e pkt (natExprs e rule) [] =
    if rule.takes pkt then some ⟨mapIps, addrBits rule.addr, addrBits rule.addr⟩ else none := by
  refine Option.ext fun info => (natExprs_iff pkt info).trans ?_
  simp only [Option.ite_none_right_eq_some, NatRule.takes, Bool.and_eq_true, beq_iff_eq,
    Option.some.injEq]
  constructor
  · rintro ⟨rfl, hmark, hprotocol, hport⟩
    exact ⟨⟨⟨hmark, hprotocol⟩, hport⟩, rfl⟩
  · rintro ⟨⟨⟨hmark, hprotocol⟩, hport⟩, rfl⟩
    exact ⟨rfl, hmark, hprotocol, hport⟩

theorem eraseP_handle {rules : List NftRule} {r : NftRule} {test : NftRule → Bool}
    (handles : (rules.map (·.handle)).Nodup) (found : rules.find? test = some r) :
    rules.eraseP (·.handle == r.handle) = rules.eraseP test := by
  induction rules with
  | nil => rfl
  | cons x rules ih =>
    obtain ⟨hnew, handles⟩ := List.nodup_cons.mp handles
    by_cases hx : test x = true
    · rw [List.find?_cons_of_pos hx] at found
      cases Option.some.inj found
      rw [List.eraseP_cons_of_pos (by simp), List.eraseP_cons_of_pos hx]
    · rw [List.find?_cons_of_neg hx] at found
      have hne : x.handle ≠ r.handle := fun h =>
        hnew (List.mem_map.mpr ⟨r, List.mem_of_find?_eq_some found, h.symm⟩)
      rw [List.eraseP_cons_of_neg (by simpa using hne), List.eraseP_cons_of_neg hx,
        ih handles found]

theorem NftChain.Valid.apply {edit : NatEdit} (h : chain.Valid)
    (happly : edit.apply e chain = some chain') : chain'.Valid := by
  cases edit with
  | insert rule =>
    cases Option.some.inj happly
    refine ⟨List.nodup_cons.mpr ⟨fun hmem => ?_, h.handles⟩, fun r hr => ?_⟩
    · obtain ⟨r, hr, hhandle⟩ := List.mem_map.mp hmem
      exact absurd (h.below r hr) (by dsimp only at hhandle; omega)
    · obtain rfl | hr := List.mem_cons.mp hr
      · exact Nat.lt_succ_self _
      · exact Nat.lt_succ_of_lt (h.below r hr)
  | delete mark =>
    simp only [NatEdit.apply] at happly
    split at happly
    next =>
      cases Option.some.inj happly
      exact ⟨h.handles.sublist (List.eraseP_sublist.map _),
        fun r hr => h.below r (List.eraseP_sublist.subset hr)⟩
    next => cases happly

theorem NftRule.Is.tagged {r : NftRule} (h : r.Is e rule) (mark : UInt32) :
    r.tagged e mark = (rule.mark == mark) := by
  rw [Bool.eq_iff_iff, NftRule.tagged, h.userdata, beq_iff_eq, Option.some.injEq, beq_iff_eq]
  exact ⟨wordBytes_inj, fun heq => by rw [heq]⟩

theorem forall₂_eraseP {nat : List NatRule} {rules : List NftRule}
    (h : List.Forall₂ (NftRule.Is e) nat rules) (mark : UInt32) :
    List.Forall₂ (NftRule.Is e) (nat.eraseP (·.mark == mark))
      (rules.eraseP (NftRule.tagged e mark)) := by
  induction h with
  | nil => exact .nil
  | @cons rule r nat rules his rest ih =>
    have htag := his.tagged mark
    cases hmark : rule.mark == mark with
    | true =>
      simp only [List.eraseP_cons, htag, hmark, cond_true]
      exact rest
    | false =>
      simp only [List.eraseP_cons, htag, hmark, cond_false]
      exact .cons his ih

/-- A rule is the daemon's if and only if the mark it has is. -/
theorem NftRule.own_tagged {r : NftRule} (marks : List UInt32) (h : r.tagged e mark = true) :
    r.own e marks = decide (mark ∈ marks) := by
  rw [Bool.eq_iff_iff, NftRule.own, List.any_eq_true, decide_eq_true_iff]
  constructor
  · rintro ⟨mark', known, htag⟩
    rw [NftRule.tagged, beq_iff_eq] at h htag
    have heq := Option.some.inj (h.symm.trans htag)
    exact wordBytes_inj heq ▸ known
  · exact fun known => ⟨mark, known, h⟩

theorem NftRule.Is.own {r : NftRule} (h : r.Is e rule) (marks : List UInt32) :
    r.own e marks = decide (rule.mark ∈ marks) :=
  NftRule.own_tagged marks ((h.tagged rule.mark).trans (beq_self_eq_true _))

/-- The first rule with a mark is the first of the daemon's rules with it. -/
theorem eraseP_own {marks : List UInt32} (known : mark ∈ marks) (rules : List NftRule) :
    (rules.eraseP (NftRule.tagged e mark)).filter (NftRule.own e marks) =
      (rules.filter (NftRule.own e marks)).eraseP (NftRule.tagged e mark) := by
  have htest : (fun r => NftRule.tagged e mark r && NftRule.own e marks r) =
      NftRule.tagged e mark := by
    funext r
    cases htag : r.tagged e mark with
    | true => rw [NftRule.own_tagged marks htag, decide_eq_true known, Bool.and_true]
    | false => rfl
  rw [List.eraseP_filter, htest]

/-- A filter does not see that something is erased that does not pass it. -/
theorem filter_eraseP {α : Type*} {test keep : α → Bool}
    (apart : ∀ x, test x = true → keep x = false) (xs : List α) :
    (xs.eraseP test).filter keep = xs.filter keep := by
  induction xs with
  | nil => rfl
  | cons x xs ih =>
    by_cases hx : test x = true
    · rw [List.eraseP_cons_of_pos hx, List.filter_cons_of_neg (by simp [apart x hx])]
    · rw [List.eraseP_cons_of_neg hx, List.filter_cons, List.filter_cons, ih]

theorem NftChain.Shows.apply {marks : List UInt32} {nat : List NatRule} {edit : NatEdit}
    (h : chain.Shows e marks nat) (known : edit.mark ∈ marks)
    (happly : edit.apply e chain = some chain') : chain'.Shows e marks (edit.onto nat) := by
  cases edit with
  | insert rule =>
    cases Option.some.inj happly
    have his : NftRule.Is e rule
        ⟨chain.nextHandle, some (wordBytes e rule.mark.toNat), natExprs e rule⟩ := ⟨rfl, rfl⟩
    rw [Shows, List.filter_cons_of_pos ((his.own marks).trans (decide_eq_true known))]
    exact .cons his h
  | delete mark =>
    simp only [NatEdit.apply] at happly
    split at happly
    next =>
      cases Option.some.inj happly
      have herased := forall₂_eraseP h mark
      rw [← eraseP_own (show mark ∈ marks from known) chain.rules] at herased
      exact herased
    next => cases happly

/-- A request for another mark leaves the rules. -/
theorem NftChain.Shows.apply_foreign {marks : List UInt32} {nat : List NatRule} {edit : NatEdit}
    (h : chain.Shows e marks nat) (foreign : edit.mark ∉ marks)
    (happly : edit.apply e chain = some chain') : chain'.Shows e marks nat := by
  cases edit with
  | insert rule =>
    cases Option.some.inj happly
    have his : NftRule.Is e rule
        ⟨chain.nextHandle, some (wordBytes e rule.mark.toNat), natExprs e rule⟩ := ⟨rfl, rfl⟩
    have hown := (his.own marks).trans (decide_eq_false foreign)
    rw [Shows, List.filter_cons_of_neg (by simp [hown])]
    exact h
  | delete mark =>
    simp only [NatEdit.apply] at happly
    split at happly
    next =>
      cases Option.some.inj happly
      have apart : ∀ r, NftRule.tagged e mark r = true → NftRule.own e marks r = false :=
        fun r htag => (NftRule.own_tagged marks htag).trans (decide_eq_false foreign)
      rw [Shows, filter_eraseP apart]
      exact h
    next => cases happly

/-- Without the rules of one mark the chain shows the others. -/
theorem NftChain.Shows.filter {marks : List UInt32} {nat : List NatRule}
    (h : chain.Shows e marks nat) (mark : UInt32) :
    NftChain.Shows e marks
      { chain with rules := chain.rules.filter (!NftRule.tagged e mark ·) }
      (nat.filter (·.mark != mark)) := by
  have hfilter : (chain.rules.filter (!NftRule.tagged e mark ·)).filter (NftRule.own e marks) =
      (chain.rules.filter (NftRule.own e marks)).filter (!NftRule.tagged e mark ·) :=
    List.filter_comm ..
  rw [Shows, hfilter]
  refine List.rel_filter (fun rule r his => ?_) h
  dsimp only
  rw [his.tagged, bne]

/-- A packet that no other rule takes goes where the first of the daemon's rules that takes it
says. -/
theorem NftChain.Shows.redirect {marks : List UInt32} {nat : List NatRule} {pkt : NatPacket}
    (h : chain.Shows e marks nat)
    (alone : ∀ r ∈ chain.rules, r.own e marks = false → runExprs e pkt r.exprs [] = none) :
    chain.redirect e pkt = (nat.find? (NatRule.takes pkt)).map fun rule =>
      ⟨mapIps, addrBits rule.addr, addrBits rule.addr⟩ := by
  have hown : chain.redirect e pkt = (chain.rules.filter (NftRule.own e marks)).findSome?
      fun r => runExprs e pkt r.exprs [] := by
    rw [NftChain.redirect]
    generalize chain.rules = rules at alone
    induction rules with
    | nil => rfl
    | cons r rules ih =>
      obtain ⟨hr, alone⟩ := List.forall_mem_cons.mp alone
      cases hown : r.own e marks with
      | true =>
        rw [List.filter_cons_of_pos hown, List.findSome?_cons, List.findSome?_cons, ih alone]
      | false =>
        rw [List.filter_cons_of_neg (by rw [hown]; exact Bool.false_ne_true), List.findSome?_cons,
          hr hown, ih alone]
  rw [hown]
  rw [Shows] at h
  generalize chain.rules.filter (NftRule.own e marks) = rules at h
  induction h with
  | nil => rfl
  | @cons rule r nat rules his _ ih =>
    rw [List.findSome?_cons, his.exprs, List.find?_cons, runExprs_natExprs]
    cases rule.takes pkt with
    | true => rfl
    | false => exact ih

/-- An attempt that nobody interferes with is the request's edit in one piece. -/
theorem iptablesAttempt_serial (e : Endian) : Optimistic.Serial (iptablesAttempt e)
    NftChain.Valid (NatNotes.Knows e) (NatEdit.apply e) where
  start r v _ := by
    cases r with
    | insert rule => trivial
    | delete mark => exact fun r hr => by simp at hr
  look r n v n' _ hknows hlook := by
    cases r with
    | insert rule => cases n <;> cases hlook
    | delete mark =>
      cases n with
      | dumping next =>
        simp only [iptablesAttempt] at hlook
        split at hlook
        next hend =>
          cases Option.some.inj hlook
          have hall : v.rules.take next = v.rules :=
            List.take_of_length_le (List.getElem?_eq_none_iff.mp hend)
          simp only [NatNotes.Knows, hall] at hknows
          simpa [NatNotes.Knows] using hknows
        next r hr =>
          obtain ⟨hlt, hget⟩ := List.getElem?_eq_some_iff.mp hr
          cases Option.some.inj hlook
          split
          next htag =>
            refine ⟨r, ?_, rfl⟩
            rw [List.find?_eq_some_iff_getElem]
            refine ⟨htag, next, hlt, hget, fun j hj => ?_⟩
            have hmem : v.rules[j] ∈ v.rules.take next :=
              List.mem_take_iff_getElem.mpr ⟨j, by omega, rfl⟩
            simpa using hknows _ hmem
          next htag =>
            intro x hx
            rw [List.take_add_one, hr] at hx
            obtain hx | hx := List.mem_append.mp hx
            · exact hknows x hx
            · obtain rfl := List.mem_singleton.mp hx
              exact Bool.eq_false_iff.mpr htag
      | ready | found handle | missing => cases hlook
  edit r n v v' valid hknows hedit := by
    cases r with
    | insert rule =>
      cases n with
      | ready => exact hedit
      | dumping next | found handle | missing => cases hedit
    | delete mark =>
      cases n with
      | found handle =>
        obtain ⟨r, hfind, rfl⟩ := hknows
        have hany : v.rules.any (NftRule.tagged e mark) = true :=
          List.any_eq_true.mpr ⟨r, List.mem_of_find?_eq_some hfind, List.find?_some hfind⟩
        simp only [iptablesAttempt] at hedit
        split at hedit
        next =>
          cases Option.some.inj hedit
          rw [NatEdit.apply, if_pos hany, eraseP_handle valid.handles hfind]
        next => cases hedit
      | ready | dumping next | missing => cases hedit
  good r v v' valid happly := valid.apply happly

end

end Rebpf
