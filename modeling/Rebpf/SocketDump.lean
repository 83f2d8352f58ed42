import Rebpf.BpfReload
import Rebpf.KernelHooks
import Rebpf.Policy
import Rebpf.ProcNames

namespace Rebpf

open Lib

/-- The entry that decides on a program, by its place in the list: the first for the path,
unless it is another user's. -/
def decidingEntry (c : Crates) (accepts : Accepts) (ms : List Match) (path : List UInt8)
    (uid : UInt32) : Option (Match × Nat) :=
  (ms.zipIdx.find? fun r => r.1.acceptsPath c accepts path).filter fun r => uidApplies r.1.uid uid

def decidingIndex (c : Crates) (accepts : Accepts) (ms : List Match) (task : Task) : Option Nat :=
  task.exe.bind fun exe => (decidingEntry c accepts ms exe.path task.uid).map (·.2)

variable {c : Crates} {e : Endian} {alloc : Nat → Option (Nat → UInt8)} {accepts : Accepts}

theorem firstDecision_eq (ms : List Match) (path : List UInt8) (uid : UInt32) :
    firstDecision c accepts ms path uid =
      verdict ((decidingEntry c accepts ms path uid).map (·.1)) := by
  rw [firstDecision, find?_zipIdx, decidingEntry]
  cases ms.zipIdx.find? fun r => r.1.acceptsPath c accepts path with
  | none => rfl
  | some r => by_cases huid : uidApplies r.1.uid uid = true <;> simp [Option.filter, huid]

/-- The lowest pattern that accepts the path is that of the first entry's place. -/
theorem pathPatterns_place {ms : List Match} {path : List UInt8} {k : Nat} {p : String}
    (hk : ((pathPatterns c ms).map (·.1))[k]? = some p) (hp : accepts p path = true)
    (below : ∀ j, j < k → ∀ q, ((pathPatterns c ms).map (·.1))[j]? = some q →
      accepts q path = false) {r : Nat × Match}
    (hr : Resolves ((pathPatterns c ms).map (·.2)) ms k r) :
    ms.zipIdx.find? (fun r => r.1.acceptsPath c accepts path) = some (r.2, r.1) := by
  rw [List.getElem?_map, Option.map_eq_some_iff] at hk
  obtain ⟨⟨p', i⟩, hki, rfl⟩ := hk
  obtain ⟨hlt, hget⟩ := List.getElem?_eq_some_iff.mp hki
  have hfind : (pathPatterns c ms).find? (fun r => accepts r.1 path) = some (p', i) := by
    refine List.find?_eq_some_iff_getElem.mpr ⟨hp, k, hlt, hget, fun j hj => ?_⟩
    have hjlt : j < (pathPatterns c ms).length := Nat.lt_trans hj hlt
    simp [below j hj _ (by rw [List.getElem?_map, List.getElem?_eq_getElem hjlt]; rfl)]
  have hsame : (fun r : Match × Nat => ((pathPattern c r.1).map (·, r.2)).any
      fun r => accepts r.1 path) = fun r => r.1.acceptsPath c accepts path := by
    funext r
    cases h : pathPattern c r.1 <;> simp [Match.acceptsPath, h]
  rw [pathPatterns, List.find?_filterMap] at hfind
  obtain ⟨⟨m, i'⟩, hz, hf⟩ := Option.bind_eq_some_iff.mp hfind
  obtain ⟨q, _, heq⟩ := Option.map_eq_some_iff.mp hf
  obtain ⟨rfl, rfl⟩ := Prod.mk.inj heq
  have hmem : ms[i']? = some m := List.mk_mem_zipIdx_iff_getElem?.mp (List.mem_of_find?_eq_some hz)
  have hres : some r = some (i', m) := by
    rw [← hr, resolve, List.getElem?_map, hki]
    simp [hmem]
  rw [hsame] at hz
  rw [hz, Option.some.inj hres]

theorem Layout.read_matchId {L : Layout} (small : (L.bytes e).length < 2 ^ 32) {k : Nat}
    {r : Nat × Match} (h : L.entries[k]? = some r) :
    (memOf (L.bytes e)).word e ((L.bpf e).matchIdTableOff + 4 * k) = some (r.1 % 2 ^ 32) := by
  have chain := length_chain e L
  have hoff : (L.bpf e).matchIdTableOff = (L.toIds e).length := u32_of_lt (by omega)
  have hk : (L.entries.map (·.1))[k]? = some r.1 := by rw [List.getElem?_map, h]; rfl
  have hread := memOf_word e (L.toIds e) [] hk
  rwa [List.append_nil, ← bytes, ← hoff] at hread

theorem Layout.sliceOff_single {L : Layout} (single : ∀ ids ∈ L.dfa.pats, ids.length = 1)
    {off : Nat} {ids : List Nat} (h : L.dfa.pats[off]? = some ids) : L.sliceOff off = off := by
  obtain ⟨hlt, _⟩ := List.getElem?_eq_some_iff.mp h
  rw [sliceOff, flatten_length_single (fun l hl => single l (List.mem_of_mem_take hl)),
    List.length_take_of_le (Nat.le_of_lt hlt)]

/-- The context after the decision names the place in the tables of the deciding entry. -/
theorem needsMarkUncached_reports (aligned : c.PadsToWord) (first : c.LeftmostFirst accepts)
    {ms : Matches} {b : BpfDfa} {out : List UInt8} (built : ms.buildPathDfa c e [] = .ok (b, out))
    {exe : Dentry} (fit : exe.WithinLimits) {uid : UInt32} (res : MatchRes) {m₀ : Match} {i : Nat}
    (decides : decidingEntry c accepts ms.entries exe.path uid = some (m₀, i)) :
    ∃ ret m, needsMarkUncached e (memOf out) (some exe) ⟨uid, b, res⟩ = some (ret, m) ∧
      m.res.tableLen = 1 ∧
      (memOf out).word e (b.matchIdTableOff + 4 * u32 m.res.tableOff) = some (i % 2 ^ 32) := by
  obtain ⟨L, hx, resolved, ⟨pad, hbefore, hpad, _⟩, ⟨hgap, _⟩, full, rfl, rfl⟩ :=
    encodeDfa_layout aligned built
  obtain ⟨d, hd, hx⟩ := bind_eq_ok.mp hx
  have rf := buildDfa_reportsFirst first hd
  have x := extract_extracted hx
  have small : (L.bytes e).length < 2 ^ 32 :=
    L.bytes_small x rf.single resolved (by simpa [hbefore] using hpad) hgap full
  obtain ⟨t, ret, b', hrun, hin, hsearch, hret, hb⟩ := L.path_run x full small fit
  have hstride := d.stride_pos
  obtain ⟨hfind, _⟩ := Option.filter_eq_some_iff.mp decides
  have hm : d.isMatchState t = true := by
    have hacc := List.find?_some hfind
    have hmem := List.mk_mem_zipIdx_iff_getElem?.mp (List.mem_of_find?_eq_some hfind)
    obtain ⟨s, hs, hms⟩ :=
      rf.finds exe.path (acceptsPath_iff_pattern.mp ⟨m₀, List.mem_of_getElem? hmem, hacc⟩)
    exact Option.some.inj (hsearch.symm.trans hs) ▸ hms
  obtain ⟨k, p, hk, hp, hacc, hbelow⟩ := rf.reports exe.path t hsearch hm
  obtain ⟨hlo, hhi⟩ := (x.fin_iff t (by omega)).mpr hm
  have hpats := x.pats_at (filled_of_single rf.single) (show t < L.dfa.trans.length by omega) hm
  rw [Option.some.inj ((x.lists t (by omega) hm).symm.trans hk)] at hpats
  obtain ⟨q, hq, hres, _⟩ := L.ruleSlice_single resolved (x.pats_single rf.single) hpats
  have hplace := pathPatterns_place hp hacc hbelow hres
  rw [hfind] at hplace
  obtain ⟨rfl, rfl⟩ := Prod.mk.inj (Option.some.inj hplace)
  have hdecide := L.readDecision (e := e) (m := ⟨uid, b', res⟩) small resolved
    (by rw [hb (hret.trans hm), Nat.add_sub_cancel' hlo]) (by omega) hpats hq
  have hpath : needsMarkUncached e (memOf (L.bytes e)) (some exe) ⟨uid, L.bpf e, res⟩ =
      readDecision e (memOf (L.bytes e)) ⟨uid, b', res⟩ := by
    simp [needsMarkUncached, hrun, hret.trans hm]
  have hplaced : L.sliceOff (t - L.dfa.finMin) = t - L.dfa.finMin :=
    Layout.sliceOff_single (x.pats_single rf.single) hpats
  have chain := L.length_chain e
  obtain ⟨hlt, _⟩ := List.getElem?_eq_some_iff.mp hq
  refine ⟨_, _, hpath.trans hdecide, rfl, ?_⟩
  dsimp only
  rw [hplaced, u32_of_lt (by omega)]
  exact Layout.read_matchId small hq

/-- The programs run what a list compiles to. -/
structure Kernel.Runs (k : Kernel) (c : Crates) (e : Endian) (ms : Matches) (b : BpfDfa)
    (out : List UInt8) : Prop where
  built : ms.buildPathDfa c e [] = .ok (b, out)
  hasDfa : k.hasDfa = true
  masterDfa : k.masterDfa = b
  holds : k.Holds out

section

variable {k k' : Kernel} {ms : Matches} {b : BpfDfa} {out : List UInt8} {task : Task}

theorem Kernel.Holds.extends (h : k.Holds out) : k.mem.Extends (memOf out) := by
  obtain ⟨r, hbase, hlen, hbytes⟩ := h
  intro off byte hread
  obtain ⟨hlt, _⟩ := List.getElem?_eq_some_iff.mp hread
  rw [Kernel.mem, hbase]
  dsimp only
  rw [if_pos (by omega), hbytes off byte hread]

theorem Kernel.Holds.getArena (h : k.Holds out) : k.getArena alloc = k := by
  obtain ⟨r, hbase, _⟩ := h
  simp [Kernel.getArena, hbase]

variable (alloc) in
/-- A task's decision, and the one id that `match_id_table` has for it. -/
theorem Kernel.Runs.decides (h : k.Runs c e ms b out) (aligned : c.PadsToWord)
    (first : c.LeftmostFirst accepts) (fit : ∀ exe, task.exe = some exe → exe.WithinLimits) :
    match decidingIndex c accepts ms.entries task with
    | some i => 0 ≤ (k.needsMarkUncached e alloc task).1 ∧
      k.matchIds e (k.needsMarkUncached e alloc task).2 = [i % 2 ^ 32]
    | none => (k.needsMarkUncached e alloc task).1 < 0 := by
  have hdecision : ∀ exe, task.exe = some exe → ∃ m, k.needsMarkUncached e alloc task =
      (firstDecision c accepts ms.entries exe.path task.uid, m) ∧
      ∀ m₀ i, decidingEntry c accepts ms.entries exe.path task.uid = some (m₀, i) →
        k.matchIds e m = [i % 2 ^ 32] := by
    intro exe hexe
    obtain ⟨m, hm⟩ := needsMarkUncached_firstDecision aligned first h.built (fit exe hexe)
      task.uid ⟨0, 0, 0⟩
    have hlarge := needsMarkUncached_extends h.holds.extends hm
    refine ⟨m.res, ?_, fun m₀ i hdecides => ?_⟩
    · rw [Kernel.needsMarkUncached, h.holds.getArena, h.masterDfa, hexe, hlarge]
      rfl
    · obtain ⟨_, m', hm', hlen, hword⟩ := needsMarkUncached_reports aligned first h.built
        (fit exe hexe) ⟨0, 0, 0⟩ hdecides
      obtain ⟨_, rfl⟩ := Prod.mk.inj (Option.some.inj (hm.symm.trans hm'))
      have hread := h.holds.extends.word hword
      simp [Kernel.matchIds, hlen, h.masterDfa, hread]
  unfold decidingIndex
  cases hexe : task.exe with
  | none => simp [Kernel.needsMarkUncached, Rebpf.needsMarkUncached, hexe]
  | some exe =>
    obtain ⟨m, hret, hids⟩ := hdecision exe hexe
    rw [Option.bind_some, hret, firstDecision_eq]
    cases hdecides : decidingEntry c accepts ms.entries exe.path task.uid with
    | none => exact (by decide : verdict none < 0)
    | some r => exact ⟨verdict_nonneg r.1, hids r.1 r.2 hdecides⟩

theorem decidingIndex_lt {i : Nat} (h : decidingIndex c accepts ms.entries task = some i) :
    i < ms.entries.length := by
  obtain ⟨exe, _, h⟩ := Option.bind_eq_some_iff.mp h
  obtain ⟨⟨m, j⟩, hdecides, rfl⟩ := Option.map_eq_some_iff.mp h
  obtain ⟨hfind, _⟩ := Option.filter_eq_some_iff.mp hdecides
  have hmem := List.mk_mem_zipIdx_iff_getElem?.mp (List.mem_of_find?_eq_some hfind)
  exact (List.getElem?_eq_some_iff.mp hmem).1

/-- With a fresh entry in the cache or none the decision is the one of now. -/
theorem Kernel.Fresh.needsMark (h : k.Fresh e alloc task) :
    ((k.needsMark e alloc task).1 < 0 ↔ (k.needsMarkUncached e alloc task).1 < 0) ∧
      (k.needsMark e alloc task).2.1 = (k.needsMarkUncached e alloc task).2 := by
  unfold Kernel.needsMark
  split
  next res hres =>
    rw [h res hres]
    exact ⟨Iff.rfl, rfl⟩
  next =>
    dsimp only
    split
    next hneg => exact ⟨iff_of_true (by decide : (-1 : Int) < 0) hneg, rfl⟩
    next hneg => exact ⟨iff_of_false (by simp) hneg, rfl⟩

theorem Kernel.Runs.hooked (h : k.Runs c e ms b out) (hook : Kernel.Hooked e alloc task k k') :
    k'.Runs c e ms b out := by
  obtain ⟨r, hbase, hlen, hbytes⟩ := h.holds
  have hsame : k'.base = k.base := by
    obtain ⟨hsame, _⟩ | ⟨_, hnone, _⟩ := hook.arena
    · exact hsame
    · rw [hbase] at hnone
      cases hnone
  exact ⟨h.built, hook.hasDfa.trans h.hasDfa, hook.alike.masterDfa.trans h.masterDfa,
    r, hsame.trans hbase, hlen, hbytes⟩

/-- The ids that are written for a file: that of the entry that decides on its task, if the
file is an inet socket. -/
def reportedIds (c : Crates) (accepts : Accepts) (ms : List Match) (file : Nat × Task) :
    List Nat :=
  if file.1 = afInet ∨ file.1 = afInet6 then (decidingIndex c accepts ms file.2).toList else []

/-- What is to hold of the tasks whose files are walked through: the cache is right about
them, and an identity stands for one of them. -/
structure Walked (e : Endian) (alloc : Nat → Option (Nat → UInt8)) (k : Kernel)
    (files : List (Nat × Task)) : Prop where
  fresh : ∀ file ∈ files, k.Fresh e alloc file.2
  fit : ∀ file ∈ files, ∀ exe, file.2.exe = some exe → exe.WithinLimits
  same : ∀ file ∈ files, ∀ other ∈ files, other.2.id = file.2.id → other.2 = file.2

theorem Kernel.Runs.dumpSocketProc (h : k.Runs c e ms b out) (aligned : c.PadsToWord)
    (first : c.LeftmostFirst accepts) (short : ms.entries.length ≤ 2 ^ 31) (family : Nat)
    (fresh : k.Fresh e alloc task) (fit : ∀ exe, task.exe = some exe → exe.WithinLimits) :
    (k.dumpSocketProc e alloc family task).1 =
        (reportedIds c accepts ms.entries (family, task)).flatMap (dumpEntry e · task.exeName) ∧
      Kernel.Hooked e alloc task k (k.dumpSocketProc e alloc family task).2 := by
  have hook := Kernel.needsMark_hooked e alloc h.hasDfa task
  have hruns := h.hooked hook
  have hdecides := h.decides alloc aligned first fit
  obtain ⟨hneg, hres⟩ := fresh.needsMark
  have hids : (k.needsMark e alloc task).2.2.matchIds e (k.needsMark e alloc task).2.1 =
      k.matchIds e (k.needsMarkUncached e alloc task).2 := by
    rw [hres]
    have hmem : (k.needsMark e alloc task).2.2.mem = k.mem := by
      have hbase := hook.alike.base
      rw [h.holds.getArena, hruns.holds.getArena] at hbase
      funext a
      simp only [Kernel.mem, hbase]
    simp only [Kernel.matchIds, hmem, hook.alike.masterDfa]
  unfold Kernel.dumpSocketProc reportedIds
  by_cases hinet : family = afInet ∨ family = afInet6
  · rw [if_neg (by omega), h.hasDfa, if_pos hinet]
    simp only [Bool.not_true, Bool.false_eq_true, if_false, hneg]
    cases hindex : decidingIndex c accepts ms.entries task with
    | none =>
      rw [hindex] at hdecides
      rw [if_pos hdecides]
      exact ⟨rfl, hook⟩
    | some i =>
      rw [hindex] at hdecides
      have hlt := decidingIndex_lt hindex
      rw [if_neg (Int.not_lt.mpr hdecides.1), hruns.holds.getArena, hids, hdecides.2,
        Nat.mod_eq_of_lt (by omega)]
      exact ⟨rfl, hook⟩
  · rw [if_pos (by omega), if_neg hinet]
    exact ⟨rfl, .refl task k⟩

/-- Without a DFA nothing is written. -/
theorem Kernel.dumpSocketProcs_unloaded (h : k.hasDfa = false) (files : List (Nat × Task)) :
    (k.dumpSocketProcs e alloc files).1 = [] := by
  induction files with
  | nil => rfl
  | cons file files ih =>
    have hone : k.dumpSocketProc e alloc file.1 file.2 = ([], k) := by
      unfold Kernel.dumpSocketProc
      split
      next => rfl
      next => rw [h]; rfl
    rw [Kernel.dumpSocketProcs, hone]
    exact ih

theorem Walked.tail {file : Nat × Task} {files : List (Nat × Task)}
    (h : Walked e alloc k (file :: files)) (hook : Kernel.Hooked e alloc file.2 k k') :
    Walked e alloc k' files where
  fresh other hother := (h.fresh other (List.mem_cons_of_mem _ hother)).hooked hook
    (h.same other (List.mem_cons_of_mem _ hother) file List.mem_cons_self)
  fit other hother := h.fit other (List.mem_cons_of_mem _ hother)
  same other hother another hanother :=
    h.same other (List.mem_cons_of_mem _ hother) another (List.mem_cons_of_mem _ hanother)

/-- The stream has one entry for each inet socket whose task an entry decides on. -/
theorem Kernel.Runs.dumpSocketProcs (h : k.Runs c e ms b out) (aligned : c.PadsToWord)
    (first : c.LeftmostFirst accepts) (short : ms.entries.length ≤ 2 ^ 31)
    {files : List (Nat × Task)} (walked : Walked e alloc k files) :
    (k.dumpSocketProcs e alloc files).1 = files.flatMap fun file =>
      (reportedIds c accepts ms.entries file).flatMap (dumpEntry e · file.2.exeName) := by
  induction files generalizing k with
  | nil => rfl
  | cons file files ih =>
    obtain ⟨hbytes, hook⟩ := h.dumpSocketProc aligned first short file.1
      (walked.fresh file List.mem_cons_self) (walked.fit file List.mem_cons_self)
    rw [Kernel.dumpSocketProcs, List.flatMap_cons, ← hbytes,
      ← ih (h.hooked hook) (walked.tail hook)]

end

end Rebpf
