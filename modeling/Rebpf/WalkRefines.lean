import Rebpf.Walk
import Rebpf.ArenaLayout

namespace Rebpf

open Lib

/-- A memory that holds the first `n` transitions of a dense DFA where the
kernel's descriptor says, closed under the transitions. -/
structure Walkable (e : Endian) (mem : Mem) (d : DenseDfa) (b : BpfDfa) (n : Nat) : Prop where
  words : n < 2 ^ 32
  eoi : b.eoi = d.eoi.val
  cls : ∀ byte, mem (b.dfaOff + byte.toNat) = some (d.byteClass byte)
  state : ∀ k, k < n → ∃ w, d.table[k]? = some w ∧ w + d.stride ≤ n ∧
    mem.word e (b.dfaOff + 256 + 4 * k) = some w
  fin_iff : ∀ s, s < n → ((b.finMin ≤ s ∧ s ≤ b.finMax) ↔ d.isMatchState s = true)

theorem Layout.walkable {e : Endian} {L : Layout} {d : DenseDfa} (x : Extracted d L.dfa)
    (full : L.dfa.ecTable.length = 256) (small : (L.bytes e).length < 2 ^ 32) :
    Walkable e (memOf (L.bytes e)) d (L.bpf e) L.dfa.trans.length := by
  have chain := L.length_chain e
  refine ⟨by omega, x.eoi, ?_, ?_, x.fin_iff⟩
  · intro byte
    have hb := byte.toNat_lt
    rw [L.read_class small full, x.ecTable, List.getElem?_map, List.getElem?_range (by omega)]
    simp
  · intro k hk
    obtain ⟨w, hw⟩ : ∃ w, L.dfa.trans[k]? = some w := ⟨_, List.getElem?_eq_getElem hk⟩
    have hin := x.closed w (List.mem_of_getElem? hw)
    have htable : d.table[k]? = some w := by
      rw [← hw, x.taken, List.getElem?_take_of_lt hk]
    refine ⟨w, htable, hin, ?_⟩
    rw [L.read_state small full hw, u32_of_lt (by have := d.stride_pos; omega)]

namespace Walkable

variable {e : Endian} {mem : Mem} {d : DenseDfa} {b : BpfDfa} {n : Nat}

theorem withStart (w : Walkable e mem d b n) (s : Nat) :
    Walkable e mem d { b with start := s } n :=
  ⟨w.words, w.eoi, w.cls, w.state, w.fin_iff⟩

theorem loop_run (w : Walkable e mem d b n) {s : Nat} (hs : s + d.stride ≤ n)
    (bytes : List UInt8) :
    ∃ t, matchRegexRevLoop e mem b bytes s = some t ∧ d.runBytes s bytes = some t ∧
      t + d.stride ≤ n := by
  induction bytes generalizing s with
  | nil => exact ⟨s, rfl, rfl, hs⟩
  | cons byte bytes ih =>
    by_cases hd : s = dead
    · refine ⟨s, by simp [matchRegexRevLoop, hd], ?_, hs⟩
      rw [hd, d.runBytes_dead]
    · have hc := d.class_lt byte
      have hwords := w.words
      obtain ⟨next, ht, hin, hread⟩ := w.state (s + (d.byteClass byte).toNat) (by omega)
      obtain ⟨t, hloop, hrun, hlt⟩ := ih hin
      refine ⟨t, ?_, ?_, hlt⟩
      · simp [matchRegexRevLoop, hd, w.cls, u32_of_lt (show s + (d.byteClass byte).toNat < 2 ^ 32 by omega),
          hread, hloop]
      · simp [DenseDfa.runBytes, DenseDfa.nextState, ht, hrun]

theorem match_run (w : Walkable e mem d b n) (hs : b.start + d.stride ≤ n) {input : List UInt8}
    (fit : input.length ≤ nameMax + 1) :
    ∃ t, matchRegexRev e mem input b = some (t != dead, { b with start := t }) ∧
      d.runBytes b.start input.reverse = some t ∧ t + d.stride ≤ n := by
  obtain ⟨t, hloop, hrun, hlt⟩ := w.loop_run hs input.reverse
  exact ⟨t, by simp [matchRegexRev, Nat.not_lt.mpr fit, hloop], hrun, hlt⟩

theorem fin_run (w : Walkable e mem d b n) (hs : b.start + d.stride ≤ n) :
    ∃ t, matchRegexRevFin e mem b = some (d.isMatchState t, { b with start := t }) ∧
      d.nextEoiState b.start = some t ∧ t + d.stride ≤ n := by
  by_cases hd : b.start = dead
  · have hb : { b with start := dead } = b := by rw [← hd]
    refine ⟨dead, ?_, by rw [hd, d.nextEoiState_dead], hd ▸ hs⟩
    rw [matchRegexRevFin, if_pos hd, d.not_isMatchState_dead, hb]
  · have he := d.eoi_lt
    have hwords := w.words
    obtain ⟨t, ht, hin, hread⟩ := w.state (b.start + d.eoi.val) (by omega)
    have hfin : (decide (b.finMin ≤ t) && decide (t ≤ b.finMax)) = d.isMatchState t := by
      rw [Bool.eq_iff_iff, ← w.fin_iff t (by have := d.stride_pos; omega)]
      simp
    refine ⟨t, ?_, ht, hin⟩
    simp [matchRegexRevFin, hd, w.eoi, u32_of_lt (show b.start + d.eoi.val < 2 ^ 32 by omega),
      hread, hfin]

/-- What the walk answers from a dentry: the state the whole rest of the path
and the end of input lead to decides it, also where the walk stops early. -/
def Answers (d : DenseDfa) (b : BpfDfa) (n : Nat) (path : List UInt8)
    (r : Option (Bool × BpfDfa)) : Prop :=
  ∃ t ret b', r = some (ret, b') ∧ t + d.stride ≤ n ∧
    (d.runBytes b.start path.reverse).bind d.nextEoiState = some t ∧ ret = d.isMatchState t ∧
    (ret = true → b' = { b with start := t })

theorem answers_fin (w : Walkable e mem d b n) (hs : b.start + d.stride ≤ n) :
    Answers d b n [] (matchRegexRevFin e mem b) := by
  obtain ⟨t, hfin, heoi, hin⟩ := w.fin_run hs
  exact ⟨t, _, _, hfin, hin, by simp [DenseDfa.runBytes, heoi], rfl, fun _ => rfl⟩

theorem answers_dead {b' : BpfDfa} {path : List UInt8} (hn : d.stride ≤ n)
    (h : d.runBytes b.start path.reverse = some dead) : Answers d b n path (some (false, b')) :=
  ⟨dead, false, b', rfl, by simpa [dead] using hn, by simp [h, d.nextEoiState_dead],
    by rw [d.not_isMatchState_dead], by simp⟩

theorem answers_component (w : Walkable e mem d b n) (hs : b.start + d.stride ≤ n)
    {name rest : List UInt8} (fit : name.length ≤ nameMax + 1)
    {next : BpfDfa → Option (Bool × BpfDfa)}
    (hnext : ∀ s, s + d.stride ≤ n → Answers d { b with start := s } n rest
      (next { b with start := s })) :
    Answers d b n (rest ++ slash :: name) (do
      let (go, dfa) ← matchRegexRev e mem name b
      if go = false then some (false, dfa)
      else do
        let (go, dfa) ← matchRegexRev e mem [slash] dfa
        if go = false then some (false, dfa)
        else next dfa) := by
  obtain ⟨s, hmatch, hrun, hlt⟩ := w.match_run hs fit
  have fitSlash : [slash].length ≤ nameMax + 1 := by simp [nameMax]
  obtain ⟨t, hmatch', hrun', hlt'⟩ := (w.withStart s).match_run hlt fitSlash
  have hpath : (rest ++ slash :: name).reverse = name.reverse ++ [slash].reverse ++ rest.reverse := by
    simp
  have hto : d.runBytes b.start (name.reverse ++ [slash].reverse) = some t := by
    rw [d.runBytes_append, hrun]
    exact hrun'
  have htotal : d.runBytes b.start (rest ++ slash :: name).reverse = d.runBytes t rest.reverse := by
    rw [hpath, d.runBytes_append, hto]
    rfl
  by_cases hsd : s = dead
  · have htd : t = dead := by
      have hd := d.runBytes_dead [slash].reverse
      rw [← hsd] at hd
      exact Option.some.inj (hrun'.symm.trans (hd.trans (by rw [hsd])))
    simp only [hmatch, hsd, Option.bind_eq_bind, Option.bind_some, bne_self_eq_false, if_true]
    exact answers_dead (by omega) (by rw [htotal, htd, d.runBytes_dead])
  · have hgo : (s != dead) = true := by simpa using hsd
    simp only [hmatch, hgo, Option.bind_eq_bind, Option.bind_some, Bool.true_eq_false, if_false,
      hmatch']
    by_cases htd : t = dead
    · simp only [htd, bne_self_eq_false, if_true]
      exact answers_dead (by omega) (by rw [htotal, htd, d.runBytes_dead])
    · have hgo' : (t != dead) = true := by simpa using htd
      simp only [hgo', Bool.true_eq_false, if_false]
      obtain ⟨v, ret, b', hr, hin, hv, hret, hb⟩ := hnext t hlt'
      exact ⟨v, ret, b', hr, hin, by rw [htotal]; exact hv, hret, hb⟩

theorem answers_loop (w : Walkable e mem d b n) (hs : b.start + d.stride ≤ n) {rounds : Nat}
    {dent : Dentry} (enough : dent.components ≤ rounds) (fit : dent.NamesFit) :
    Answers d b n dent.path (matchRegexRevPathLoop e mem rounds dent b) := by
  induction dent generalizing rounds b with
  | root name =>
    by_cases hn : name = [slash]
    · have hp : (Dentry.root name).path = [] := by simp [Dentry.path, hn]
      rw [hp]
      cases rounds with
      | zero => exact w.answers_fin hs
      | succ rounds =>
        rw [matchRegexRevPathLoop, if_pos (by exact hn)]
        exact w.answers_fin hs
    · cases rounds with
      | zero => simp [Dentry.components, hn] at enough
      | succ rounds =>
        have hp : (Dentry.root name).path = [] ++ slash :: name := by simp [Dentry.path, hn]
        rw [matchRegexRevPathLoop, if_neg (by exact hn), hp]
        exact w.answers_component hs fit (fun s h => (w.withStart s).answers_fin h)
  | child name parent ih =>
    by_cases hn : name = [slash]
    · have hp : (Dentry.child name parent).path = [] := by simp [Dentry.path, hn]
      rw [hp]
      cases rounds with
      | zero => exact w.answers_fin hs
      | succ rounds =>
        rw [matchRegexRevPathLoop, if_pos (by exact hn)]
        exact w.answers_fin hs
    · cases rounds with
      | zero => simp [Dentry.components, hn] at enough
      | succ rounds =>
        have hp : (Dentry.child name parent).path = parent.path ++ slash :: name := by
          simp [Dentry.path, hn]
        have hrounds : parent.components ≤ rounds := by
          simpa [Dentry.components, hn] using enough
        rw [matchRegexRevPathLoop, if_neg (by exact hn), hp]
        exact w.answers_component hs fit.1 (fun s h => ih (w.withStart s) h hrounds fit.2)

end Walkable

theorem Layout.path_run {e : Endian} {L : Layout} {d : DenseDfa} {dent : Dentry}
    (x : Extracted d L.dfa) (full : L.dfa.ecTable.length = 256)
    (small : (L.bytes e).length < 2 ^ 32) (fit : dent.WithinLimits) :
    ∃ t ret b', matchRegexRevPath e (memOf (L.bytes e)) dent (L.bpf e) = some (ret, b') ∧
      t + d.stride ≤ L.dfa.trans.length ∧ d.search dent.path.reverse = some t ∧
      ret = d.isMatchState t ∧ (ret = true → b' = { L.bpf e with start := t }) := by
  obtain ⟨t, ret, b', hr, hin, hrun, hret, hb⟩ :=
    (L.walkable x full small).answers_loop x.start_inside fit.1 fit.2
  refine ⟨t, ret, b', hr, hin, ?_, hret, hb⟩
  rw [← hrun, DenseDfa.search, x.start]
  rfl

/-- The walk over the encoded arena stays inside it, and ends in a match state
exactly when the dense DFA does on the reversed path string. -/
theorem matchRegexRevPath_refines {c : Crates} {e : Endian} (aligned : c.PadsToWord)
    {pats : List String} {d : DenseDfa} {arena out : List UInt8} {patIdMap : List Nat}
    {ms : List Match} {b : BpfDfa} {dent : Dentry} (hd : buildDfa c pats true = .ok d)
    (h : encodeDfa c e pats arena patIdMap ms = .ok (b, out)) (small : out.length < 2 ^ 32)
    (fit : dent.WithinLimits) :
    ∃ ret b', matchRegexRevPath e (memOf out) dent b = some (ret, b') ∧
      ∀ s, (ret = true ∧ b'.start = s) ↔
        (d.search dent.path.reverse = some s ∧ d.isMatchState s = true) := by
  obtain ⟨L, hx, _, _, _, full, rfl, rfl⟩ := encodeDfa_layout aligned h
  rw [extractDfa, hd] at hx
  obtain ⟨t, ret, b', hr, _, hsearch, hret, hb⟩ :=
    L.path_run (extract_extracted hx) full small fit
  refine ⟨ret, b', hr, fun s => ?_⟩
  constructor
  · rintro ⟨hgo, rfl⟩
    rw [hb hgo]
    exact ⟨hsearch, by rw [← hret, hgo]⟩
  · rintro ⟨hs, hm⟩
    obtain rfl := Option.some.inj (hsearch.symm.trans hs)
    have hgo : ret = true := hret.trans hm
    exact ⟨hgo, by rw [hb hgo]⟩

theorem matchRegexRevPath_refines_slashA :
    ∃ ret b', matchRegexRevPath .little (memOf (slashAArena .redirect 7)) slashA slashABpf =
        some (ret, b') ∧
      ∀ s, (ret = true ∧ b'.start = s) ↔
        (slashADfa.search slashA.path.reverse = some s ∧ slashADfa.isMatchState s = true) :=
  matchRegexRevPath_refines slashACrates_padsToWord rfl
    (@slashARule_encodes ["^/a$"] rfl .redirect 7 [] [])
    (by decide +kernel) slashA_withinLimits

end Rebpf
