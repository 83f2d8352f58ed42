import Mathlib.Data.List.Find
import Mathlib.Data.List.Nodup
import Mathlib.Tactic.Common

namespace Rebpf.Lib

universe u v w

variable {κ : Type u} {ν : Type v} {β : Type w}

/-- A map in which keys count as equal when `norm` makes them equal. An entry
keeps the spelling of the key it was made with. -/
structure SpelledMap (norm : κ → ν) (β : Type w) where
  entries : List (κ × β)
  nodup : (entries.map fun entry => norm entry.1).Nodup

namespace SpelledMap

variable {norm : κ → ν}

def empty (norm : κ → ν) (β : Type w) : SpelledMap norm β := ⟨[], List.nodup_nil⟩

def keys (m : SpelledMap norm β) : List κ := m.entries.map (·.1)

theorem keys_nodup (m : SpelledMap norm β) : (m.keys.map norm).Nodup := by
  rw [keys, List.map_map]
  exact m.nodup

def retain (m : SpelledMap norm β) (test : κ → Bool) : SpelledMap norm β where
  entries := m.entries.filter fun entry => test entry.1
  nodup := m.nodup.sublist (List.filter_sublist.map _)

theorem keys_retain (m : SpelledMap norm β) (test : κ → Bool) :
    (m.retain test).keys = m.keys.filter test := by
  rw [keys, keys, retain, List.filter_map]
  rfl

variable [DecidableEq ν]

def lookup (m : SpelledMap norm β) (k : κ) : Option β :=
  (m.entries.find? fun entry => norm entry.1 = norm k).map (·.2)

theorem lookup_eq_none {m : SpelledMap norm β} {k : κ} :
    m.lookup k = none ↔ norm k ∉ m.entries.map fun entry => norm entry.1 := by
  rw [lookup, Option.map_eq_none_iff, List.find?_eq_none, List.mem_map]
  constructor
  · rintro h ⟨entry, hentry, heq⟩
    exact h entry hentry (decide_eq_true heq)
  · intro h entry hentry heq
    exact h ⟨entry, hentry, of_decide_eq_true heq⟩

def remove (m : SpelledMap norm β) (k : κ) : SpelledMap norm β :=
  m.retain fun k' => norm k' ≠ norm k

theorem keys_remove (m : SpelledMap norm β) (k : κ) :
    (m.remove k).keys = m.keys.filter fun k' => norm k' ≠ norm k :=
  m.keys_retain _

theorem keys_remove_perm {m : SpelledMap norm β} {k : κ} {ks : List κ}
    (h : (k :: ks).Perm m.keys) : ks.Perm (m.remove k).keys := by
  have hnodup := (h.map norm).nodup_iff.mpr m.keys_nodup
  obtain ⟨hk, _⟩ := List.nodup_cons.mp hnodup
  have hfilter := h.filter fun k' => norm k' ≠ norm k
  rw [List.filter_cons_of_neg (by simp), List.filter_eq_self.mpr] at hfilter
  · rw [keys_remove]
    exact hfilter
  · intro k' hk'
    refine decide_eq_true fun heq => ?_
    exact hk (heq ▸ List.mem_map_of_mem hk')

/-- The same up to the spelling of the keys. -/
theorem keys_remove_norm {m : SpelledMap norm β} {k : κ} {ns : List ν}
    (h : (norm k :: ns).Perm (m.keys.map norm)) : ns.Perm ((m.remove k).keys.map norm) := by
  obtain ⟨hk, _⟩ := List.nodup_cons.mp (h.nodup_iff.mpr m.keys_nodup)
  have hfilter := h.filter fun n => n ≠ norm k
  have hkeep : ns.filter (fun n => n ≠ norm k) = ns := by
    refine List.filter_eq_self.mpr fun n hn => decide_eq_true fun heq => ?_
    exact hk (heq ▸ hn)
  rw [List.filter_cons_of_neg (by simp), hkeep, List.filter_map] at hfilter
  rw [keys_remove]
  exact hfilter

theorem lookup_remove_self (m : SpelledMap norm β) (k : κ) : (m.remove k).lookup k = none := by
  rw [lookup, Option.map_eq_none_iff, List.find?_eq_none]
  intro entry hentry heq
  exact of_decide_eq_true (List.mem_filter.mp hentry).2 (of_decide_eq_true heq)

theorem lookup_remove_ne (m : SpelledMap norm β) {k k' : κ} (h : norm k' ≠ norm k) :
    (m.remove k).lookup k' = m.lookup k' := by
  rw [lookup, lookup, remove, retain, List.find?_filter]
  congr 2
  funext entry
  by_cases hk : norm entry.1 = norm k'
  · simp [hk, h]
  · simp [hk]

theorem lookup_congr (m : SpelledMap norm β) {k k' : κ} (h : norm k = norm k') :
    m.lookup k = m.lookup k' := by
  rw [lookup, lookup, h]

/-- A key that is retained in the spelling the map has for it keeps its value. -/
theorem lookup_retain {m : SpelledMap norm β} {k : κ} {test : κ → Bool} (hk : k ∈ m.keys)
    (htest : test k = true) : (m.retain test).lookup k = m.lookup k := by
  rw [lookup, lookup, retain, List.find?_filter]
  congr 1
  obtain ⟨kept, hkept, rfl⟩ := List.mem_map.mp hk
  have honly : ∀ entry ∈ m.entries, norm entry.1 = norm kept.1 → entry = kept :=
    fun entry hentry heq => List.inj_on_of_nodup_map m.nodup hentry hkept heq
  refine List.find?_congr fun entry hentry => ?_
  by_cases heq : norm entry.1 = norm kept.1
  · simp [honly entry hentry heq, htest]
  · simp [heq]

def setEntry (norm : κ → ν) (k : κ) (v : β) (entry : κ × β) : κ × β :=
  if norm entry.1 = norm k then (entry.1, v) else entry

theorem setEntry_key (k : κ) (v : β) (entry : κ × β) : (setEntry norm k v entry).1 = entry.1 := by
  unfold setEntry
  split <;> rfl

/-- Sets the value of an entry that is there, or adds one in the given spelling. -/
def insert (m : SpelledMap norm β) (k : κ) (v : β) : SpelledMap norm β :=
  if h : norm k ∈ m.entries.map fun entry => norm entry.1 then
    { entries := m.entries.map (setEntry norm k v)
      nodup := by
        simp only [List.map_map, Function.comp_def, setEntry_key]
        exact m.nodup }
  else
    { entries := m.entries ++ [(k, v)]
      nodup := by
        rw [List.map_append]
        exact m.nodup.append (List.nodup_singleton _) (by simpa using h) }

theorem keys_insert_some {m : SpelledMap norm β} {k : κ} (h : m.lookup k ≠ none) (v : β) :
    (m.insert k v).keys = m.keys := by
  have hmem := not_not.mp (mt lookup_eq_none.mpr h)
  rw [insert, dif_pos hmem]
  simp only [keys, List.map_map, Function.comp_def, setEntry_key]

theorem keys_insert_none {m : SpelledMap norm β} {k : κ} (h : m.lookup k = none) (v : β) :
    (m.insert k v).keys = m.keys ++ [k] := by
  rw [insert, dif_neg (lookup_eq_none.mp h)]
  simp only [keys, List.map_append, List.map_cons, List.map_nil]

theorem lookup_insert_ne (m : SpelledMap norm β) {k k' : κ} (h : norm k' ≠ norm k) (v : β) :
    (m.insert k v).lookup k' = m.lookup k' := by
  unfold insert lookup
  split
  · rw [List.find?_map, Option.map_map]
    simp only [Function.comp_def, setEntry_key]
    cases hfind : m.entries.find? fun entry => norm entry.1 = norm k' with
    | none => rfl
    | some entry =>
      have hkey : norm entry.1 = norm k' := by simpa using List.find?_some hfind
      have hne : ¬norm entry.1 = norm k := fun heq => h (hkey.symm.trans heq)
      rw [Option.map_some, Option.map_some, setEntry, if_neg hne]
  · have hk : ¬norm k = norm k' := fun heq => h heq.symm
    rw [List.find?_append, List.find?_cons_of_neg (by simpa using hk)]
    simp

theorem lookup_insert_self (m : SpelledMap norm β) (k : κ) (v : β) :
    (m.insert k v).lookup k = some v := by
  unfold insert lookup
  split
  next hmem =>
    obtain ⟨entry, hentry, hkey⟩ := List.mem_map.mp hmem
    rw [List.find?_map, Option.map_map]
    simp only [Function.comp_def, setEntry_key]
    cases hfind : m.entries.find? fun entry => norm entry.1 = norm k with
    | none =>
      have hno := List.find?_eq_none.mp hfind entry hentry
      exact absurd hkey (by simpa using hno)
    | some found =>
      have hfound : norm found.1 = norm k := by simpa using List.find?_some hfind
      rw [Option.map_some, setEntry, if_pos hfound]
  next hmem =>
    have hnone : m.entries.find? (fun entry => norm entry.1 = norm k) = none := by
      refine List.find?_eq_none.mpr fun entry hentry hkey => ?_
      exact hmem (List.mem_map.mpr ⟨entry, hentry, of_decide_eq_true hkey⟩)
    rw [List.find?_append, hnone, Option.none_or, List.find?_cons_of_pos (by simp)]
    rfl

theorem lookup_eq_none_keys {m : SpelledMap norm β} {k : κ} :
    m.lookup k = none ↔ norm k ∉ m.keys.map norm := by
  rw [lookup_eq_none, keys, List.map_map]
  rfl

theorem lookup_insert_eq_none {m : SpelledMap norm β} {k k' : κ} {v : β} :
    (m.insert k v).lookup k' = none ↔ m.lookup k' = none ∧ norm k' ≠ norm k := by
  by_cases hsame : norm k' = norm k
  · refine iff_of_false ?_ fun h => h.2 hsame
    rw [lookup_eq_none_keys, hsame, not_not]
    cases h : m.lookup k with
    | none =>
      rw [keys_insert_none h, List.map_append]
      exact List.mem_append_right _ (List.mem_singleton_self _)
    | some v' =>
      have hthere : m.lookup k ≠ none := by simp [h]
      rw [keys_insert_some hthere]
      exact not_not.mp (mt lookup_eq_none_keys.mpr hthere)
  · rw [lookup_insert_ne m hsame]
    exact (and_iff_left hsame).symm

end SpelledMap

end Rebpf.Lib
