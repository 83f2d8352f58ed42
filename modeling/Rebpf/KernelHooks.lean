import Rebpf.Kernel

namespace Rebpf

open Lib

namespace Kernel

variable {e : Endian} {alloc : Nat → Option (Nat → UInt8)} {k k' : Kernel} {task : Task}

theorem needsMarkUncached_eq (e : Endian) (alloc : Nat → Option (Nat → UInt8)) (k : Kernel)
    (task : Task) : ∃ m, Rebpf.needsMarkUncached e (k.getArena alloc).mem task.exe
      ⟨task.uid, k.masterDfa, ⟨0, 0, 0⟩⟩ = some ((k.needsMarkUncached e alloc task).1, m) ∧
        m.res = (k.needsMarkUncached e alloc task).2 := by
  obtain ⟨⟨ret, m⟩, h⟩ := needsMarkUncached_total (e := e) (k.getArena alloc).mem_total task.exe
    ⟨task.uid, k.masterDfa, ⟨0, 0, 0⟩⟩
  exact ⟨m, by simp [Kernel.needsMarkUncached, h], by simp [Kernel.needsMarkUncached, h]⟩

theorem needsMarkUncached_ret (h : 0 ≤ (k.needsMarkUncached e alloc task).1) :
    k.needsMarkUncached e alloc task =
      (((k.needsMarkUncached e alloc task).2.redirect : Int),
        (k.needsMarkUncached e alloc task).2) := by
  obtain ⟨m, hm, hres⟩ := needsMarkUncached_eq e alloc k task
  obtain hneg | hret := Rebpf.needsMarkUncached_ret hm
  · omega
  · rw [hres] at hret
    exact Prod.ext hret rfl

theorem getArena_getArena (k : Kernel) : (k.getArena alloc).getArena alloc = k.getArena alloc := by
  by_cases h : k.base.isSome = true
  · simp [getArena, h]
  · by_cases h0 : k.basePages = 0
    · cases ha : allocPages alloc 1 <;> simp [getArena, h, h0, ha]
    · cases ha : allocPages alloc k.basePages <;> simp [getArena, h, h0, ha]

structure Alike (alloc : Nat → Option (Nat → UInt8)) (k k' : Kernel) : Prop where
  masterDfa : k'.masterDfa = k.masterDfa
  base : (k'.getArena alloc).base = (k.getArena alloc).base

theorem Alike.refl (k : Kernel) : Alike alloc k k := ⟨rfl, rfl⟩

theorem Alike.trans {k'' : Kernel} (h : Alike alloc k k') (h' : Alike alloc k' k'') :
    Alike alloc k k'' :=
  ⟨h'.masterDfa.trans h.masterDfa, h'.base.trans h.base⟩

theorem Alike.needsMarkUncached (h : Alike alloc k k') (task : Task) :
    k'.needsMarkUncached e alloc task = k.needsMarkUncached e alloc task := by
  have hmem : (k'.getArena alloc).mem = (k.getArena alloc).mem := by
    funext a
    simp only [mem, h.base]
  simp only [Kernel.needsMarkUncached, h.masterDfa, hmem]

theorem alike_taskCache (k : Kernel) (cache : TaskId → Option MatchRes) :
    Alike alloc k { k with taskCache := cache } := by
  refine ⟨rfl, ?_⟩
  by_cases h : k.base.isSome = true <;> simp [getArena, h]

/-- What a hook may change: it sees to it that the arena is there, and it stores
decisions for the task it runs for. -/
structure Hooked (e : Endian) (alloc : Nat → Option (Nat → UInt8)) (task : Task) (k k' : Kernel) :
    Prop where
  config : k'.config = k.config
  hasDfa : k'.hasDfa = k.hasDfa
  lastGen : k'.lastGen = k.lastGen
  alike : Alike alloc k k'
  arena : (k'.base = k.base ∧ k'.basePages = k.basePages) ∨
    (k.hasDfa = true ∧ k.base = none ∧ ∀ r, k'.base = some r → r.pages = k'.basePages)
  cache : ∀ id, k'.taskCache id = k.taskCache id ∨
    (k.taskCache id = none ∧ id = task.id ∧ k.hasDfa = true ∧
      0 ≤ (k.needsMarkUncached e alloc task).1 ∧
      k'.taskCache id = some (k.needsMarkUncached e alloc task).2)

theorem Hooked.refl (task : Task) (k : Kernel) : Hooked e alloc task k k :=
  ⟨rfl, rfl, rfl, .refl k, Or.inl ⟨rfl, rfl⟩, fun _ => Or.inl rfl⟩

theorem hooked_afterUncached (e : Endian) (alloc : Nat → Option (Nat → UInt8))
    (hd : k.hasDfa = true) (task : Task) :
    Hooked e alloc task k (k.afterUncached alloc task) := by
  unfold afterUncached
  split
  next =>
    have hbase : Alike alloc k (k.getArena alloc) := by
      refine ⟨?_, by rw [getArena_getArena]⟩
      unfold getArena
      split <;> rfl
    by_cases hb : k.base.isSome = true
    · have hsame : k.getArena alloc = k := by simp [getArena, hb]
      rw [hsame]
      exact .refl task k
    · have hnone : k.base = none := by simpa using hb
      have hget : k.getArena alloc = { k with
          basePages := if k.basePages = 0 then 1 else k.basePages
          base := allocPages alloc (if k.basePages = 0 then 1 else k.basePages) } := by
        simp [getArena, hnone]
      refine ⟨by rw [hget], by rw [hget], by rw [hget], hbase, Or.inr ⟨hd, hnone, fun r hr => ?_⟩,
        fun _ => Or.inl (by rw [hget])⟩
      rw [hget] at hr ⊢
      obtain ⟨bytes, _, rfl⟩ := Option.map_eq_some_iff.mp hr
      rfl
  next => exact .refl task k

theorem needsMark_hooked (e : Endian) (alloc : Nat → Option (Nat → UInt8))
    (hd : k.hasDfa = true) (task : Task) :
    Hooked e alloc task k (k.needsMark e alloc task).2.2 := by
  unfold needsMark
  have h := hooked_afterUncached e alloc hd task
  split
  next => exact .refl task k
  next hnone =>
    dsimp only
    split
    next => exact h
    next hret =>
      refine ⟨h.config, h.hasDfa, h.lastGen, h.alike.trans (alike_taskCache _ _), h.arena,
        fun id => ?_⟩
      dsimp only
      by_cases hid : id = task.id
      · subst hid
        exact Or.inr ⟨hnone, rfl, hd, by omega, Function.update_self _ _ _⟩
      · rw [Function.update_of_ne hid]
        exact h.cache id

theorem cgroupSocketCreate_hooked (e : Endian) (alloc : Nat → Option (Nat → UInt8))
    (k : Kernel) (family : Nat) (task : Task) :
    Hooked e alloc task k (k.cgroupSocketCreate e alloc family task).2 := by
  unfold cgroupSocketCreate
  split
  next => exact .refl task k
  next =>
    split
    next => exact .refl task k
    next =>
      split
      next => exact .refl task k
      next hd =>
        have h := needsMark_hooked e alloc (by simpa using hd) task
        dsimp only
        split <;> exact h

theorem refreshSocket_hooked (e : Endian) (alloc : Nat → Option (Nat → UInt8))
    (k : Kernel) (family : Nat) (task : Task) :
    Hooked e alloc task k (k.refreshSocket e alloc family task).2 := by
  unfold refreshSocket
  split
  next => exact .refl task k
  next =>
    split
    next => exact .refl task k
    next hd =>
      have h := needsMark_hooked e alloc (by simpa using hd) task
      dsimp only
      split <;> exact h

/-- The entry for a task, if there is one, is what `needs_mark_uncached`
computes for it now. -/
def Fresh (e : Endian) (alloc : Nat → Option (Nat → UInt8)) (k : Kernel) (task : Task) : Prop :=
  ∀ res, k.taskCache task.id = some res →
    k.needsMarkUncached e alloc task = ((res.redirect : Int), res)

/-- An entry found for a task after a hook for it, or for a task with another
identity, was there before or is what is decided for the task now. -/
theorem Hooked.entry {other : Task} (hook : Hooked e alloc other k k')
    (same : other.id = task.id → other = task) {res : MatchRes}
    (hres : k'.taskCache task.id = some res) :
    k.taskCache task.id = some res ∨
      k'.needsMarkUncached e alloc task = ((res.redirect : Int), res) := by
  obtain hkeep | ⟨_, hid, _, hret, hstored⟩ := hook.cache task.id
  · exact Or.inl (hkeep ▸ hres)
  · obtain rfl := same hid.symm
    rw [hstored] at hres
    rw [hook.alike.needsMarkUncached, needsMarkUncached_ret hret, Option.some.inj hres]
    exact Or.inr rfl

theorem Fresh.hooked {other : Task} (h : Fresh e alloc k task) (hook : Hooked e alloc other k k')
    (same : other.id = task.id → other = task) : Fresh e alloc k' task := by
  intro res hres
  obtain hold | hnew := hook.entry same hres
  · rw [hook.alike.needsMarkUncached]
    exact h res hold
  · exact hnew

end Kernel

end Rebpf
