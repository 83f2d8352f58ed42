import Rebpf.KernelHooks
import Rebpf.Lib.Run

namespace Rebpf

open Lib

/-- The kernel with the tasks that run on it. An identity is never given out twice. -/
structure Host where
  kernel : Kernel
  tasks : TaskId → Option Task
  started : List TaskId

def Host.init : Host := { kernel := .init, tasks := fun _ => none, started := [] }

inductive HostEvent
  | start (task : Task)
  | exec (id : TaskId) (exe : Option Dentry)
  | setuid (id : TaskId) (uid : UInt32)
  | exit (id : TaskId)
  | evict (id : TaskId)
  | socket (family : Nat) (id : TaskId)
  | reload (conf : BpfConfig)

section

variable (e : Endian) (alloc : Nat → Option (Nat → UInt8))

def Host.step (s : Host) : HostEvent → Option Host
  | .start task =>
    if task.id ∈ s.started then none
    else some { s with tasks := Function.update s.tasks task.id (some task)
                       started := task.id :: s.started }
  | .exec id exe => do
    let task ← s.tasks id
    return { s with tasks := Function.update s.tasks id (some { task with exe }) }
  | .setuid id uid => do
    let task ← s.tasks id
    return { s with tasks := Function.update s.tasks id (some { task with uid }) }
  | .exit id => some { s with tasks := Function.update s.tasks id none }
  | .evict id =>
    some { s with kernel :=
      { s.kernel with taskCache := Function.update s.kernel.taskCache id none } }
  | .socket family id => do
    let task ← s.tasks id
    return { s with kernel := (s.kernel.cgroupSocketCreate e alloc family task).2 }
  | .reload conf => do
    let kernel ← s.kernel.bpfReloadConfig alloc conf
    return { s with kernel }

/-- Turning one task into another does no harm while the cache has no entry for
it, or if both are decided alike. -/
def Host.Unnoticed (s : Host) (id : TaskId) (change : Task → Task) : Prop :=
  s.kernel.taskCache id = none ∨ ∀ task, s.tasks id = some task →
    (s.kernel.needsMarkUncached e alloc (change task)).1 =
      (s.kernel.needsMarkUncached e alloc task).1

def Host.Steady (s : Host) : HostEvent → Prop
  | .exec id exe => s.Unnoticed e alloc id fun task => { task with exe }
  | .setuid id uid => s.Unnoticed e alloc id fun task => { task with uid }
  | _ => True

def Kernel.Right (k : Kernel) (task : Task) : Prop :=
  ∀ res, k.taskCache task.id = some res →
    (k.needsMarkUncached e alloc task).1 = (res.redirect : Int)

structure Host.Inv (s : Host) : Prop where
  identity : ∀ id task, s.tasks id = some task → task.id = id ∧ id ∈ s.started
  cached : ∀ id, s.kernel.taskCache id ≠ none → id ∈ s.started
  right : ∀ id task, s.tasks id = some task → s.kernel.Right e alloc task

end

variable {e : Endian} {alloc : Nat → Option (Nat → UInt8)} {s t : Host}

theorem Kernel.Right.needsMark {k : Kernel} {task : Task} (h : k.Right e alloc task) :
    (k.needsMark e alloc task).1 = (k.needsMarkUncached e alloc task).1 := by
  unfold Kernel.needsMark
  split
  next res hres => exact (h res hres).symm
  next =>
    dsimp only
    split
    next hneg =>
      obtain ⟨m, hm, _⟩ := needsMarkUncached_eq e alloc k task
      obtain hret | hret := Rebpf.needsMarkUncached_ret hm
      · exact hret.symm
      · omega
    next hneg =>
      rw [needsMarkUncached_ret (Int.not_lt.mp hneg)]

theorem Host.inv_init : Host.init.Inv e alloc :=
  ⟨by simp [init], by simp [init, Kernel.init], by simp [init]⟩

theorem Host.Inv.update {id : TaskId} {new : Option Task} {started : List TaskId}
    (h : s.Inv e alloc) (more : ∀ id ∈ s.started, id ∈ started)
    (hnew : ∀ task, new = some task →
      task.id = id ∧ id ∈ started ∧ s.kernel.Right e alloc task) :
    Host.Inv e alloc { s with tasks := Function.update s.tasks id new, started } := by
  have lookup : ∀ id' task, Function.update s.tasks id new id' = some task →
      (id' = id ∧ new = some task) ∨ s.tasks id' = some task := by
    intro id' task htask
    by_cases heq : id' = id
    · subst heq
      rw [Function.update_self] at htask
      exact Or.inl ⟨rfl, htask⟩
    · rw [Function.update_of_ne heq] at htask
      exact Or.inr htask
  refine ⟨fun id' task htask => ?_, fun id' hne => more id' (h.cached id' hne),
    fun id' task htask => ?_⟩
  · obtain ⟨rfl, hsome⟩ | hold := lookup id' task htask
    · exact ⟨(hnew task hsome).1, (hnew task hsome).2.1⟩
    · exact ⟨(h.identity id' task hold).1, more id' (h.identity id' task hold).2⟩
  · obtain ⟨rfl, hsome⟩ | hold := lookup id' task htask
    · exact (hnew task hsome).2.2
    · exact h.right id' task hold

theorem Host.Inv.change {id : TaskId} {task : Task} {change : Task → Task} (h : s.Inv e alloc)
    (ok : s.Unnoticed e alloc id change) (htask : s.tasks id = some task)
    (hid : (change task).id = task.id) :
    Host.Inv e alloc { s with tasks := Function.update s.tasks id (some (change task)) } := by
  obtain ⟨rfl, hstarted⟩ := h.identity id task htask
  refine h.update (fun _ hmem => hmem) fun new hnew => ?_
  cases Option.some.inj hnew
  refine ⟨hid, hstarted, fun res hres => ?_⟩
  rw [hid] at hres
  obtain hnone | hsame := ok
  · rw [hnone] at hres
    cases hres
  · rw [hsame task htask]
    exact h.right _ task htask res hres

theorem Host.Inv.kernel {kernel : Kernel} (h : s.Inv e alloc)
    (entry : ∀ id, kernel.taskCache id ≠ none → s.kernel.taskCache id ≠ none ∨ id ∈ s.started)
    (right : ∀ id task, s.tasks id = some task → kernel.Right e alloc task) :
    Host.Inv e alloc { s with kernel } :=
  ⟨h.identity, fun id hne => (entry id hne).elim (h.cached id) fun hmem => hmem, right⟩

theorem Host.Inv.start {task : Task} (h : s.Inv e alloc) (hnew : task.id ∉ s.started) :
    Host.Inv e alloc { s with
      tasks := Function.update s.tasks task.id (some task)
      started := task.id :: s.started } := by
  refine h.update (fun _ hmem => List.mem_cons_of_mem _ hmem) fun task' htask => ?_
  cases Option.some.inj htask
  refine ⟨rfl, List.mem_cons_self, fun res hres => ?_⟩
  exact absurd (h.cached task.id (hres ▸ Option.some_ne_none res)) hnew

theorem Host.Inv.evict (h : s.Inv e alloc) (id : TaskId) :
    Host.Inv e alloc { s with
      kernel := { s.kernel with taskCache := Function.update s.kernel.taskCache id none } } := by
  have lost : ∀ id' res, Function.update s.kernel.taskCache id none id' = some res →
      s.kernel.taskCache id' = some res := by
    intro id' res hres
    by_cases heq : id' = id
    · rw [heq, Function.update_self] at hres
      cases hres
    · rwa [Function.update_of_ne heq] at hres
  refine h.kernel (fun id' hne => Or.inl ?_) fun id' task htask res hres => ?_
  · obtain ⟨res, hres⟩ := Option.ne_none_iff_exists'.mp hne
    rw [lost id' res hres]
    exact Option.some_ne_none res
  · rw [(Kernel.alike_taskCache s.kernel _).needsMarkUncached]
    exact h.right id' task htask res (lost _ res hres)

/-- The hook stores an entry for its own task only, and no other task has its identity. -/
theorem Host.Inv.socket {task : Task} (h : s.Inv e alloc) (htask : s.tasks task.id = some task)
    (family : Nat) :
    Host.Inv e alloc { s with kernel := (s.kernel.cgroupSocketCreate e alloc family task).2 } := by
  have hook := Kernel.cgroupSocketCreate_hooked e alloc s.kernel family task
  refine h.kernel (fun id' hne => ?_) fun id' other hother res hres => ?_
  · obtain hkeep | ⟨_, rfl, _⟩ := hook.cache id'
    · exact Or.inl (hkeep ▸ hne)
    · exact Or.inr (h.identity _ task htask).2
  · have same : task.id = other.id → task = other := by
      intro heq
      rw [heq, (h.identity id' other hother).1] at htask
      exact Option.some.inj (htask.symm.trans hother)
    obtain hold | hnew := hook.entry same hres
    · rw [hook.alike.needsMarkUncached]
      exact h.right id' other hother res hold
    · rw [hnew]

theorem Host.Inv.reload {conf : BpfConfig} {kernel : Kernel} (h : s.Inv e alloc)
    (hkernel : s.kernel.bpfReloadConfig alloc conf = some kernel) :
    Host.Inv e alloc { s with kernel } := by
  have hcache := Kernel.bpfReloadConfig_taskCache hkernel
  refine h.kernel (fun id hne => ?_) fun id task _ res hres => ?_
  · rw [hcache] at hne
    exact absurd rfl hne
  · rw [hcache] at hres
    cases hres

theorem Host.inv_step {event : HostEvent} (h : s.Inv e alloc) (ok : s.Steady e alloc event)
    (step : s.step e alloc event = some t) : t.Inv e alloc := by
  cases event with
  | start task =>
    simp only [Host.step] at step
    split at step
    next => cases step
    next hnew =>
      cases Option.some.inj step
      exact h.start hnew
  | exec id exe =>
    obtain ⟨task, htask, hstep⟩ := Option.bind_eq_some_iff.mp step
    cases Option.some.inj hstep
    exact h.change ok htask rfl
  | setuid id uid =>
    obtain ⟨task, htask, hstep⟩ := Option.bind_eq_some_iff.mp step
    cases Option.some.inj hstep
    exact h.change ok htask rfl
  | exit id =>
    cases Option.some.inj step
    exact h.update (fun _ hmem => hmem) fun _ hnone => by cases hnone
  | evict id =>
    cases Option.some.inj step
    exact h.evict id
  | socket family id =>
    obtain ⟨task, htask, hstep⟩ := Option.bind_eq_some_iff.mp step
    cases Option.some.inj hstep
    obtain ⟨rfl, _⟩ := h.identity id task htask
    exact h.socket htask family
  | reload conf =>
    obtain ⟨kernel, hkernel, hstep⟩ := Option.bind_eq_some_iff.mp step
    cases Option.some.inj hstep
    exact h.reload hkernel

/-- As long as no task with a cached entry becomes one that is decided
differently, the cache does not show. -/
theorem Host.needsMark_transparent {events : List HostEvent}
    (run : Run (Host.step e alloc) (Host.Steady e alloc) .init events s) {id : TaskId}
    {task : Task} (htask : s.tasks id = some task) :
    (s.kernel.needsMark e alloc task).1 = (s.kernel.needsMarkUncached e alloc task).1 :=
  ((run.invariant (fun _ _ _ => Host.inv_step) Host.inv_init).right id task htask).needsMark

def execThenSocket : List HostEvent :=
  [.reload (slashAConf .redirect 1), .start { slashATask with exe := none },
    .exec slashATask.id (some slashA), .socket afInet slashATask.id]

set_option maxRecDepth 4000 in
theorem Host.needsMark_transparent_slashA :
    ∃ s, Run (Host.step .little zeroedPages) (Host.Steady .little zeroedPages) .init
        execThenSocket s ∧ s.tasks slashATask.id = some slashATask ∧
      (s.kernel.needsMark .little zeroedPages slashATask).1 =
        (s.kernel.needsMarkUncached .little zeroedPages slashATask).1 := by
  have run : ∃ s, Run (Host.step .little zeroedPages) (Host.Steady .little zeroedPages) .init
      execThenSocket s ∧ s.tasks slashATask.id = some slashATask :=
    ⟨_, .cons trivial rfl (.cons trivial rfl (.cons (Or.inl rfl) rfl (.single trivial rfl))), rfl⟩
  obtain ⟨s, run, htask⟩ := run
  exact ⟨s, run, htask, Host.needsMark_transparent run htask⟩

/-- A task that becomes `/b` after it has opened a socket as `/a`. -/
def socketThenExec : List HostEvent :=
  [.reload (slashAConf .redirect 1), .start slashATask, .socket afInet slashATask.id,
    .exec slashATask.id (some (.child [98] (.root [slash])))]

set_option maxRecDepth 4000 in
theorem Host.needsMark_not_transparent :
    ¬∀ {e : Endian} {alloc : Nat → Option (Nat → UInt8)} {events : List HostEvent} {s : Host},
      Run (Host.step e alloc) (fun _ _ => True) .init events s →
      ∀ {id : TaskId} {task : Task}, s.tasks id = some task →
        (s.kernel.needsMark e alloc task).1 = (s.kernel.needsMarkUncached e alloc task).1 := by
  intro h
  have same := h
    (Run.of_foldlM rfl : Run (Host.step .little zeroedPages) _ .init socketThenExec _)
    (rfl : Host.tasks _ slashATask.id = some _)
  exact absurd same (by decide +kernel)

end Rebpf
