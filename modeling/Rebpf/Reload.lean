import Rebpf.KernelHooks
import Rebpf.Lib.Run

namespace Rebpf

open Lib

/-- The statements of `bpf_reload_config` between which other programs run. -/
inductive Stmt
  | setConfig
  | growArena
  | clearCache
  | setLastGen
  | setHasDfa
  | setMasterDfa
  | copyArena
deriving DecidableEq, Repr

/-- A reload under way, with the statements it has left. -/
structure Reloading where
  kernel : Kernel
  todo : List Stmt

inductive ReloadEvent
  | stmt
  | hook (family : Nat) (task : Task)

def bpfReloadConfigStmts : List Stmt :=
  [.setConfig, .growArena, .clearCache, .setLastGen, .setHasDfa, .setMasterDfa, .copyArena]

section

variable (e : Endian) (alloc : Nat → Option (Nat → UInt8)) (conf : BpfConfig)

def Stmt.exec (k : Kernel) (todo : List Stmt) : Stmt → Option Reloading
  | .setConfig => some { kernel := { k with config := conf }, todo }
  | .growArena => some { kernel := k.growArena alloc conf, todo }
  | .clearCache => some { kernel := k.clearCache, todo }
  | .setLastGen =>
    -- the early return: nothing else has changed since the last reload
    if k.lastGen = conf.generation then some { kernel := k, todo := [] }
    else some { kernel := { k with lastGen := conf.generation }, todo }
  | .setHasDfa => some { kernel := { k with hasDfa := conf.hasDfa }, todo }
  | .setMasterDfa => some { kernel := { k with masterDfa := conf.dfa }, todo }
  | .copyArena => (k.copyArena conf).map ({ kernel := ·, todo })

def Reloading.step (s : Reloading) : ReloadEvent → Option Reloading
  | .stmt =>
    match s.todo with
    | [] => none
    | stmt :: todo => stmt.exec alloc conf s.kernel todo
  | .hook family task =>
    some { s with kernel := (s.kernel.cgroupSocketCreate e alloc family task).2 }

def Kernel.Stores (k : Kernel) (family : Nat) (task : Task) : Prop :=
  k.config.enable = true ∧ (family = afInet ∨ family = afInet6) ∧ k.hasDfa = true ∧
    k.taskCache task.id = none ∧ 0 ≤ (k.needsMarkUncached e alloc task).1

/-- From the clearing of the cache to the last statement no hook stores a
decision, unless the generation is the one already installed. -/
def Undisturbed (installed : UInt64) (s : Reloading) : ReloadEvent → Prop
  | .stmt => True
  | .hook family task => installed = conf.generation ∨ .clearCache ∈ s.todo ∨ s.todo = [] ∨
      ¬s.kernel.Stores e alloc family task

end

variable {e : Endian} {alloc : Nat → Option (Nat → UInt8)} {conf : BpfConfig}

/-- Without hooks in between, the statements are `bpf_reload_config`. -/
theorem bpfReloadConfig_run {k k' : Kernel} (h : k.bpfReloadConfig alloc conf = some k') :
    ∃ n, Run (Reloading.step e alloc conf) (fun _ _ => True) ⟨k, bpfReloadConfigStmts⟩
      (List.replicate n .stmt) ⟨k', []⟩ := by
  unfold Kernel.bpfReloadConfig at h
  dsimp only at h
  split at h
  next hgen =>
    cases Option.some.inj h
    refine ⟨4, .cons trivial rfl (.cons trivial rfl (.cons trivial rfl (.single trivial ?_)))⟩
    exact if_pos hgen
  next hgen =>
    refine ⟨7, .cons trivial rfl (.cons trivial rfl (.cons trivial rfl (.cons trivial
      (if_neg hgen) (.cons trivial rfl (.cons trivial rfl (.single trivial ?_))))))⟩
    show Option.map _ _ = _
    rw [h]
    rfl

theorem cgroupSocketCreate_taskCache {k : Kernel} {family : Nat} {task : Task}
    (h : ¬k.Stores e alloc family task) :
    (k.cgroupSocketCreate e alloc family task).2.taskCache = k.taskCache := by
  funext id
  have hook := Kernel.cgroupSocketCreate_hooked e alloc k family task
  obtain hkeep | ⟨hnone, rfl, hd, hret, _⟩ := hook.cache id
  · exact hkeep
  by_cases hen : k.config.enable = true
  · by_cases hfam : family = afInet ∨ family = afInet6
    · exact absurd ⟨hen, hfam, hd, hnone, hret⟩ h
    · obtain ⟨h4, h6⟩ := not_or.mp hfam
      simp [Kernel.cgroupSocketCreate, hen, h4, h6]
  · simp [Kernel.cgroupSocketCreate, hen]

/-- Where a reload stands, and what the cache then says about one task. -/
inductive ReloadPhase (e : Endian) (alloc : Nat → Option (Nat → UInt8)) (conf : BpfConfig)
    (installed : UInt64) (task : Task) : Reloading → Prop
  | early {s} : s.kernel.lastGen = installed →
      s.todo = bpfReloadConfigStmts ∨ s.todo = bpfReloadConfigStmts.drop 1 ∨
        s.todo = bpfReloadConfigStmts.drop 2 →
      ReloadPhase e alloc conf installed task s
  | cleared {s} : s.kernel.lastGen = installed → s.todo = bpfReloadConfigStmts.drop 3 →
      s.kernel.Fresh e alloc task →
      (installed ≠ conf.generation → s.kernel.taskCache task.id = none) →
      ReloadPhase e alloc conf installed task s
  | writing {s} : installed ≠ conf.generation →
      s.todo = bpfReloadConfigStmts.drop 4 ∨ s.todo = bpfReloadConfigStmts.drop 5 ∨
        s.todo = bpfReloadConfigStmts.drop 6 →
      s.kernel.taskCache task.id = none → ReloadPhase e alloc conf installed task s
  | done {s} : s.todo = [] → s.kernel.Fresh e alloc task →
      ReloadPhase e alloc conf installed task s

theorem Kernel.fresh_of_none {k : Kernel} {task : Task} (h : k.taskCache task.id = none) :
    k.Fresh e alloc task := by
  intro res hres
  rw [h] at hres
  cases hres

variable {installed : UInt64} {task : Task} {s t : Reloading}

theorem reloadPhase_hook {family : Nat} {other : Task}
    (h : ReloadPhase e alloc conf installed task s)
    (ok : Undisturbed e alloc conf installed s (.hook family other))
    (same : other.id = task.id → other = task) :
    ReloadPhase e alloc conf installed task
      { s with kernel := (s.kernel.cgroupSocketCreate e alloc family other).2 } := by
  have hook := Kernel.cgroupSocketCreate_hooked e alloc s.kernel family other
  cases h with
  | early hgen htodo => exact .early (hook.lastGen.trans hgen) htodo
  | cleared hgen htodo hfresh hnone =>
    refine .cleared (hook.lastGen.trans hgen) htodo (hfresh.hooked hook same) fun hne => ?_
    have hwindow : .clearCache ∉ s.todo ∧ s.todo ≠ [] := by
      rw [htodo]
      decide
    obtain heq | hin | hend | hno := ok
    · exact absurd heq hne
    · exact absurd hin hwindow.1
    · exact absurd hend hwindow.2
    · exact (congrFun (cgroupSocketCreate_taskCache hno) _).trans (hnone hne)
  | writing hne htodo hnone =>
    have hwindow : .clearCache ∉ s.todo ∧ s.todo ≠ [] := by
      rcases htodo with htodo | htodo | htodo <;>
      · rw [htodo]
        decide
    obtain heq | hin | hend | hno := ok
    · exact absurd heq hne
    · exact absurd hin hwindow.1
    · exact absurd hend hwindow.2
    · exact .writing hne htodo
        ((congrFun (cgroupSocketCreate_taskCache hno) _).trans hnone)
  | done htodo hfresh => exact .done htodo (hfresh.hooked hook same)

theorem reloadPhase_stmt (h : ReloadPhase e alloc conf installed task s)
    (step : s.step e alloc conf .stmt = some t) : ReloadPhase e alloc conf installed task t := by
  cases h with
  | early hgen htodo =>
    obtain htodo | htodo | htodo := htodo
    · simp only [Reloading.step, htodo, bpfReloadConfigStmts, Stmt.exec] at step
      cases Option.some.inj step
      exact .early hgen (Or.inr (Or.inl rfl))
    · simp only [Reloading.step, htodo, bpfReloadConfigStmts, List.drop_succ_cons, List.drop_zero,
        Stmt.exec] at step
      cases Option.some.inj step
      refine .early ?_ (Or.inr (Or.inr rfl))
      obtain ⟨base, basePages, hgrow⟩ := Kernel.growArena_eq alloc s.kernel conf
      simp only [hgrow, hgen]
    · simp only [Reloading.step, htodo, bpfReloadConfigStmts, List.drop_succ_cons, List.drop_zero,
        Stmt.exec] at step
      cases Option.some.inj step
      exact .cleared hgen rfl (Kernel.fresh_of_none rfl) fun _ => rfl
  | cleared hgen htodo hfresh hnone =>
    simp only [Reloading.step, htodo, bpfReloadConfigStmts, List.drop_succ_cons, List.drop_zero,
      Stmt.exec] at step
    split at step
    next => cases Option.some.inj step; exact .done rfl hfresh
    next hne =>
      cases Option.some.inj step
      rw [hgen] at hne
      exact .writing hne (Or.inl rfl) (hnone hne)
  | writing hne htodo hnone =>
    obtain htodo | htodo | htodo := htodo
    · simp only [Reloading.step, htodo, bpfReloadConfigStmts, List.drop_succ_cons, List.drop_zero,
        Stmt.exec] at step
      cases Option.some.inj step
      exact .writing hne (Or.inr (Or.inl rfl)) hnone
    · simp only [Reloading.step, htodo, bpfReloadConfigStmts, List.drop_succ_cons, List.drop_zero,
        Stmt.exec] at step
      cases Option.some.inj step
      exact .writing hne (Or.inr (Or.inr rfl)) hnone
    · simp only [Reloading.step, htodo, bpfReloadConfigStmts, List.drop_succ_cons, List.drop_zero,
        Stmt.exec] at step
      obtain ⟨k, hk, rfl⟩ := Option.map_eq_some_iff.mp step
      obtain ⟨base, rfl⟩ := Kernel.copyArena_eq hk
      exact .done rfl (Kernel.fresh_of_none hnone)
  | done htodo hfresh => simp [Reloading.step, htodo] at step

/-- Once a reload that no hook disturbed is over, what the cache holds for a
task is what the installed DFA and arena decide for it. -/
theorem bpfReloadConfig_leaves_fresh {k k' : Kernel} {events : List ReloadEvent}
    (run : Run (Reloading.step e alloc conf) (Undisturbed e alloc conf k.lastGen)
      ⟨k, bpfReloadConfigStmts⟩ events ⟨k', []⟩)
    (same : ∀ family other, .hook family other ∈ events → other.id = task.id → other = task) :
    k'.Fresh e alloc task := by
  have events_same : ∀ event ∈ events, ∀ family other, event = .hook family other →
      other.id = task.id → other = task := by
    rintro _ hmem family other rfl
    exact same family other hmem
  have phase := run.invariant_events (I := ReloadPhase e alloc conf k.lastGen task) ?_
    events_same (.early rfl (Or.inl rfl))
  · cases phase with
    | early _ htodo => rcases htodo with h | h | h <;> cases h
    | cleared _ htodo => cases htodo
    | writing _ htodo => rcases htodo with h | h | h <;> cases h
    | done _ hfresh => exact hfresh
  · intro s event t hsame hphase hok hstep
    cases event with
    | stmt => exact reloadPhase_stmt hphase hstep
    | hook family other =>
      cases Option.some.inj hstep
      exact reloadPhase_hook hphase hok (hsame family other rfl)

def quietHooks : List ReloadEvent :=
  [.stmt, .hook afInet slashATask, .stmt, .stmt, .stmt, .stmt, .stmt, .stmt,
    .hook afInet slashATask]

set_option maxRecDepth 4000 in
theorem bpfReloadConfig_leaves_fresh_slashA :
    ∃ k', Run (Reloading.step .little zeroedPages (slashAConf .bypass 2))
        (Undisturbed .little zeroedPages (slashAConf .bypass 2) 1)
        ⟨slashAKernel .redirect 1, bpfReloadConfigStmts⟩ quietHooks ⟨k', []⟩ ∧
      k'.Fresh .little zeroedPages slashATask := by
  have same : ∀ family other, .hook family other ∈ quietHooks → other.id = slashATask.id →
      other = slashATask := by simp [quietHooks]
  have run : ∃ k', Run (Reloading.step .little zeroedPages (slashAConf .bypass 2))
      (Undisturbed .little zeroedPages (slashAConf .bypass 2) 1)
      ⟨slashAKernel .redirect 1, bpfReloadConfigStmts⟩ quietHooks ⟨k', []⟩ :=
    ⟨_, .cons trivial rfl (.cons (Or.inr (Or.inl (by decide))) rfl (.cons trivial rfl
      (.cons trivial rfl (.cons trivial rfl (.cons trivial rfl (.cons trivial rfl
        (.cons trivial rfl (.single (Or.inr (Or.inr (Or.inl rfl))) rfl))))))))⟩
  obtain ⟨k', run⟩ := run
  exact ⟨k', run, bpfReloadConfig_leaves_fresh (k := slashAKernel .redirect 1) run same⟩

/-- A hook between the clearing of the cache and the writing of the new DFA. -/
def racingHook : List ReloadEvent :=
  [.stmt, .stmt, .stmt, .hook afInet slashATask, .stmt, .stmt, .stmt, .stmt]

set_option maxRecDepth 4000 in
theorem bpfReloadConfig_leaves_stale :
    ¬∀ {e : Endian} {alloc : Nat → Option (Nat → UInt8)} {conf : BpfConfig} {k k' : Kernel}
      {events : List ReloadEvent},
      Run (Reloading.step e alloc conf) (fun _ _ => True) ⟨k, bpfReloadConfigStmts⟩ events
        ⟨k', []⟩ →
      ∀ {task : Task}, (∀ family other, .hook family other ∈ events → other.id = task.id →
        other = task) → k'.Fresh e alloc task := by
  intro h
  have same : ∀ family other, .hook family other ∈ racingHook → other.id = slashATask.id →
      other = slashATask := by simp [racingHook]
  have stale := h (Run.of_foldlM rfl : Run (Reloading.step .little zeroedPages (slashAConf .bypass 2))
    _ ⟨slashAKernel .redirect 1, bpfReloadConfigStmts⟩ racingHook _) same ⟨1, 0, 1⟩ (by decide +kernel)
  exact absurd stale (by decide +kernel)

end Rebpf
