import Rebpf.WatchReload
import Rebpf.TaskCache
import Rebpf.FailClosed

namespace Rebpf

open Lib

section

variable {e : Endian} {alloc : Nat → Option (Nat → UInt8)} {k : Kernel} {task : Task}
  {family : Nat}

theorem Kernel.Fresh.right (h : k.Fresh e alloc task) : k.Right e alloc task := by
  intro res hres
  rw [h res hres]

/-- The hook marks no sockets but those of tasks to be redirected. -/
theorem cgroupSocketCreate_some {mark : UInt32} (fresh : k.Fresh e alloc task)
    (h : (k.cgroupSocketCreate e alloc family task).1 = some mark) :
    k.Redirects e alloc task := by
  unfold Kernel.cgroupSocketCreate at h
  split at h
  next => cases h
  next =>
    split at h
    next => cases h
    next =>
      split at h
      next => cases h
      next hd =>
        dsimp only at h
        split at h
        next => cases h
        next hpos =>
          rw [fresh.right.needsMark] at hpos
          exact ⟨by simpa using hd, by omega⟩

theorem cgroupSocketCreate_marks (henable : k.config.enable = true)
    (hfamily : family = afInet ∨ family = afInet6) (fresh : k.Fresh e alloc task)
    (h : k.Redirects e alloc task) :
    (k.cgroupSocketCreate e alloc family task).1 = some k.config.mark := by
  obtain ⟨hd, hpos⟩ := h
  have hinet : ¬(family ≠ afInet ∧ family ≠ afInet6) := by
    rcases hfamily with rfl | rfl <;> simp
  have hret : ¬(k.needsMark e alloc task).1 ≤ 0 := by
    rw [fresh.right.needsMark]
    omega
  have hconfig := (Kernel.needsMark_hooked e alloc hd task).config
  unfold Kernel.cgroupSocketCreate
  rw [if_neg (by simp [henable]), if_neg hinet, if_neg (by simp [hd])]
  dsimp only
  rw [if_neg hret, hconfig]

/-- The iterator reports no sockets but those of tasks to be redirected. -/
theorem refreshSocket_redirects (fresh : k.Fresh e alloc task)
    (h : (k.refreshSocket e alloc family task).1 = true) : k.Redirects e alloc task := by
  unfold Kernel.refreshSocket at h
  split at h
  next => cases h
  next =>
    split at h
    next => cases h
    next hd =>
      dsimp only at h
      split at h
      next => cases h
      next hret =>
        have hneg : ¬(k.needsMarkUncached e alloc task).1 < 0 := by
          rw [← fresh.right.needsMark]
          exact hret
        have huncached := Kernel.needsMarkUncached_ret (Int.not_lt.mp hneg)
        have hres : (k.needsMark e alloc task).2.1 = (k.needsMarkUncached e alloc task).2 := by
          unfold Kernel.needsMark
          split
          next res hcached => rw [fresh res hcached]
          next =>
            dsimp only
            rw [if_neg hneg]
        rw [hres] at h
        have hredirect : (k.needsMarkUncached e alloc task).2.redirect ≠ 0 := by simpa using h
        refine ⟨by simpa using hd, ?_⟩
        rw [huncached]
        dsimp only
        omega

theorem Stmt.exec_config {stmt : Stmt} {conf : BpfConfig} {todo : List Stmt} {r : Reloading}
    (h : stmt.exec alloc conf k todo = some r) (before : stmt = .setConfig ∨ k.config = conf) :
    r.kernel.config = conf := by
  cases stmt with
  | setConfig =>
    cases Option.some.inj h
    rfl
  | growArena =>
    obtain ⟨base, basePages, hgrow⟩ := Kernel.growArena_eq alloc k conf
    rw [Stmt.exec, hgrow] at h
    cases Option.some.inj h
    exact before.resolve_left (by decide)
  | setLastGen =>
    simp only [Stmt.exec] at h
    split at h <;> cases Option.some.inj h <;> exact before.resolve_left (by decide)
  | copyArena =>
    obtain ⟨k', hcopy, rfl⟩ := Option.map_eq_some_iff.mp h
    obtain ⟨base, rfl⟩ := Kernel.copyArena_eq hcopy
    exact before.resolve_left (by decide)
  | _ =>
    cases Option.some.inj h
    exact before.resolve_left (by decide)

/-- No statement of a reload fills the cache. -/
theorem Stmt.exec_taskCache {stmt : Stmt} {conf : BpfConfig} {todo : List Stmt} {r : Reloading}
    (h : stmt.exec alloc conf k todo = some r) :
    r.kernel.taskCache = k.taskCache ∨ r.kernel.taskCache = fun _ => none := by
  cases stmt with
  | growArena =>
    obtain ⟨base, basePages, hgrow⟩ := Kernel.growArena_eq alloc k conf
    rw [Stmt.exec, hgrow] at h
    cases Option.some.inj h
    exact Or.inl rfl
  | clearCache =>
    cases Option.some.inj h
    exact Or.inr rfl
  | setLastGen =>
    simp only [Stmt.exec] at h
    split at h <;> cases Option.some.inj h <;> exact Or.inl rfl
  | copyArena =>
    obtain ⟨k', hcopy, rfl⟩ := Option.map_eq_some_iff.mp h
    obtain ⟨base, rfl⟩ := Kernel.copyArena_eq hcopy
    exact Or.inl rfl
  | _ =>
    cases Option.some.inj h
    exact Or.inl rfl

end

def Socket.Inet (sock : Socket) : Prop := sock.family = afInet ∨ sock.family = afInet6

namespace WatchReload

section

variable (e : Endian) (alloc : Nat → Option (Nat → UInt8))
  (programs : TaskId → Option Dentry × UInt32)

/-- No statement of a reload changes the DFA that is installed. -/
def SameDfa (s : WatchReload) : WatchReloadEvent → Prop
  | .stmt => ∀ t, s.stmt alloc = some t →
      t.daemon.kernel.hasDfa = s.daemon.kernel.hasDfa ∧
        Kernel.Alike alloc s.daemon.kernel t.daemon.kernel
  | _ => True

/-- No reload is in progress, and the last one was an enabled one with the mark. -/
structure Attached (s : WatchReload) (mark : UInt32) : Prop where
  idle : s.stage = .idle
  mark : s.daemon.mark = some mark
  enable : ∃ conf route, s.daemon.seen = some (conf, route) ∧ (usable conf route).isSome = true

structure Covered (s : WatchReload) (mark : UInt32) : Prop where
  redirected : ∀ sock ∈ s.daemon.sockets, sock.Inet →
    s.daemon.kernel.Redirects e alloc (taskOf programs sock.task) → sock.mark = mark
  others : ∀ sock ∈ s.daemon.sockets,
    ¬s.daemon.kernel.Redirects e alloc (taskOf programs sock.task) → sock.mark ≠ mark

end

/-- What the sockets of the tasks that are redirected carry, stage by stage: from the time
CONFIG holds the new mark, the hook sets it on new ones, and the sweep has the others
left to visit or to mark. -/
inductive Covering (decided : TaskId → Prop) : WatchReload → Prop
  | idle {d} : (∀ conf route, d.seen = some (conf, route) → (usable conf route).isSome = true →
        d.kernel.config.enable = true ∧ d.mark = some d.kernel.config.mark ∧
        ∀ sock ∈ d.sockets, sock.Inet → decided sock.task → sock.mark = d.kernel.config.mark) →
      Covering decided ⟨d, .idle⟩
  | clearing {d oldMark newMark todo} : d.mark = some newMark →
      Covering decided ⟨d, .clearing oldMark newMark todo⟩
  | adding {d plan todo} : d.mark = some plan.newMark → Covering decided ⟨d, .adding plan todo⟩
  | loading {d plan bpf todo} : d.mark = some plan.newMark → bpf.enable = plan.enable →
      bpf.mark = plan.newMark → (todo = bpfReloadConfigStmts ∨ d.kernel.config = bpf) →
      Covering decided ⟨d, .loading plan bpf todo⟩
  | sweeping {d plan left reported} : d.mark = some plan.newMark →
      d.kernel.config.enable = plan.enable → d.kernel.config.mark = plan.newMark →
      (∀ i ∈ reported, ∃ sock, d.sockets[i]? = some sock ∧ decided sock.task) →
      (plan.enable = true → ∀ i sock, d.sockets[i]? = some sock → sock.Inet →
        decided sock.task → sock.mark = plan.newMark ∨ i ∈ left ∨ i ∈ reported) →
      Covering decided ⟨d, .sweeping plan left reported⟩

/-- The decisions stay, the cache is right about them, and of the marks `M` none is
on a socket of a task that is not redirected. -/
structure Marking (e : Endian) (alloc : Nat → Option (Nat → UInt8))
    (programs : TaskId → Option Dentry × UInt32) (M : UInt32 → Prop) (decided : TaskId → Prop)
    (s : WatchReload) : Prop where
  redirects : ∀ id, s.daemon.kernel.Redirects e alloc (taskOf programs id) ↔ decided id
  fresh : ∀ id, s.daemon.kernel.Fresh e alloc (taskOf programs id)
  known : s.daemon.seen ≠ none ∨ s.stage ≠ .idle → ∃ m, s.daemon.mark = some m ∧ M m
  others : ∀ sock ∈ s.daemon.sockets, M sock.mark → decided sock.task
  covering : Covering decided s

variable {c : Crates} {e : Endian} {alloc : Nat → Option (Nat → UInt8)}
  {programs : TaskId → Option Dentry × UInt32} {M : UInt32 → Prop} {decided : TaskId → Prop}
  {s t : WatchReload}

/-- More sockets may come up, if they are marked by CONFIG. -/
theorem Covering.grow {d d' : Daemon} {stage : Stage} (h : Covering decided ⟨d, stage⟩)
    (mark : d'.mark = d.mark) (seen : d'.seen = d.seen)
    (config : d'.kernel.config = d.kernel.config) {new : List Socket}
    (sockets : d'.sockets = d.sockets ++ new)
    (marked : ∀ sock ∈ new, d.kernel.config.enable = true → sock.Inet → decided sock.task →
      sock.mark = d.kernel.config.mark) : Covering decided ⟨d', stage⟩ := by
  cases h with
  | idle hall =>
    refine .idle fun conf route hseen husable => ?_
    rw [seen] at hseen
    obtain ⟨henable, hmark, hsocks⟩ := hall conf route hseen husable
    rw [config, mark]
    refine ⟨henable, hmark, fun sock hsock hinet hdecided => ?_⟩
    rw [sockets] at hsock
    rcases List.mem_append.mp hsock with hold | hnew
    · exact hsocks sock hold hinet hdecided
    · exact marked sock hnew henable hinet hdecided
  | clearing hmark => exact .clearing (mark.trans hmark)
  | adding hmark => exact .adding (mark.trans hmark)
  | loading hmark henable hbpf hconf =>
    exact .loading (mark.trans hmark) henable hbpf (config ▸ hconf)
  | sweeping hmark henable hconf hreported hsocks =>
    refine .sweeping (mark.trans hmark) (config ▸ henable) (config ▸ hconf) (fun i hi => ?_)
      fun hon i sock hsock hinet hdecided => ?_
    · obtain ⟨sock, hsock, hdecided⟩ := hreported i hi
      refine ⟨sock, ?_, hdecided⟩
      rw [sockets]
      exact List.getElem?_append_left (List.getElem?_eq_some_iff.mp hsock).1 ▸ hsock
    · rw [sockets] at hsock
      by_cases hlt : i < d.sockets.length
      · rw [List.getElem?_append_left hlt] at hsock
        exact hsocks hon i sock hsock hinet hdecided
      · rw [List.getElem?_append_right (Nat.not_lt.mp hlt)] at hsock
        refine Or.inl ?_
        rw [← hconf]
        exact marked sock (List.mem_of_getElem? hsock) (henable.trans hon) hinet hdecided

/-- A hook for some task has run. -/
theorem Marking.hooked (h : Marking e alloc programs M decided s) {id : TaskId} {kernel : Kernel}
    (hook : Kernel.Hooked e alloc (taskOf programs id) s.daemon.kernel kernel) :
    (∀ id, kernel.Redirects e alloc (taskOf programs id) ↔ decided id) ∧
      ∀ id, kernel.Fresh e alloc (taskOf programs id) := by
  refine ⟨fun id => (hook.redirects _).trans (h.redirects id), fun other => ?_⟩
  exact (h.fresh other).hooked hook fun heq => by rw [show id = other from heq]

theorem Marking.socket (h : Marking e alloc programs M decided s) (zero : ¬M 0) (family : Nat)
    (id : TaskId) :
    Marking e alloc programs M decided (s.socket e alloc programs family id) := by
  have hook := Kernel.cgroupSocketCreate_hooked e alloc s.daemon.kernel family (taskOf programs id)
  have marks := @cgroupSocketCreate_marks e alloc s.daemon.kernel (taskOf programs id) family
  have some := @cgroupSocketCreate_some e alloc s.daemon.kernel (taskOf programs id) family
  unfold WatchReload.socket
  generalize s.daemon.kernel.cgroupSocketCreate e alloc family (taskOf programs id) = r
    at hook marks some
  obtain ⟨hredirects, hfresh⟩ := h.hooked hook
  refine ⟨hredirects, hfresh, h.known, fun sock hsock hm => ?_, ?_⟩
  · rcases List.mem_append.mp hsock with hold | hnew
    · exact h.others sock hold hm
    · obtain rfl := List.mem_singleton.mp hnew
      cases hmark : r.1 with
      | none =>
        rw [hmark] at hm
        exact absurd hm zero
      | some mark => exact (h.redirects id).mp (some (h.fresh id) hmark)
  · refine h.covering.grow rfl rfl hook.config rfl fun sock hsock henable hinet hdecided => ?_
    obtain rfl := List.mem_singleton.mp hsock
    rw [marks henable hinet (h.fresh id) ((h.redirects id).mpr hdecided)]
    rfl

theorem Marking.start {newMark : UInt32} (h : Marking e alloc programs M decided s)
    (hm : M newMark) (step : s.start newMark = some t) :
    Marking e alloc programs M decided t := by
  obtain ⟨_, _, rfl⟩ := start_some step
  exact ⟨h.redirects, h.fresh, fun _ => ⟨newMark, rfl, hm⟩, h.others, .clearing rfl⟩

theorem Marking.request (h : Marking e alloc programs M decided s) (step : s.request = some t) :
    Marking e alloc programs M decided t := by
  obtain ⟨request, todo, net, todo', _, ⟨oldMark, newMark, hstage, rfl⟩ | ⟨plan, hstage, rfl⟩⟩ :=
    request_some step
  · obtain ⟨d, stage⟩ := s
    cases hstage
    refine ⟨h.redirects, h.fresh, fun _ => h.known (Or.inr nofun), h.others, ?_⟩
    cases h.covering with
    | clearing hmark => exact .clearing hmark
  · obtain ⟨d, stage⟩ := s
    cases hstage
    refine ⟨h.redirects, h.fresh, fun _ => h.known (Or.inr nofun), h.others, ?_⟩
    cases h.covering with
    | adding hmark => exact .adding hmark

theorem Marking.read (h : Marking e alloc programs M decided s) (step : s.read c = some t) :
    Marking e alloc programs M decided t := by
  obtain ⟨oldMark, newMark, hstage, rfl⟩ := read_some step
  obtain ⟨d, stage⟩ := s
  cases hstage
  refine ⟨h.redirects, h.fresh, fun _ => h.known (Or.inr nofun), h.others, ?_⟩
  cases h.covering with
  | clearing hmark => exact .adding hmark

theorem Marking.build (h : Marking e alloc programs M decided s) (step : s.build c e = some t) :
    Marking e alloc programs M decided t := by
  obtain ⟨plan, ctx, bpf, hstage, henable, hbpf, rfl⟩ := build_some step
  obtain ⟨d, stage⟩ := s
  cases hstage
  refine ⟨h.redirects, h.fresh, fun _ => h.known (Or.inr nofun), h.others, ?_⟩
  cases h.covering with
  | adding hmark => exact .loading hmark henable hbpf (Or.inl rfl)

theorem Marking.stmt (h : Marking e alloc programs M decided s) (ok : s.SameDfa alloc .stmt)
    (step : s.stmt alloc = some t) : Marking e alloc programs M decided t := by
  obtain ⟨hdfa, halike⟩ := ok t step
  obtain ⟨plan, bpf, stmt, todo, r, hstage, hexec, rfl⟩ := stmt_some step
  obtain ⟨d, stage⟩ := s
  cases hstage
  refine ⟨fun id => ?_, fun id res hres => ?_, fun _ => h.known (Or.inr nofun), h.others, ?_⟩
  · rw [← h.redirects id, Kernel.Redirects, Kernel.Redirects, hdfa, halike.needsMarkUncached]
  · rcases Stmt.exec_taskCache hexec with hcache | hcache
    · rw [halike.needsMarkUncached]
      exact h.fresh id res (hcache ▸ hres)
    · dsimp only at hres
      rw [hcache] at hres
      cases hres
  · cases h.covering with
    | loading hmark henable hbpf hconf =>
      refine .loading hmark henable hbpf (Or.inr (Stmt.exec_config hexec ?_))
      exact hconf.imp_left fun htodo => (List.cons.inj htodo).1

/-- The iterator has all sockets left to visit. -/
theorem Marking.iterate (h : Marking e alloc programs M decided s) (step : s.iterate = some t) :
    Marking e alloc programs M decided t := by
  obtain ⟨plan, bpf, hstage, rfl⟩ := iterate_some step
  obtain ⟨d, stage⟩ := s
  cases hstage
  refine ⟨h.redirects, h.fresh, fun _ => h.known (Or.inr nofun), h.others, ?_⟩
  cases h.covering with
  | loading hmark henable hbpf hconf =>
    have hconfig := hconf.resolve_left nofun
    refine .sweeping hmark (hconfig ▸ henable) (hconfig ▸ hbpf) nofun
      fun _ i sock hsock _ _ => Or.inr (Or.inl ?_)
    exact List.mem_range.mpr (List.getElem?_eq_some_iff.mp hsock).1

theorem Marking.report {i : Nat} (h : Marking e alloc programs M decided s)
    (step : s.report e alloc programs i = some t) : Marking e alloc programs M decided t := by
  obtain ⟨plan, left, reported, sock, hstage, hsock, report, kernel, hreport, rfl⟩ :=
    report_some step
  have hook := Kernel.refreshSocket_hooked e alloc s.daemon.kernel sock.family
    (taskOf programs sock.task)
  rw [hreport] at hook
  obtain ⟨hredirects, hfresh⟩ := h.hooked hook
  obtain ⟨d, stage⟩ := s
  cases hstage
  refine ⟨hredirects, hfresh, fun _ => h.known (Or.inr nofun), h.others, ?_⟩
  cases h.covering with
  | sweeping hmark henable hconf hreported hsocks =>
    refine .sweeping hmark (hook.config ▸ henable) (hook.config ▸ hconf) ?_ ?_
    · intro j hj
      cases report with
      | false => exact hreported j hj
      | true =>
        obtain rfl | hold := List.mem_cons.mp hj
        · refine ⟨sock, hsock, (h.redirects _).mp ?_⟩
          exact refreshSocket_redirects (h.fresh _) (congrArg Prod.fst hreport)
        · exact hreported j hold
    · intro hon j sock' hsock' hinet hdecided
      have hmore : j ∈ reported → j ∈ if report = true then i :: reported else reported := by
        intro hj
        split
        · exact List.mem_cons_of_mem _ hj
        · exact hj
      obtain hdone | hleft | hold := hsocks hon j sock' hsock' hinet hdecided
      · exact Or.inl hdone
      · by_cases heq : j = i
        · subst heq
          obtain rfl := Option.some.inj (hsock.symm.trans hsock')
          have hyes := refreshSocket_reports hinet (h.fresh sock.task)
            ((h.redirects _).mpr hdecided)
          rw [hreport] at hyes
          rw [if_pos hyes]
          exact Or.inr (Or.inr List.mem_cons_self)
        · exact Or.inr (Or.inl ((List.mem_erase_of_ne heq).mpr hleft))
      · exact Or.inr (Or.inr (hmore hold))

theorem Marking.setMark {i : Nat} (h : Marking e alloc programs M decided s)
    (step : s.setMark i = some t) : Marking e alloc programs M decided t := by
  obtain ⟨plan, left, reported, hstage, hi, rfl⟩ := setMark_some step
  obtain ⟨d, stage⟩ := s
  cases hstage
  have hget : ∀ j sock', (d.sockets.modify i ({ · with mark := plan.newMark }))[j]? = some sock' →
      ∃ sock, d.sockets[j]? = some sock ∧
        sock' = if i = j then { sock with mark := plan.newMark } else sock := by
    intro j sock' hsock'
    rw [List.getElem?_modify] at hsock'
    obtain ⟨sock, hsock, rfl⟩ := Option.map_eq_some_iff.mp hsock'
    exact ⟨sock, hsock, by split <;> rfl⟩
  cases h.covering with
  | sweeping hmark henable hconf hreported hsocks =>
    refine ⟨h.redirects, h.fresh, fun _ => h.known (Or.inr nofun), fun sock' hmem hm => ?_,
      .sweeping hmark henable hconf (fun j hj => ?_) ?_⟩
    · obtain ⟨j, hj⟩ := List.mem_iff_getElem?.mp hmem
      obtain ⟨sock, hsock, rfl⟩ := hget j sock' hj
      split at hm
      next heq =>
        subst heq
        obtain ⟨sock₁, hsock₁, hdecided⟩ := hreported i hi
        cases Option.some.inj (hsock.symm.trans hsock₁)
        rw [if_pos rfl]
        exact hdecided
      next hne =>
        rw [if_neg hne]
        exact h.others sock (List.mem_of_getElem? hsock) hm
    · obtain ⟨sock, hsock, hdecided⟩ := hreported j (List.mem_of_mem_erase hj)
      refine ⟨if i = j then { sock with mark := plan.newMark } else sock, ?_, ?_⟩
      · rw [List.getElem?_modify, hsock]
        rfl
      · split <;> exact hdecided
    · intro hon j sock' hsock' hinet hdecided
      obtain ⟨sock, hsock, rfl⟩ := hget j sock' hsock'
      by_cases heq : i = j
      · rw [if_pos heq]
        exact Or.inl rfl
      · rw [if_neg heq] at hinet hdecided ⊢
        refine (hsocks hon j sock hsock hinet hdecided).imp_right (Or.imp_right fun hold => ?_)
        exact (List.mem_erase_of_ne (Ne.symm heq)).mpr hold

/-- With nothing left to visit or to mark, the sockets carry the mark. -/
theorem Marking.finish (h : Marking e alloc programs M decided s) (step : s.finish = some t) :
    Marking e alloc programs M decided t := by
  obtain ⟨plan, hstage, rfl⟩ := finish_some step
  obtain ⟨d, stage⟩ := s
  cases hstage
  refine ⟨h.redirects, h.fresh, fun _ => h.known (Or.inr nofun), h.others, ?_⟩
  cases h.covering with
  | sweeping hmark henable hconf _ hsocks =>
    refine .idle fun conf route hseen husable => ?_
    cases Option.some.inj hseen
    refine ⟨henable.trans husable, hconf ▸ hmark, fun sock hsock hinet hdecided => ?_⟩
    obtain ⟨i, hi⟩ := List.mem_iff_getElem?.mp hsock
    obtain hdone | hleft | hleft := hsocks husable i sock hi hinet hdecided
    · exact hdone.trans hconf.symm
    · cases hleft
    · cases hleft

theorem marking_step {event : WatchReloadEvent} (zero : ¬M 0)
    (hevent : ∀ m, event = .start m → M m) (h : Marking e alloc programs M decided s)
    (ok : s.SameDfa alloc event) (step : s.step c e alloc programs event = some t) :
    Marking e alloc programs M decided t := by
  cases event with
  | config conf =>
    cases Option.some.inj step
    exact ⟨h.redirects, h.fresh, h.known, h.others,
      h.covering.grow rfl rfl rfl (List.append_nil _).symm nofun⟩
  | output route =>
    cases Option.some.inj step
    exact ⟨h.redirects, h.fresh, h.known, h.others,
      h.covering.grow rfl rfl rfl (List.append_nil _).symm nofun⟩
  | socket family id =>
    cases Option.some.inj step
    exact h.socket zero family id
  | start newMark => exact h.start (hevent newMark rfl) step
  | request => exact h.request step
  | read => exact h.read step
  | build => exact h.build step
  | stmt => exact h.stmt ok step
  | iterate => exact h.iterate step
  | report i => exact h.report step
  | setMark i => exact h.setMark step
  | finish => exact h.finish step

/-- Whenever no reload is in progress and the last one was enabled, the sockets of
the redirected tasks carry its mark, and those of the others do not. -/
theorem run_covered {s₀ : WatchReload} (idle : s₀.stage = .idle) (unseen : s₀.daemon.seen = none)
    (empty : s₀.daemon.kernel.taskCache = fun _ => none) {events : List WatchReloadEvent}
    (unused : ∀ sock ∈ s₀.daemon.sockets, .start sock.mark ∈ events →
      s₀.daemon.kernel.Redirects e alloc (taskOf programs sock.task))
    (run : Run (step c e alloc programs) (SameDfa alloc) s₀ events s) {mark : UInt32}
    (attached : s.Attached mark) : s.Covered e alloc programs mark := by
  have zero : WatchReloadEvent.start 0 ∉ events := by
    intro hm
    obtain ⟨s', t', _, taken⟩ := run.taken hm
    obtain ⟨_, hrand, _⟩ := start_some taken
    exact absurd hrand (by decide)
  have begin : Marking e alloc programs (fun m => .start m ∈ events)
      (fun id => s₀.daemon.kernel.Redirects e alloc (taskOf programs id)) s₀ := by
    refine ⟨fun _ => Iff.rfl, fun id res hres => ?_, ?_, unused, ?_⟩
    · rw [empty] at hres
      cases hres
    · rintro (hseen | hstage)
      · exact absurd unseen hseen
      · exact absurd idle hstage
    · obtain ⟨d, stage⟩ := s₀
      cases idle
      refine .idle fun conf route hseen => ?_
      rw [show d.seen = none from unseen] at hseen
      cases hseen
  have known : ∀ event ∈ events, ∀ m, event = .start m → .start m ∈ events := by
    rintro _ hmem m rfl
    exact hmem
  have marking := run.invariant_events (I := Marking e alloc programs (fun m => .start m ∈ events)
      fun id => s₀.daemon.kernel.Redirects e alloc (taskOf programs id))
    (P := fun event => ∀ m, event = .start m → .start m ∈ events)
    (fun _ _ _ hevent => marking_step zero hevent) known begin
  obtain ⟨hidle, hmark, conf, route, hseen, husable⟩ := attached
  obtain ⟨m, hm, hdrawn⟩ := marking.known (Or.inl (by rw [hseen]; nofun))
  cases Option.some.inj (hmark.symm.trans hm)
  constructor
  · intro sock hsock hinet hredirects
    obtain ⟨d, stage⟩ := s
    cases hidle
    cases marking.covering with
    | idle hall =>
      obtain ⟨_, hconfig, hsocks⟩ := hall conf route hseen husable
      rw [hsocks sock hsock hinet ((marking.redirects _).mp hredirects)]
      exact Option.some.inj (hconfig.symm.trans hmark)
  · rintro sock hsock hother rfl
    exact hother ((marking.redirects _).mpr (marking.others sock hsock hdrawn))

/-- A daemon whose output is up and whose kernel has the DFA of its rules. -/
def loadedDaemon : Daemon :=
  { droppingDaemon with
    route := some ⟨true, 2, "wg0", [], none⟩
    ctx := { lastGen := 1, arena := slashAArena .redirect 0 }
    kernel := slashAKernel .redirect 1 }

/-- One iteration; another socket is created before CONFIG is written. -/
def coveringEvents : List WatchReloadEvent :=
  [.start 70001, .read, .request, .request, .request, .socket afInet ⟨101, 6⟩, .build, .stmt,
    .stmt, .stmt, .stmt, .iterate, .report 1, .report 0, .setMark 0, .setMark 1, .finish]

set_option maxRecDepth 4000 in
theorem run_covered_slashA :
    ∃ s, Run (step slashACrates .little zeroedPages slashAPrograms) (SameDfa zeroedPages)
        ⟨loadedDaemon, .idle⟩ coveringEvents s ∧
      s.Attached 70001 ∧ s.Covered .little zeroedPages slashAPrograms 70001 := by
  have run : ∃ s, Run (step slashACrates .little zeroedPages slashAPrograms) (SameDfa zeroedPages)
      ⟨loadedDaemon, .idle⟩ coveringEvents s ∧ s.Attached 70001 := by
    refine ⟨_, .cons trivial rfl (.cons trivial rfl (.cons trivial rfl (.cons trivial rfl
      (.cons trivial rfl (.cons trivial rfl (.cons trivial rfl (.cons ?_ rfl (.cons ?_ rfl
      (.cons ?_ rfl (.cons ?_ rfl (.cons trivial rfl (.cons trivial rfl (.cons trivial rfl
      (.cons trivial rfl (.cons trivial rfl (.single trivial rfl)))))))))))))))), rfl, rfl, _, _,
      rfl, rfl⟩
    · rintro _ ⟨⟩
      exact ⟨rfl, rfl, rfl⟩
    · rintro _ ⟨⟩
      exact ⟨rfl, rfl, rfl⟩
    · rintro _ ⟨⟩
      exact ⟨rfl, rfl, rfl⟩
    · rintro _ ⟨⟩
      exact ⟨rfl, rfl, rfl⟩
  obtain ⟨s, run, attached⟩ := run
  refine ⟨s, run, attached, run_covered rfl rfl rfl (fun sock hsock hstart => ?_) run attached⟩
  obtain rfl := List.mem_singleton.mp hsock
  simp [coveringEvents] at hstart

end WatchReload

end Rebpf
