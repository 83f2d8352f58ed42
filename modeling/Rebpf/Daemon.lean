import Rebpf.Netlink
import Rebpf.Lib.Run

namespace Rebpf

open Lib

structure Socket where
  family : Nat
  task : TaskId
  mark : UInt32
deriving DecidableEq, Repr

/-- The task of an identity, among tasks that keep their executable and uid. -/
def taskOf (programs : TaskId → Option Dentry × UInt32) (id : TaskId) : Task :=
  { id, exe := (programs id).1, uid := (programs id).2 }

/-- The daemon with the kernel it configures. `seen` is what the last completed
reload read of the configuration and of the output. -/
structure Daemon where
  conf : State
  route : Option Route
  mark : Option UInt32
  ctx : BpfCtx
  kernel : Kernel
  net : Net
  sockets : List Socket
  blocker : String
  seen : Option (State × Option Route)

inductive DaemonEvent
  | config (conf : State)
  | output (route : Option Route)
  | reload (newMark : UInt32)
  | socket (family : Nat) (id : TaskId)

section

variable (c : Crates) (e : Endian) (alloc : Nat → Option (Nat → UInt8))
  (programs : TaskId → Option Dentry × UInt32)

/-- `bpf_refresh_sockets`: every socket the iterator reports is marked. -/
def bpfRefreshSockets (mark : UInt32) : List Socket → Kernel → List Socket × Kernel
  | [], k => ([], k)
  | s :: rest, k =>
    let (report, k) := k.refreshSocket e alloc s.family (taskOf programs s.task)
    let (rest, k) := bpfRefreshSockets mark rest k
    ((if report then { s with mark } else s) :: rest, k)

/-- One iteration of `watch_reload` that runs to its end. -/
def Daemon.reload (newMark : UInt32) (s : Daemon) : Option Daemon := do
  let (enable, blocker, net) ← reloadRules c newMark s.mark s.conf s.route s.net
  let (ctx, kernel) ← bpfReload c e alloc s.ctx s.conf.ms enable newMark s.kernel
  let (sockets, kernel) := bpfRefreshSockets e alloc programs newMark s.sockets kernel
  return { s with
    mark := some newMark, ctx, kernel, net, sockets, blocker, seen := some (s.conf, s.route) }

def isRandTable (mark : UInt32) : Bool := decide (65535 ≤ mark.toNat ∧ mark.toNat < 2 ^ 32 - 1)

def Daemon.step (s : Daemon) : DaemonEvent → Option Daemon
  | .config conf => some { s with conf }
  | .output route => some { s with route }
  | .reload newMark => if isRandTable newMark then s.reload c e alloc programs newMark else none
  | .socket family id =>
    let (mark, kernel) := s.kernel.cgroupSocketCreate e alloc family (taskOf programs id)
    some { s with kernel, sockets := s.sockets ++ [{ family, task := id, mark := mark.getD 0 }] }

def Kernel.Redirects (k : Kernel) (task : Task) : Prop :=
  k.hasDfa = true ∧ 0 < (k.needsMarkUncached e alloc task).1

end

variable {e : Endian} {alloc : Nat → Option (Nat → UInt8)}
  {programs : TaskId → Option Dentry × UInt32} {k k' : Kernel}

theorem Kernel.Hooked.redirects {other : Task} (hook : Kernel.Hooked e alloc other k k')
    (task : Task) : k'.Redirects e alloc task ↔ k.Redirects e alloc task := by
  rw [Redirects, Redirects, hook.hasDfa, hook.alike.needsMarkUncached]

/-- With a right entry or none, `needs_mark` gives a task to be redirected what
`needs_mark_uncached` does. -/
theorem Kernel.Fresh.needsMark_of_pos {task : Task} (fresh : k.Fresh e alloc task)
    (h : 0 < (k.needsMarkUncached e alloc task).1) :
    (k.needsMark e alloc task).1 = (k.needsMarkUncached e alloc task).1 ∧
      (k.needsMark e alloc task).2.1 = (k.needsMarkUncached e alloc task).2 := by
  unfold Kernel.needsMark
  split
  next res hres =>
    rw [fresh res hres]
    exact ⟨rfl, rfl⟩
  next =>
    have hnonneg : ¬(k.needsMarkUncached e alloc task).1 < 0 := by omega
    dsimp only
    rw [if_neg hnonneg]
    exact ⟨(congrArg Prod.fst (needsMarkUncached_ret (Int.le_of_lt h))).symm, rfl⟩

theorem refreshSocket_reports {family : Nat} {task : Task}
    (hfamily : family = afInet ∨ family = afInet6) (fresh : k.Fresh e alloc task)
    (h : k.Redirects e alloc task) : (k.refreshSocket e alloc family task).1 = true := by
  obtain ⟨hd, hpos⟩ := h
  have hinet : ¬(family ≠ afInet ∧ family ≠ afInet6) := by
    rcases hfamily with rfl | rfl <;> simp
  obtain ⟨hret, hres⟩ := fresh.needsMark_of_pos hpos
  have hredirect : (k.needsMarkUncached e alloc task).2.redirect ≠ 0 := by
    have hdecided := congrArg Prod.fst (Kernel.needsMarkUncached_ret (Int.le_of_lt hpos))
    dsimp only at hdecided
    omega
  have hnonneg : ¬(k.needsMark e alloc task).1 < 0 := by omega
  unfold Kernel.refreshSocket
  rw [if_neg hinet, if_neg (by simp [hd])]
  dsimp only
  rw [if_neg hnonneg, hres]
  simpa using hredirect

structure Swept (e : Endian) (alloc : Nat → Option (Nat → UInt8))
    (programs : TaskId → Option Dentry × UInt32) (mark : UInt32) (k k' : Kernel)
    (after : List Socket) : Prop where
  redirects : ∀ task, k'.Redirects e alloc task ↔ k.Redirects e alloc task
  fresh : ∀ id, k'.Fresh e alloc (taskOf programs id)
  marked : ∀ s ∈ after, s.family = afInet ∨ s.family = afInet6 →
    k.Redirects e alloc (taskOf programs s.task) → s.mark = mark

theorem bpfRefreshSockets_swept {mark : UInt32} (sockets : List Socket)
    (fresh : ∀ id, k.Fresh e alloc (taskOf programs id)) :
    Swept e alloc programs mark k (bpfRefreshSockets e alloc programs mark sockets k).2
      (bpfRefreshSockets e alloc programs mark sockets k).1 := by
  induction sockets generalizing k with
  | nil => exact ⟨fun _ => Iff.rfl, fresh, by simp [bpfRefreshSockets]⟩
  | cons s sockets ih =>
    have hook := Kernel.refreshSocket_hooked e alloc k s.family
      (taskOf programs s.task)
    have reports := fun hfamily : s.family = afInet ∨ s.family = afInet6 =>
      refreshSocket_reports hfamily (fresh s.task)
    simp only [bpfRefreshSockets]
    generalize k.refreshSocket e alloc s.family (taskOf programs s.task) = r at hook reports
    have swept := @ih r.2 fun id =>
      (fresh id).hooked hook fun heq => by rw [show s.task = id from heq]
    refine ⟨fun task => (swept.redirects task).trans (hook.redirects task), swept.fresh, ?_⟩
    intro s' hs' hfamily hredirects
    obtain rfl | hmem := List.mem_cons.mp hs'
    · by_cases hreport : r.1 = true
      · rw [if_pos hreport]
      · rw [if_neg hreport] at hfamily hredirects
        exact absurd (reports hfamily hredirects) hreport
    · exact swept.marked s' hmem hfamily ((hook.redirects _).mpr hredirects)

end Rebpf
