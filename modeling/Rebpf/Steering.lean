import Mathlib.Data.List.MinMax
import Rebpf.RuleLookup

namespace Rebpf

open Lib

/-- Where the daemon wants a packet to go. -/
inductive Way
  | output
  | main
  | dropped
deriving DecidableEq, Repr

def Way.verdict (mark : UInt32) : Way → Verdict
  | .output => .route mark
  | .main => .route rtTableMain
  | .dropped => .unreachable

def Match.covers (c : Crates) (m : Match) (dst : UInt32) : Bool :=
  m.kind == .ipv4 && match m.denoted c with
    | some (.v4 n) => n.contains dst
    | _ => false

theorem Match.covers_iff {c : Crates} {m : Match} {dst : UInt32} :
    m.covers c dst = true ↔ m.Covers c dst := by
  rw [Match.covers, Match.Covers, Bool.and_eq_true, beq_iff_eq]
  refine and_congr_right fun _ => ?_
  split
  next n heq => simp [heq]
  next hne =>
    refine iff_of_false Bool.false_ne_true ?_
    rintro ⟨n, hn, _⟩
    exact hne n hn

instance (c : Crates) (m : Match) (dst : UInt32) : Decidable (m.Covers c dst) :=
  decidable_of_iff _ Match.covers_iff

def FibRule.pref (rule : FibRule) : UInt32 := rule.priority.getD 0

/-- The priority of a rule that is added without one: that of the second rule less one. -/
def defaultPref : List FibRule → UInt32
  | _ :: second :: _ => if second.pref = 0 then 0 else second.pref - 1
  | _ => 0

/-- A rule is added behind those up to its priority. -/
def insertRule (rules : List FibRule) (rule : FibRule) : List FibRule :=
  let pref := rule.priority.getD (defaultPref rules)
  rules.filter (·.pref ≤ pref) ++ { rule with priority := some pref } ::
    rules.filter (pref < ·.pref)

namespace Net

/-- The rules in the order in which the kernel asks them. -/
def fibRules (net : Net) : List FibRule := net.rules.foldl insertRule []

end Net

/-- A route of an iteration: to the output, or a LAN route of the main table. -/
def Laid (conf : State) (link : Route) (mark : UInt32) (main : List FibRoute) (r : FibRoute) :
    Prop :=
  r = defaultRoute mark link ∨ conf.config.allowLan = true ∧ r.table = mark ∧
    1 < r.dst.prefixLen ∧ { r with table := rtTableMain } ∈ main

section

variable {c : Crates} {mark : UInt32} {routes : List FibRoute} {p : Packet} {conf : State}
  {link : Route} {output : Option Route} {net : Net}

theorem fibRules_sorted (net : Net) : net.fibRules.Pairwise (·.pref ≤ ·.pref) := by
  rw [Net.fibRules]
  suffices h : ∀ rules xs : List FibRule, xs.Pairwise (·.pref ≤ ·.pref) →
      (rules.foldl insertRule xs).Pairwise (·.pref ≤ ·.pref) from h net.rules [] .nil
  intro rules
  induction rules with
  | nil => exact fun _ h => h
  | cons rule rules ih =>
    intro xs hxs
    refine ih _ (List.pairwise_append.mpr ⟨hxs.filter _,
      List.pairwise_cons.mpr ⟨fun r hr => ?_, hxs.filter _⟩, fun a ha b hb => ?_⟩)
    · exact UInt32.le_of_lt (of_decide_eq_true (List.mem_filter.mp hr).2)
    · have hle := of_decide_eq_true (List.mem_filter.mp ha).2
      obtain rfl | hb := List.mem_cons.mp hb
      · exact hle
      · exact UInt32.le_trans hle (UInt32.le_of_lt (of_decide_eq_true (List.mem_filter.mp hb).2))

/-- The routes of an iteration lead to the output or, on the LAN, where the main table does. -/
theorem laid_of_reload {r : FibRoute} (drawn : isRandTable mark = true)
    (husable : usable conf output = some link) (h : r ∈ reloadRoutes mark conf output routes) :
    Laid conf link mark (routes.filter (·.table == rtTableMain)) r := by
  rw [reloadRoutes, husable] at h
  obtain rfl | h := List.mem_cons.mp h
  · exact Or.inl rfl
  · by_cases hallow : conf.config.allowLan = true
    · rw [if_pos hallow] at h
      obtain ⟨main, hmain, rfl⟩ := List.mem_map.mp h
      obtain ⟨hmem, hlan⟩ := List.mem_filter.mp hmain
      rw [Bool.and_eq_true, beq_iff_eq, decide_eq_true_eq] at hlan
      obtain hmem | hmem := List.mem_append.mp hmem
      · refine Or.inr ⟨hallow, rfl, hlan.2, List.mem_filter.mpr ⟨?_, by simp⟩⟩
        obtain ⟨table, _⟩ := main
        cases hlan.1
        exact hmem
      · rw [List.mem_singleton.mp hmem] at hlan
        exact absurd hlan.1.symm (isRandTable_ne_main drawn)
    · rw [if_neg hallow] at h
      cases h

end

end Rebpf
