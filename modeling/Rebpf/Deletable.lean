import Rebpf.DnsMirror
import Rebpf.EncodeTotal
import Rebpf.FirstReport
import Rebpf.Installed
import Rebpf.Policy

namespace Rebpf

open Lib

variable {d : DenseDfa}

/-- Numbering the entries does not matter for the patterns themselves. -/
theorem numbered_patterns {f : Match → Option String} (ms : List Match) :
    (ms.zipIdx.filterMap fun r => (f r.1).map (·, r.2)).map (·.1) = ms.filterMap f := by
  have hfst : ∀ r : Match × Nat, ((f r.1).map (·, r.2)).map (·.1) = f r.1 := by
    intro r
    cases f r.1 with
    | none => rfl
    | some p => rfl
  rw [List.map_filterMap]
  simp only [hfst]
  have hzip : (ms.zipIdx.map Prod.fst).filterMap f = ms.zipIdx.filterMap (f ∘ Prod.fst) :=
    List.filterMap_map
  rw [List.zipIdx_map_fst] at hzip
  exact hzip.symm

section

variable {c : Crates} {e : Endian} {accepts : Accepts} {parses : String → Prop}
  {exceeds : Bool → List String → Prop}

theorem dnsPatterns_eq (ms : List Match) (direction : Direction) :
    dnsPatterns c ms direction = ms.zipIdx.filterMap fun r =>
      (if r.1.direction = direction then dnsPattern c r.1 else none).map (·, r.2) := by
  unfold dnsPatterns
  congr 1
  funext r
  by_cases hdir : r.1.direction = direction
  · simp only [if_pos hdir]
  · simp only [if_neg hdir]
    rfl

theorem dnsPatterns_fst (ms : List Match) (direction : Direction) :
    (dnsPatterns c ms direction).map (·.1) =
      ms.filterMap fun m => if m.direction = direction then dnsPattern c m else none := by
  rw [dnsPatterns_eq]
  exact numbered_patterns (f := fun m =>
    if m.direction = direction then dnsPattern c m else none) ms

theorem isPerProcess_iff {m : Match} :
    m.isPerProcess = true ↔ m.kind = .basename ∨ m.kind = .path := by
  unfold Match.isPerProcess
  cases m.kind <;> simp

end

end Rebpf
