import Rebpf.Installed
import Rebpf.Lib.Splice
import Mathlib.Data.List.Perm.Basic

namespace Rebpf

open Lib

/-- The change of the list that a successful edit stands for. -/
def Edit.splice (ms : Matches) : Edit → Option (Splice Match)
  | .add new => some (Splice.push ms.entries new)
  | .replace old new => do
    let pos ← ms.position old
    let stored ← ms.entries[pos]?
    return ⟨pos, [stored], [new]⟩
  | .del m => do
    let pos ← ms.position m
    let stored ← ms.entries[pos]?
    return ⟨pos, [stored], []⟩

/-- The list after some edits. One that panics leaves what it had pushed. -/
def Matches.edited (c : Crates) (e : Endian) (ms : Matches) (edits : List Edit) : Matches :=
  edits.foldl (fun ms edit => (edit.apply c e ms).2) ms

def dnsNumber (entries : List Match) : Nat := (entries.filter Match.isDns).length

def Match.dnsCode (m : Match) : Int32 := if m.isDns then 1 else 0

/-- `dns_count` is the number of `dns` entries as `update` computes it. -/
def Matches.Counted (ms : Matches) : Prop := ms.dnsCount = .ofNat (dnsNumber ms.entries)

theorem Matches.update_counted (ms : Matches) : ms.update.Counted := rfl

theorem dnsNumber_perm {xs ys : List Match} (h : xs.Perm ys) : dnsNumber xs = dnsNumber ys :=
  (h.filter _).length_eq

theorem dnsNumber_cons (m : Match) (ms : List Match) :
    Int32.ofNat (dnsNumber (m :: ms)) = m.dnsCode + .ofNat (dnsNumber ms) := by
  unfold dnsNumber Match.dnsCode
  by_cases hm : m.isDns = true
  · rw [List.filter_cons_of_pos hm, if_pos hm, List.length_cons, Nat.add_comm, Int32.ofNat_add]
    rfl
  · rw [List.filter_cons_of_neg hm, if_neg hm, Int32.zero_add]

theorem dnsNumber_push (ms : List Match) (m : Match) :
    Int32.ofNat (dnsNumber (ms ++ [m])) = .ofNat (dnsNumber ms) + m.dnsCode := by
  rw [dnsNumber_perm (List.perm_append_singleton m ms), dnsNumber_cons, Int32.add_comm]

/-- Taking an entry out lowers the number by what the entry counts for. -/
theorem dnsNumber_eraseIdx {ms : List Match} {pos : Nat} {old : Match} (h : ms[pos]? = some old) :
    Int32.ofNat (dnsNumber ms) = old.dnsCode + .ofNat (dnsNumber (ms.eraseIdx pos)) := by
  obtain ⟨hpos, rfl⟩ := List.getElem?_eq_some_iff.mp h
  rw [← dnsNumber_cons, dnsNumber_perm (List.getElem_cons_eraseIdx_perm hpos)]

theorem dnsNumber_set {ms : List Match} {pos : Nat} (h : pos < ms.length) (new : Match) :
    Int32.ofNat (dnsNumber (ms.set pos new)) =
      new.dnsCode + .ofNat (dnsNumber (ms.eraseIdx pos)) := by
  rw [dnsNumber_perm (List.set_perm_cons_eraseIdx h new), dnsNumber_cons]

variable {c : Crates} {e : Endian} {ms : Matches}

/-- What a call of `add`, `replace` or `del` may do to the list. -/
structure Edit.Keeps (edit : Edit) (ms : Matches) (r : Outcome) : Prop where
  counted : ms.Counted → r.2.Counted
  success : r.1 = .ok () → r.2.generation = ms.generation + 1 ∧
    ∃ x, edit.splice ms = some x ∧ x.Fits ms.entries ∧ r.2.entries = x.apply ms.entries
  failure : ∀ msg, r.1 = .error (.err msg) → r.2 = ms

theorem Edit.Keeps.failed (edit : Edit) (ms : Matches) (msg : String) :
    edit.Keeps ms (.error (.err msg), ms) :=
  ⟨fun h => h, nofun, fun _ _ => rfl⟩

theorem Edit.Keeps.panicked (edit : Edit) (ms : Matches) {m : Match} (hm : m.isDns = false) :
    edit.Keeps ms (.error .panic, ms.pushed m) := by
  refine ⟨fun h => ?_, nofun, nofun⟩
  show ms.dnsCount = _
  have hcode : m.dnsCode = 0 := by simp [Match.dnsCode, hm]
  rw [h, Matches.pushed, dnsNumber_push, hcode, Int32.add_zero]

theorem add_keeps (new : Match) : (Edit.add new).Keeps ms (ms.add c e new) := by
  obtain ⟨msg, h⟩ | ⟨hdns, h⟩ | ⟨_, h⟩ := Matches.add_cases c e ms new
  · rw [h]
    exact .failed _ ms msg
  · rw [h]
    exact .panicked _ ms hdns
  · rw [h]
    refine ⟨fun hcounted => ?_, fun _ => ⟨rfl, _, rfl, Splice.push_fits _ _, ?_⟩, nofun⟩
    · show ms.dnsCount + new.dnsCode = _
      rw [hcounted, dnsNumber_push]
    · exact (Splice.push_apply _ _).symm

/-- The count goes by the entry named in the request, which is of the same kind
as the one replaced. -/
theorem replace_keeps (old new : Match) :
    (Edit.replace old new).Keeps ms (ms.replace c e old new) := by
  obtain ⟨msg, h⟩ | ⟨m, _, hdns, h⟩ | ⟨pos, hpos, _, h⟩ := Matches.replace_cases c e ms old new
  · rw [h]
    exact .failed _ ms msg
  · rw [h]
    exact .panicked _ ms hdns
  · obtain ⟨stored, hstored, heq⟩ := Matches.position_some hpos
    have hlt : pos < ms.entries.length := (List.getElem?_eq_some_iff.mp hstored).1
    have hcode : stored.dnsCode = old.dnsCode := by
      rw [Match.dnsCode, Match.dnsCode, Match.isEqTo_isDns heq]
    rw [h]
    refine ⟨fun hcounted => ?_, fun _ => ⟨rfl, ⟨pos, [stored], [new]⟩, ?_,
      Splice.fits_single hstored, (Splice.apply_set hstored).symm⟩, nofun⟩
    · show ms.dnsCount + (new.dnsCode - old.dnsCode) = _
      rw [hcounted, dnsNumber_eraseIdx hstored, dnsNumber_set hlt, hcode]
      generalize Int32.ofNat _ = rest
      rw [Int32.add_comm old.dnsCode, Int32.add_assoc, Int32.sub_eq_add_neg,
        Int32.add_comm new.dnsCode, ← Int32.add_assoc old.dnsCode, Int32.add_right_neg,
        Int32.zero_add, Int32.add_comm]
    · simp [Edit.splice, hpos, hstored]

theorem del_keeps (m : Match) : (Edit.del m).Keeps ms (ms.del c e m) := by
  obtain ⟨msg, h⟩ | ⟨hdns, h⟩ | ⟨pos, stored, hpos, hstored, h⟩ := Matches.del_cases c e ms m
  · rw [h]
    exact .failed _ ms msg
  · rw [h]
    exact .panicked _ ms hdns
  · rw [h]
    refine ⟨fun hcounted => ?_, fun _ => ⟨rfl, ⟨pos, [stored], []⟩, ?_,
      Splice.fits_single hstored, Splice.apply_eraseIdx.symm⟩, nofun⟩
    · show ms.dnsCount - stored.dnsCode = _
      rw [hcounted, dnsNumber_eraseIdx hstored, Int32.add_comm, Int32.add_sub_cancel]
    · simp [Edit.splice, hpos, hstored]

theorem Edit.apply_keeps (edit : Edit) (ms : Matches) :
    edit.Keeps ms (edit.apply c e ms) := by
  cases edit with
  | add new => exact add_keeps new
  | replace old new => exact replace_keeps old new
  | del m => exact del_keeps m

theorem Matches.edited_counted (h : ms.Counted) (edits : List Edit) :
    (ms.edited c e edits).Counted := by
  induction edits generalizing ms with
  | nil => exact h
  | cons edit edits ih => exact ih ((edit.apply_keeps ms).counted h)

/-- Below the end of its 32 bits the count is the number itself. -/
theorem Matches.Counted.toInt (h : ms.Counted) (small : dnsNumber ms.entries < 2 ^ 31) :
    ms.dnsCount.toInt = dnsNumber ms.entries := by
  rw [h, Int32.toInt_ofNat_of_lt small]

/-- How a call leaves the list it was made on: the count is that of the entries,
success is a step of the generation and one change of the list, and an error
leaves everything as it was. The numbers are exact until they wrap. -/
structure Edit.KeepsStore (edit : Edit) (ms : Matches) (r : Outcome) : Prop where
  counted : r.2.dnsCount = .ofNat (dnsNumber r.2.entries)
  number : dnsNumber r.2.entries < 2 ^ 31 → r.2.dnsCount.toInt = dnsNumber r.2.entries
  generation : r.1 = .ok () → r.2.generation = ms.generation + 1
  raised : r.1 = .ok () → ms.generation.toNat + 1 < 2 ^ 64 →
    r.2.generation.toNat = ms.generation.toNat + 1
  changed : r.1 = .ok () →
    ∃ x, edit.splice ms = some x ∧ x.Fits ms.entries ∧ r.2.entries = x.apply ms.entries
  failure : ∀ msg, r.1 = .error (.err msg) → r.2 = ms

/-- Every call after any others on a list that `update` was run on. -/
theorem edits_keep_store (c : Crates) (e : Endian) (loaded : Matches) (edits : List Edit)
    (edit : Edit) :
    edit.KeepsStore (loaded.update.edited c e edits)
      (edit.apply c e (loaded.update.edited c e edits)) := by
  have keeps := edit.apply_keeps (c := c) (e := e) (loaded.update.edited c e edits)
  have counted := keeps.counted (Matches.edited_counted loaded.update_counted edits)
  refine ⟨counted, counted.toInt, fun hok => (keeps.success hok).1, fun hok hroom => ?_,
    fun hok => (keeps.success hok).2, keeps.failure⟩
  rw [(keeps.success hok).1, UInt64.toNat_add]
  exact Nat.mod_eq_of_lt hroom

/-- A rule that names no address, which `try_parse` refuses. -/
def unparsable : Match where
  pattern := ""
  kind := .ipv4
  method := .full
  direction := .redirect
  uid := 0

theorem unparsable_fails (ms : Matches) :
    ∃ msg, (Edit.add unparsable).apply slashACrates .little ms = (.error (.err msg), ms) :=
  ⟨_, rfl⟩

/-- A generation at its maximum wraps to 0, and so does the count of 2^31 entries. -/
theorem edits_not_keep_store :
    (¬∀ (c : Crates) (e : Endian) (loaded : Matches) (edits : List Edit) (edit : Edit),
      (edit.apply c e (loaded.update.edited c e edits)).1 = .ok () →
        (edit.apply c e (loaded.update.edited c e edits)).2.generation.toNat =
          (loaded.update.edited c e edits).generation.toNat + 1) ∧
    ¬∀ (c : Crates) (e : Endian) (loaded : Matches) (edits : List Edit) (edit : Edit),
      (edit.apply c e (loaded.update.edited c e edits)).2.dnsCount.toInt =
        dnsNumber (edit.apply c e (loaded.update.edited c e edits)).2.entries := by
  constructor
  · intro h
    have hlast := h slashACrates .little ⟨[], 2 ^ 64 - 1, 0⟩ []
      (.add { unparsable with pattern := "1.2.3.4" })
    exact absurd (hlast (by decide +kernel)) (by decide +kernel)
  · intro h
    have hmany := h slashACrates .little
      ⟨List.replicate (2 ^ 31) { unparsable with kind := .dns }, 0, 0⟩ [] (.add unparsable)
    obtain ⟨msg, hfails⟩ := unparsable_fails (Matches.update
      ⟨List.replicate (2 ^ 31) { unparsable with kind := .dns }, 0, 0⟩)
    have hnumber : dnsNumber (List.replicate (2 ^ 31) { unparsable with kind := .dns }) = 2 ^ 31 := by
      rw [dnsNumber, List.filter_replicate_of_pos rfl, List.length_replicate]
    rw [Matches.edited, List.foldl_nil, hfails] at hmany
    simp only [Matches.update] at hmany
    rw [← dnsNumber, hnumber] at hmany
    exact absurd hmany (by decide)

end Rebpf
