import Rebpf.Requests
import Rebpf.Edits

namespace Rebpf

open Lib

/-- A list edit that touches nothing but a user's own entries. -/
structure OwnSplice (uid : UInt32) (before after : Matches) (x : Splice Match) : Prop where
  fits : x.Fits before.entries
  old : ∀ m ∈ x.old, m.isOwn uid = true
  new : ∀ m ∈ x.new, m.isOwn uid = true
  result : after.entries = x.apply before.entries

section

variable {uid : UInt32} {self : Matches}

theorem OwnSplice.none (uid : UInt32) (self : Matches) : OwnSplice uid self self ⟨0, [], []⟩ :=
  ⟨rfl, by simp, by simp, rfl⟩

theorem OwnSplice.push {m : Match} (own : m.isOwn uid = true) {next : Matches}
    (h : next.entries = self.entries ++ [m]) :
    OwnSplice uid self next (Splice.push self.entries m) :=
  ⟨Splice.push_fits _ _, by simp [Splice.push], by simpa [Splice.push] using own,
    h.trans (Splice.push_apply _ _).symm⟩

/-- A reply and the list it comes with: only the user's own entries were
touched, and with success in the way the request says. -/
def Request.Own (debug : String → String) (uid : UInt32) (self : Matches) (req : Request)
    (r : Reply × Matches) : Prop :=
  ∃ x, OwnSplice uid self r.2 x ∧ (r.1 = .ok () → req.splice debug uid self = some x)

theorem Request.Own.failed {debug : String → String} (req : Request) (err : RequestError) :
    req.Own debug uid self (.error err, self) :=
  ⟨_, OwnSplice.none uid self, fun h => by cases h⟩

theorem Request.Own.panicked {debug : String → String} (req : Request) {m : Match}
    (own : m.isOwn uid = true) : req.Own debug uid self (.error .panic, self.pushed m) :=
  ⟨_, OwnSplice.push own rfl, fun h => by cases h⟩

section

variable (debug : String → String) (c : Crates) (e : Endian) (self : Matches) {polkit : Polkit}
  (hu : uid ≠ 0) (denied : polkit ≠ .ok true)

include hu denied

theorem addMatch_own (new : Fields) :
    (Request.addMatch new).Own debug uid self
      ((Request.addMatch new).handle debug c e uid polkit self) := by
  obtain ⟨err, h⟩ | ⟨m, hm, hown, h⟩ := serve_unauthorised hu denied
    (rfl : _ = (Request.addMatch new).handle debug c e uid polkit self)
  · rw [h]
    exact .failed _ err
  rw [foreignTo_eq_false] at hown
  rw [h]
  obtain ⟨msg, hadd⟩ | ⟨_, hadd⟩ | ⟨_, hadd⟩ := Matches.add_cases c e self m
  · rw [hadd]
    exact .failed _ _
  · rw [hadd]
    exact .panicked _ hown
  · rw [hadd]
    exact ⟨_, OwnSplice.push hown rfl, fun _ => by simp [Request.splice, hm, Except.toOption]⟩

theorem updateMatch_own (old new : Fields) :
    (Request.updateMatch old new).Own debug uid self
      ((Request.updateMatch old new).handle debug c e uid polkit self) := by
  obtain ⟨err, h⟩ | ⟨⟨m, n⟩, hm, hown, h⟩ := serve_unauthorised hu denied
    (rfl : _ = (Request.updateMatch old new).handle debug c e uid polkit self)
  · rw [h]
    exact .failed _ err
  obtain ⟨m', hm', hn⟩ := bind_eq_ok.mp hm
  obtain ⟨n', hn', hpair⟩ := bind_eq_ok.mp hn
  obtain ⟨rfl, rfl⟩ := Prod.mk.inj (pure_eq_ok.mp hpair)
  obtain ⟨hown, hown'⟩ := Bool.or_eq_false_iff.mp hown
  rw [foreignTo_eq_false] at hown hown'
  rw [h]
  obtain ⟨msg, hrep⟩ | ⟨k, hk, _, hrep⟩ | ⟨pos, hpos, _, hrep⟩ :=
    Matches.replace_cases c e self m' n'
  · rw [hrep]
    exact .failed _ _
  · rw [hrep]
    rcases hk with rfl | rfl
    · exact .panicked _ hown
    · exact .panicked _ hown'
  · obtain ⟨stored, hstored, heq⟩ := Matches.position_some hpos
    rw [hrep]
    refine ⟨⟨pos, [stored], [n']⟩, ⟨Splice.fits_single hstored, ?_, ?_, ?_⟩, fun _ => ?_⟩
    · simpa using (Match.isEqTo_isOwn heq).trans hown
    · simpa using hown'
    · exact (Splice.apply_set hstored).symm
    · simp [Request.splice, hm', hn', Except.toOption, hpos, hstored]

theorem deleteMatch_own (del : Fields) :
    (Request.deleteMatch del).Own debug uid self
      ((Request.deleteMatch del).handle debug c e uid polkit self) := by
  obtain ⟨err, h⟩ | ⟨m, hm, hown, h⟩ := serve_unauthorised hu denied
    (rfl : _ = (Request.deleteMatch del).handle debug c e uid polkit self)
  · rw [h]
    exact .failed _ err
  rw [foreignTo_eq_false] at hown
  rw [h]
  obtain ⟨msg, hdel⟩ | ⟨_, hdel⟩ | ⟨pos, stored, hpos, hstored, hdel⟩ := Matches.del_cases c e self m
  · rw [hdel]
    exact .failed _ _
  · rw [hdel]
    exact .panicked _ hown
  · obtain ⟨stored', hstored', heq⟩ := Matches.position_some hpos
    obtain rfl := Option.some.inj (hstored.symm.trans hstored')
    rw [hdel]
    refine ⟨⟨pos, [stored], []⟩, ⟨Splice.fits_single hstored, ?_, by simp, ?_⟩, fun _ => ?_⟩
    · simpa using (Match.isEqTo_isOwn heq).trans hown
    · exact Splice.apply_eraseIdx.symm
    · simp [Request.splice, hm, Except.toOption, hpos, hstored]

theorem Request.handle_own (req : Request) :
    req.Own debug uid self (req.handle debug c e uid polkit self) := by
  cases req with
  | addMatch new => exact addMatch_own debug c e self hu denied new
  | updateMatch old new => exact updateMatch_own debug c e self hu denied old new
  | deleteMatch del => exact deleteMatch_own debug c e self hu denied del

end

end

/-- A request as the daemon receives it: who sent it, and what polkit would say. -/
structure Call where
  uid : UInt32
  polkit : Polkit
  request : Request
deriving DecidableEq, Repr

def Call.step (debug : String → String) (c : Crates) (e : Endian) (self : Matches) (call : Call) :
    Option Matches :=
  some (call.request.handle debug c e call.uid call.polkit self).2

/-- However many requests a user makes without authorisation, the entries that
are not the user's own per-process ones stay as they are. -/
theorem unauthorised_run_keeps_others {debug : String → String} {c : Crates} {e : Endian}
    {uid : UInt32} (hu : uid ≠ 0) {calls : List Call}
    (denied : ∀ call ∈ calls, call.uid = uid ∧ call.polkit ≠ .ok true) {s t : Matches}
    (run : Run (Call.step debug c e) (fun _ _ => True) s calls t) :
    t.entries.filter (fun m => !m.isOwn uid) = s.entries.filter (fun m => !m.isOwn uid) := by
  refine run.invariant_events (I := fun m => m.entries.filter (fun m => !m.isOwn uid) =
    s.entries.filter fun m => !m.isOwn uid) ?_ denied rfl
  rintro self call next ⟨rfl, hpolkit⟩ hself _ hnext
  obtain rfl := Option.some.inj hnext
  obtain ⟨x, own, _⟩ := call.request.handle_own debug c e self hu hpolkit
  rw [own.result, Splice.filter_apply own.fits]
  · exact hself
  · exact fun m hm => by simp [own.old m hm]
  · exact fun m hm => by simp [own.new m hm]

def quoted (s : String) : String := "\"" ++ s ++ "\""

/-- User 1000 adds a rule next to user 7's, and then cannot delete that one. -/
def ownCalls : List Call :=
  [⟨1000, .ok false, .addMatch [("kind", "path"), ("pattern", "/a")]⟩,
    ⟨1000, .ok false, .deleteMatch [("pattern", "/a"), ("kind", "path"), ("uid", "7")]⟩]

def ownList : Matches := ⟨[slashARule .redirect 7, slashARule .redirect 1000], 2, 0⟩

theorem unauthorised_run_keeps_others_ownCalls :
    Run (Call.step quoted slashACrates .little) (fun _ _ => True)
        ⟨[slashARule .redirect 7], 1, 0⟩ ownCalls ownList ∧
      ownList.entries.filter (fun m => !m.isOwn 1000) = [slashARule .redirect 7] := by
  have added : Call.step quoted slashACrates .little ⟨[slashARule .redirect 7], 1, 0⟩
      ⟨1000, .ok false, .addMatch [("kind", "path"), ("pattern", "/a")]⟩ = some ownList := by
    decide +kernel
  have refused : Call.step quoted slashACrates .little ownList
      ⟨1000, .ok false, .deleteMatch [("pattern", "/a"), ("kind", "path"), ("uid", "7")]⟩ =
        some ownList := by
    decide +kernel
  have run : Run (Call.step quoted slashACrates .little) (fun _ _ => True)
      ⟨[slashARule .redirect 7], 1, 0⟩ ownCalls ownList :=
    .cons trivial added (.single trivial refused)
  exact ⟨run, unauthorised_run_keeps_others (by decide) (by simp [ownCalls]) run⟩

end Rebpf
