import Mathlib.Logic.Function.Iterate
import Rebpf.NatRules

namespace Rebpf

open Lib

inductive ErrorKind
  | interrupted
  | other
deriving DecidableEq, Repr

inductive NatResult
  | ok
  | notFound
  | failed
deriving DecidableEq, Repr

/-- How a call has ended, and how many of its batches were applied in attempts that failed. -/
structure NatReturn where
  edit : NatEdit
  result : NatResult
  lost : Nat
deriving DecidableEq, Repr

/-- The chain, with the attempt under way; the call it is made for, with its batches that were
applied in failed attempts, and how the calls before have ended. -/
structure NatCaller where
  opt : Optimistic NftChain NatEdit NatNotes
  call : Option (NatEdit × Nat)
  returned : List NatReturn

/-- What others do to the chain, and what a call does from one request to the next. An error
has the kind that the library gives it. -/
inductive NatEvent
  | other (chain : NftChain)
  | call (edit : NatEdit)
  | getGenid
  | recv
  | notFound
  | sendBatch (refusal : ErrorKind) (lost : Option ErrorKind)
  | fails (kind : ErrorKind)

/-- The generation after so many edits: a word that is never 0. -/
def genid (edits : Nat) : Nat := edits % (2 ^ 32 - 1) + 1

/-- The edits of a call. -/
def NatReturn.made (r : NatReturn) : List NatEdit :=
  .replicate (if r.result = .ok then r.lost + 1 else r.lost) r.edit

namespace NatCaller

def new (chain : NftChain) : NatCaller := ⟨⟨chain, 0, none, []⟩, none, []⟩

def ended (s : NatCaller) (call : NatEdit × Nat) (result : NatResult) : NatCaller :=
  { s with call := none, returned := s.returned ++ [⟨call.1, result, call.2⟩] }

/-- `iptables_rule` makes another attempt after an interrupted one. -/
def refused (s : NatCaller) (call : NatEdit × Nat) : ErrorKind → NatCaller
  | .interrupted => { s with call := some call }
  | .other => s.ended call .failed

/-- The answer to a batch that was applied: `recv_all` may fail all the same. -/
def answered (s : NatCaller) (call : NatEdit × Nat) : Option ErrorKind → NatCaller
  | none => s.ended call .ok
  | some kind => s.refused (call.1, call.2 + 1) kind

section

variable (e : Endian)

def optStep (s : NatCaller) (event : OptimisticEvent NftChain NatEdit) : Option NatCaller :=
  (s.opt.step genid (iptablesAttempt e) event).map fun opt => { s with opt }

def step (s : NatCaller) : NatEvent → Option NatCaller
  | .other chain => s.optStep e (.other chain)
  | .call edit =>
    match s.call with
    | none => some { s with call := some (edit, 0) }
    | some _ => none
  | .getGenid => do s.optStep e (.ask (← s.call).1)
  | .recv => s.optStep e .look
  | .notFound => do
    let call ← s.call
    let (_, _, notes) ← s.opt.client
    if notes = .missing then
      let s ← s.optStep e .giveUp
      return s.ended call .notFound
    else none
  | .sendBatch refusal lost => do
    let call ← s.call
    let (_, _, notes) ← s.opt.client
    match notes with
    | .ready | .found _ =>
      let t ← s.optStep e .send
      return if t.opt.accepted = s.opt.accepted then t.refused call refusal
        else t.answered call lost
    | _ => none
  | .fails kind => do
    let call ← s.call
    return { s with opt := { s.opt with client := none } }.refused call kind

end

/-- The calls so far, and the one under way. -/
def asked (s : NatCaller) : List NatEdit :=
  s.returned.map (·.edit) ++ s.call.toList.map (·.1)

/-- The edits that the calls have made, in their order. -/
def edits (s : NatCaller) : List NatEdit :=
  s.returned.flatMap NatReturn.made ++ s.call.toList.flatMap fun call => .replicate call.2 call.1

/-- No batch of a failed attempt was applied. -/
structure NoneLost (s : NatCaller) : Prop where
  returned : ∀ r ∈ s.returned, r.lost = 0
  call : ∀ call, s.call = some call → call.2 = 0

/-- While an attempt is under way, fewer edits are made than there are generations. -/
def InTime (s : NatCaller) : Prop :=
  ∀ edit seen notes, s.opt.client = some (edit, seen, notes) →
    s.opt.edits < seen + (2 ^ 32 - 1)

/-- Each step is in time, and others make only such edits. -/
def Allowed (others : NftChain → NftChain → Prop) (s : NatCaller) (event : NatEvent) : Prop :=
  s.InTime ∧ ∀ chain, event = .other chain → others s.opt.value chain

structure Inv (s : NatCaller) : Prop where
  client : ∀ edit seen notes, s.opt.client = some (edit, seen, notes) →
    ∃ applied, s.call = some (edit, applied)
  accepted : s.opt.accepted = s.edits

end NatCaller

namespace NatEvent

def otherEdit : NatEvent → Option NftChain
  | .other chain => some chain
  | _ => none

def asked : NatEvent → Option NatEdit
  | .call edit => some edit
  | _ => none

/-- A batch is applied, and the attempt fails. -/
def IsLost : NatEvent → Prop
  | .sendBatch _ (some _) => True
  | _ => False

end NatEvent

/-- The notes are such that a batch is sent. -/
def NatNotes.Sends : NatNotes → Prop
  | .ready | .found _ => True
  | _ => False

namespace NatCaller

variable {e : Endian} {others : NftChain → NftChain → Prop} {s t : NatCaller} {event : NatEvent}
  {call : NatEdit × Nat}

theorem InTime.inWindow (h : s.InTime) : s.opt.InWindow genid := by
  intro edit seen notes hclient hle hsame
  have hlt := h edit seen notes hclient
  unfold genid at hsame
  omega

theorem optStep_some {opt : OptimisticEvent NftChain NatEdit} (taken : s.optStep e opt = some t) :
    ∃ next, s.opt.step genid (iptablesAttempt e) opt = some next ∧ t = { s with opt := next } := by
  obtain ⟨next, hnext, rfl⟩ := Option.map_eq_some_iff.mp taken
  exact ⟨next, hnext, rfl⟩

theorem notFound_some (taken : s.step e .notFound = some t) : ∃ call edit seen,
    s.call = some call ∧ s.opt.client = some (edit, seen, .missing) ∧
      t = { s with opt := { s.opt with client := none } }.ended call .notFound := by
  obtain ⟨call, hcall, taken⟩ := Option.bind_eq_some_iff.mp taken
  obtain ⟨⟨edit, seen, notes⟩, hclient, taken⟩ := Option.bind_eq_some_iff.mp taken
  dsimp only at taken
  split at taken
  next hmissing =>
    obtain ⟨mid, hmid, taken⟩ := Option.bind_eq_some_iff.mp taken
    obtain ⟨next, hnext, rfl⟩ := optStep_some hmid
    obtain ⟨_, _, rfl⟩ := Option.map_eq_some_iff.mp hnext
    cases Option.some.inj taken
    exact ⟨call, edit, seen, hcall, hmissing ▸ hclient, rfl⟩
  next => cases taken

theorem sendBatch_some {refusal : ErrorKind} {lost : Option ErrorKind}
    (taken : s.step e (.sendBatch refusal lost) = some t) : ∃ call edit seen notes next,
      s.call = some call ∧ s.opt.client = some (edit, seen, notes) ∧ notes.Sends ∧
      s.opt.step genid (iptablesAttempt e) .send = some next ∧
      (next.accepted = s.opt.accepted ∧ t = { s with opt := next }.refused call refusal ∨
        next.accepted ≠ s.opt.accepted ∧ t = { s with opt := next }.answered call lost) := by
  obtain ⟨call, hcall, taken⟩ := Option.bind_eq_some_iff.mp taken
  obtain ⟨⟨edit, seen, notes⟩, hclient, taken⟩ := Option.bind_eq_some_iff.mp taken
  obtain ⟨sends, mid, hmid, taken⟩ : notes.Sends ∧ ∃ mid, s.optStep e .send = some mid ∧
      (if mid.opt.accepted = s.opt.accepted then mid.refused call refusal
        else mid.answered call lost) = t := by
    dsimp only at taken
    split at taken
    next => exact ⟨trivial, by simpa [Option.bind_eq_some_iff] using taken⟩
    next => exact ⟨trivial, by simpa [Option.bind_eq_some_iff] using taken⟩
    next => cases taken
  obtain ⟨next, hnext, rfl⟩ := optStep_some hmid
  refine ⟨call, edit, seen, notes, next, hcall, hclient, sends, hnext, ?_⟩
  split at taken
  next same => exact Or.inl ⟨same, taken.symm⟩
  next new => exact Or.inr ⟨new, taken.symm⟩

@[simp] theorem ended_opt (s : NatCaller) (call : NatEdit × Nat) (result : NatResult) :
    (s.ended call result).opt = s.opt := rfl

@[simp] theorem refused_opt (s : NatCaller) (call : NatEdit × Nat) (kind : ErrorKind) :
    (s.refused call kind).opt = s.opt := by
  cases kind <;> rfl

theorem edits_call (hcall : s.call = some call) :
    s.edits = s.returned.flatMap NatReturn.made ++ .replicate call.2 call.1 := by
  simp [edits, hcall]

theorem edits_ended (s : NatCaller) (call : NatEdit × Nat) (result : NatResult) :
    (s.ended call result).edits = s.returned.flatMap NatReturn.made ++
      (NatReturn.mk call.1 result call.2).made := by
  simp [edits, ended]

theorem edits_refused (s : NatCaller) (call : NatEdit × Nat) (kind : ErrorKind) :
    (s.refused call kind).edits =
      s.returned.flatMap NatReturn.made ++ .replicate call.2 call.1 := by
  cases kind with
  | interrupted => exact edits_call rfl
  | other => exact edits_ended s call .failed

theorem asked_ended (s : NatCaller) (call : NatEdit × Nat) (result : NatResult) :
    (s.ended call result).asked = s.returned.map (·.edit) ++ [call.1] := by
  simp [asked, ended]

theorem asked_refused (s : NatCaller) (call : NatEdit × Nat) (kind : ErrorKind) :
    (s.refused call kind).asked = s.returned.map (·.edit) ++ [call.1] := by
  cases kind with
  | interrupted => rfl
  | other => exact asked_ended s call .failed

theorem NoneLost.with_opt (h : s.NoneLost) (opt : Optimistic NftChain NatEdit NatNotes) :
    NoneLost { s with opt } :=
  ⟨h.returned, h.call⟩

theorem NoneLost.ended (h : s.NoneLost) (hcall : call.2 = 0) (result : NatResult) :
    (s.ended call result).NoneLost := by
  refine ⟨fun r hr => ?_, by simp [NatCaller.ended]⟩
  obtain hr | hr := List.mem_append.mp hr
  · exact h.returned r hr
  · rw [List.mem_singleton.mp hr, hcall]

theorem NoneLost.refused (h : s.NoneLost) (hcall : call.2 = 0) (kind : ErrorKind) :
    (s.refused call kind).NoneLost := by
  cases kind with
  | interrupted =>
    refine ⟨h.returned, ?_⟩
    rintro _ ⟨⟩
    exact hcall
  | other => exact h.ended hcall .failed

/-- A step of the call is at most one of the attempt. -/
structure Follows (e : Endian) (others : NftChain → NftChain → Prop) (s : NatCaller)
    (event : NatEvent) (t : NatCaller) : Prop where
  inv : t.Inv
  asked : t.asked = s.asked ++ event.asked.toList
  noneLost : ¬ event.IsLost → s.NoneLost → t.NoneLost
  opts : ∃ opts, Run (Optimistic.step genid (iptablesAttempt e)) (Optimistic.Allowed genid others)
      s.opt opts t.opt ∧
    opts.filterMap OptimisticEvent.otherEdit = event.otherEdit.toList

/-- An attempt has ended, and with it the call or not. -/
theorem Follows.idle {opts : List (OptimisticEvent NftChain NatEdit)}
    (hcall : s.call = some call) (quiet : event.asked = none) (own : event.otherEdit = none)
    (run : Run (Optimistic.step genid (iptablesAttempt e)) (Optimistic.Allowed genid others)
      s.opt opts t.opt) (hopts : opts.filterMap OptimisticEvent.otherEdit = [])
    (idle : t.opt.client = none) (accepted : t.opt.accepted = t.edits)
    (asked : t.asked = s.returned.map (·.edit) ++ [call.1])
    (noneLost : ¬ event.IsLost → s.NoneLost → t.NoneLost) : Follows e others s event t where
  inv := ⟨by simp [idle], accepted⟩
  asked := by
    rw [asked, quiet, NatCaller.asked, hcall]
    simp
  noneLost := noneLost
  opts := ⟨opts, run, by rw [hopts, own]; rfl⟩

theorem step_follows (h : s.Inv) (allowed : s.Allowed others event)
    (taken : s.step e event = some t) : s.Follows e others event t := by
  obtain ⟨intime, foreign⟩ := allowed
  have window := intime.inWindow
  cases event with
  | other chain =>
    obtain ⟨next, hnext, rfl⟩ := optStep_some taken
    refine ⟨?_, by simp [asked, NatEvent.asked], fun _ hlost => hlost.with_opt _,
      [.other chain], .single ⟨window, ?_⟩ hnext, rfl⟩
    · cases Option.some.inj hnext
      exact ⟨h.client, h.accepted⟩
    · rintro _ ⟨⟩
      exact foreign chain rfl
  | call edit =>
    simp only [step] at taken
    split at taken
    next hcall =>
      cases Option.some.inj taken
      refine ⟨⟨fun edit seen notes hclient => ?_, ?_⟩, by simp [asked, hcall, NatEvent.asked],
        fun _ hlost => ⟨hlost.returned, ?_⟩, [], .nil, rfl⟩
      · obtain ⟨_, hcall'⟩ := h.client edit seen notes hclient
        cases hcall.symm.trans hcall'
      · simp [h.accepted, edits, hcall]
      · rintro _ ⟨⟩
        rfl
    next => cases taken
  | getGenid =>
    obtain ⟨⟨edit, applied⟩, hcall, taken⟩ := Option.bind_eq_some_iff.mp taken
    obtain ⟨next, hnext, rfl⟩ := optStep_some taken
    refine ⟨?_, by simp [asked, NatEvent.asked], fun _ hlost => hlost.with_opt _,
      [.ask edit], .single ⟨window, by simp⟩ hnext, rfl⟩
    simp only [Optimistic.step] at hnext
    split at hnext
    next =>
      cases Option.some.inj hnext
      refine ⟨?_, h.accepted⟩
      rintro _ _ _ ⟨⟩
      exact ⟨applied, hcall⟩
    next => cases hnext
  | recv =>
    obtain ⟨next, hnext, rfl⟩ := optStep_some taken
    refine ⟨?_, by simp [asked, NatEvent.asked], fun _ hlost => hlost.with_opt _,
      [.look], .single ⟨window, by simp⟩ hnext, rfl⟩
    obtain ⟨edit, seen, notes, _, hclient, _, rfl⟩ := Optimistic.look_some hnext
    refine ⟨?_, h.accepted⟩
    rintro _ _ _ ⟨⟩
    exact h.client edit seen notes hclient
  | notFound =>
    obtain ⟨call, edit, seen, hcall, hclient, rfl⟩ := notFound_some taken
    have hgive : s.opt.step genid (iptablesAttempt e) .giveUp =
        some { s.opt with client := none } := by simp [Optimistic.step, hclient]
    refine .idle hcall rfl rfl (.single ⟨window, by simp⟩ hgive) rfl rfl ?_
      (asked_ended ..) fun _ hlost => ?_
    · rw [edits_ended]
      exact h.accepted.trans (edits_call hcall)
    · exact (hlost.with_opt _).ended (hlost.call call hcall) .notFound
  | sendBatch refusal lost =>
    obtain ⟨⟨edit, applied⟩, _, _, _, next, hcall, _, _, hnext, hends⟩ := sendBatch_some taken
    obtain ⟨r, _, _, hr, hidle, haccepted⟩ := Optimistic.send_some hnext
    have hsame : r = edit := by
      obtain ⟨_, hcall'⟩ := h.client r _ _ hr
      exact congrArg Prod.fst (Option.some.inj (hcall'.symm.trans hcall))
    subst hsame
    have run : Run (Optimistic.step genid (iptablesAttempt e)) (Optimistic.Allowed genid others)
        s.opt [.send] next := .single ⟨window, by simp⟩ hnext
    have before := h.accepted.trans (edits_call hcall)
    have after (new : next.accepted ≠ s.opt.accepted) : next.accepted =
        s.returned.flatMap NatReturn.made ++ .replicate (applied + 1) r := by
      rw [haccepted.resolve_left new, before, List.append_assoc, List.replicate_succ']
    obtain ⟨same, rfl⟩ | ⟨new, rfl⟩ := hends
    · refine .idle hcall rfl rfl (by rwa [refused_opt]) rfl (by rwa [refused_opt]) ?_
        (asked_refused ..) fun _ hlost => (hlost.with_opt next).refused (hlost.call _ hcall) refusal
      rw [refused_opt, edits_refused]
      exact same.trans before
    · cases lost with
      | none =>
        refine .idle hcall rfl rfl run rfl hidle ?_
          (asked_ended ..) fun _ hlost => (hlost.with_opt next).ended (hlost.call _ hcall) .ok
        rw [answered, edits_ended]
        exact after new
      | some kind =>
        refine .idle hcall rfl rfl (by rwa [answered, refused_opt]) rfl
          (by rwa [answered, refused_opt]) ?_ (asked_refused ..) fun hkept => absurd trivial hkept
        rw [answered, refused_opt, edits_refused]
        exact after new
  | fails kind =>
    obtain ⟨call, hcall, taken⟩ := Option.bind_eq_some_iff.mp taken
    cases Option.some.inj taken
    have accepted : s.opt.accepted = (({ s with opt := { s.opt with client := none } } :
        NatCaller).refused call kind).edits := by
      rw [edits_refused]
      exact h.accepted.trans (edits_call hcall)
    have noneLost : s.NoneLost → (({ s with opt := { s.opt with client := none } } :
        NatCaller).refused call kind).NoneLost := fun hlost =>
      (hlost.with_opt _).refused (hlost.call call hcall) kind
    cases hclient : s.opt.client with
    | none =>
      have still : Optimistic.mk s.opt.value s.opt.edits none s.opt.accepted = s.opt := by
        rw [← hclient]
      have run : Run (Optimistic.step genid (iptablesAttempt e)) (Optimistic.Allowed genid others)
          s.opt [] s.opt := .nil
      refine .idle hcall rfl rfl (by rwa [refused_opt, still]) rfl (by rw [refused_opt]) ?_
        (asked_refused ..) fun _ => noneLost
      rwa [refused_opt]
    | some client =>
      have hgive : s.opt.step genid (iptablesAttempt e) .giveUp =
          some { s.opt with client := none } := by
        simp only [Optimistic.step, hclient]
        rfl
      have run : Run (Optimistic.step genid (iptablesAttempt e)) (Optimistic.Allowed genid others)
          s.opt [.giveUp] { s.opt with client := none } := .single ⟨window, by simp⟩ hgive
      refine .idle hcall rfl rfl (by rwa [refused_opt]) rfl (by rw [refused_opt]) ?_
        (asked_refused ..) fun _ => noneLost
      rwa [refused_opt]

structure Followed (e : Endian) (others : NftChain → NftChain → Prop) (s : NatCaller)
    (events : List NatEvent) (t : NatCaller) : Prop where
  inv : t.Inv
  asked : t.asked = s.asked ++ events.filterMap NatEvent.asked
  noneLost : (∀ event ∈ events, ¬ event.IsLost) → s.NoneLost → t.NoneLost
  opts : ∃ opts, Run (Optimistic.step genid (iptablesAttempt e)) (Optimistic.Allowed genid others)
      s.opt opts t.opt ∧
    opts.filterMap OptimisticEvent.otherEdit = events.filterMap NatEvent.otherEdit

theorem filterMap_cons_toList {α β : Type*} (f : α → Option β) (x : α) (xs : List α) :
    (x :: xs).filterMap f = (f x).toList ++ xs.filterMap f := by
  cases h : f x <;> simp [h]

theorem run_follows {events : List NatEvent} (run : Run (step e) (Allowed others) s events t)
    (h : s.Inv) : s.Followed e others events t := by
  induction run with
  | nil => exact ⟨h, by simp, fun _ => id, [], .nil, rfl⟩
  | @cons s event mid events t allowed taken _ ih =>
    have first := step_follows h allowed taken
    obtain ⟨ht, hasked, hlost, rest, hrest, hothers'⟩ := ih first.inv
    obtain ⟨opts, hopts, hothers⟩ := first.opts
    refine ⟨ht, ?_, fun kept hnone => ?_, opts ++ rest, hopts.append hrest, ?_⟩
    · rw [hasked, first.asked, filterMap_cons_toList, List.append_assoc]
    · obtain ⟨hevent, kept⟩ := List.forall_mem_cons.mp kept
      exact hlost kept (first.noneLost hevent hnone)
    · rw [List.filterMap_append, hothers, hothers', filterMap_cons_toList]

/-- Without lost batches the calls that succeed have made their edits, and the others none. -/
theorem NoneLost.edits_eq (h : s.NoneLost) :
    s.edits = (s.returned.filter (·.result == .ok)).map (·.edit) := by
  have hcall : (s.call.toList.flatMap fun call => List.replicate call.2 call.1) = [] := by
    cases hcall : s.call with
    | none => rfl
    | some call => simp [h.call call hcall]
  rw [edits, hcall, List.append_nil]
  obtain ⟨hreturned, _⟩ := h
  generalize s.returned = returned at hreturned
  induction returned with
  | nil => rfl
  | cons r returned ih =>
    obtain ⟨hr, hrest⟩ := List.forall_mem_cons.mp hreturned
    rw [List.flatMap_cons, ih hrest, NatReturn.made, hr, List.filter_cons]
    by_cases hok : r.result = .ok
    · simp [hok]
    · simp [hok]

/-- However its requests fall between those of others, each batch of a call is one edit of the
chain in one piece: a call makes its edit once if it succeeds, and once more for each attempt
that has failed after its batch was applied; a call that fails makes only these. -/
theorem calls_serial {chain : NftChain} (valid : chain.Valid) {events : List NatEvent}
    (run : Run (step e) (Allowed fun _ chain => chain.Valid) (.new chain) events t) : ∃ log,
      Run (serialStep (NatEdit.apply e)) (fun _ _ => True) chain log t.opt.value ∧
        log.filterMap SerialEvent.otherEdit = events.filterMap NatEvent.otherEdit ∧
        log.filterMap SerialEvent.ownRequest = t.edits ∧
        t.asked = events.filterMap NatEvent.asked ∧
        ((∀ event ∈ events, ¬ event.IsLost) →
          t.edits = (t.returned.filter (·.result == .ok)).map (·.edit)) := by
  have followed := run_follows run ⟨by simp [new], rfl⟩
  obtain ⟨opts, hopts, hothers⟩ := followed.opts
  obtain ⟨log, hlog, haccepted, hlogged⟩ := Optimistic.run_serial (iptablesAttempt_serial e)
    (fun _ _ => id) hopts ⟨valid, by simp [new]⟩
  refine ⟨log, hlog, hlogged.trans hothers, ?_, followed.asked, fun kept => ?_⟩
  · rw [← followed.inv.accepted, haccepted]
    rfl
  · exact (followed.noneLost kept ⟨by simp [new], by simp [new]⟩).edits_eq

def sharedRule : NatRule := ⟨70000, 2130706433, 53⟩

/-- Rules of others around the daemon's. -/
def sharedChain : NftChain :=
  ⟨8, [⟨3, none, []⟩, ⟨5, some (wordBytes .little 70000), natExprs .little sharedRule⟩,
    ⟨7, some [1], []⟩]⟩

/-- Another program deletes the first rule while the daemon has its handle already; then the
answer to a new rule is lost, and it is made twice. -/
def disturbedEvents : List NatEvent :=
  [.call (.delete 70000), .getGenid, .recv, .recv, .other ⟨8, sharedChain.rules.tail⟩,
    .sendBatch .interrupted none, .getGenid, .recv, .sendBatch .other none,
    .call (.insert sharedRule), .getGenid, .sendBatch .other (some .interrupted), .getGenid,
    .sendBatch .other none]

def disturbedReturns : List NatReturn := [⟨.delete 70000, .ok, 0⟩, ⟨.insert sharedRule, .ok, 1⟩]

theorem sharedChain_valid : sharedChain.Valid := ⟨by decide, by decide⟩

theorem sharedTail_valid : NftChain.Valid ⟨8, sharedChain.rules.tail⟩ := ⟨by decide, by decide⟩

theorem disturbed_run (others : NftChain → NftChain → Prop)
    (foreign : others sharedChain ⟨8, sharedChain.rules.tail⟩) :
    ∃ t, Run (step .little) (Allowed others) (.new sharedChain) disturbedEvents t ∧
      t.call = none ∧ t.returned = disturbedReturns ∧
      t.opt.value.rules.map (·.handle) = [9, 8, 7] := by
  have own : ∀ {s : NatCaller} {event : NatEvent}, s.opt.edits < 5 → event.otherEdit = none →
      s.Allowed others event := by
    rintro s event few hown
    refine ⟨fun _ _ _ _ => by omega, ?_⟩
    rintro chain rfl
    cases hown
  have other : ∀ {s : NatCaller}, s.opt.edits < 5 → s.opt.value = sharedChain →
      s.Allowed others (.other ⟨8, sharedChain.rules.tail⟩) := by
    rintro s few hvalue
    refine ⟨fun _ _ _ _ => by omega, ?_⟩
    rintro _ ⟨⟩
    rwa [hvalue]
  refine ⟨_, .cons (own ?_ rfl) rfl (.cons (own ?_ rfl) rfl (.cons (own ?_ rfl) rfl
    (.cons (own ?_ rfl) rfl (.cons (other ?_ rfl) rfl (.cons (own ?_ rfl) rfl
    (.cons (own ?_ rfl) rfl (.cons (own ?_ rfl) rfl (.cons (own ?_ rfl) rfl
    (.cons (own ?_ rfl) rfl (.cons (own ?_ rfl) rfl (.cons (own ?_ rfl) rfl
    (.cons (own ?_ rfl) rfl (.single (own ?_ rfl) rfl))))))))))))), rfl, rfl, rfl⟩
  all_goals decide

theorem calls_serial_disturbed :
    ∃ t, Run (step .little) (Allowed fun _ chain => chain.Valid) (.new sharedChain)
        disturbedEvents t ∧
      t.returned = disturbedReturns ∧ t.opt.value.rules.map (·.handle) = [9, 8, 7] ∧ ∃ log,
        Run (serialStep (NatEdit.apply .little)) (fun _ _ => True) sharedChain log t.opt.value ∧
          log.filterMap SerialEvent.ownRequest =
            [.delete 70000, .insert sharedRule, .insert sharedRule] := by
  obtain ⟨t, run, hcall, hreturned, hhandles⟩ :=
    disturbed_run (fun _ chain => chain.Valid) sharedTail_valid
  obtain ⟨log, hlog, _, hown, _⟩ := calls_serial sharedChain_valid run
  rw [edits, hcall, hreturned] at hown
  exact ⟨t, run, hreturned, hhandles, log, hlog, hown⟩

/-- Others leave the rules with these marks as they are. -/
def Foreign (e : Endian) (marks : List UInt32) (chain chain' : NftChain) : Prop :=
  chain'.Valid ∧
    chain'.rules.filter (NftRule.own e marks) = chain.rules.filter (NftRule.own e marks)

/-- The edits of these marks that the calls have made. -/
def made (marks : List UInt32) (s : NatCaller) : List NatEdit :=
  s.edits.filter fun edit => decide (edit.mark ∈ marks)

/-- The rules with the daemon's marks are always what its calls have made of them, and a packet
that no rule of others takes goes where the newest of them that takes it says. -/
theorem calls_show {marks : List UInt32} {nat : List NatRule} {chain : NftChain}
    (valid : chain.Valid) (shown : chain.Shows e marks nat) {events : List NatEvent}
    (run : Run (step e) (Allowed (Foreign e marks)) (.new chain) events t) :
    t.opt.value.Shows e marks ((t.made marks).foldl NatEdit.onto nat) ∧
      ∀ pkt, (∀ r ∈ t.opt.value.rules, r.own e marks = false → runExprs e pkt r.exprs [] = none) →
        t.opt.value.redirect e pkt =
          (((t.made marks).foldl NatEdit.onto nat).find? (NatRule.takes pkt)).map fun rule =>
            ⟨mapIps, addrBits rule.addr, addrBits rule.addr⟩ := by
  have followed := run_follows run ⟨by simp [new], rfl⟩
  obtain ⟨opts, hopts, _⟩ := followed.opts
  have own : ∀ (edit : NatEdit) (chain chain' : NftChain) (nat : List NatRule),
      chain.Shows e marks nat → edit.apply e chain = some chain' →
      chain'.Shows e marks (if decide (edit.mark ∈ marks) then edit.onto nat else nat) := by
    intro edit chain chain' nat hshown happly
    split
    next known => exact hshown.apply (of_decide_eq_true known) happly
    next foreign => exact hshown.apply_foreign (by simpa using foreign) happly
  have leave : ∀ (chain chain' : NftChain) (nat : List NatRule), Foreign e marks chain chain' →
      chain.Shows e marks nat → chain'.Shows e marks nat := by
    rintro chain chain' nat ⟨_, hsame⟩ hshown
    rwa [NftChain.Shows, hsame]
  have hshows := Optimistic.run_shows (iptablesAttempt_serial e) (fun _ _ hforeign => hforeign.1)
    own leave hopts ⟨valid, by simp [new]⟩ shown
  rw [followed.inv.accepted, ← List.foldl_filter] at hshows
  exact ⟨hshows, fun pkt alone => hshows.redirect alone⟩

theorem calls_show_disturbed :
    ∃ t, Run (step .little) (Allowed (Foreign .little [70000])) (.new sharedChain)
        disturbedEvents t ∧
      sharedChain.Shows .little [70000] [sharedRule] ∧
      t.opt.value.Shows .little [70000] [sharedRule, sharedRule] := by
  obtain ⟨t, run, hcall, hreturned, _⟩ :=
    disturbed_run (Foreign .little [70000]) ⟨sharedTail_valid, by decide⟩
  have shown : sharedChain.Shows .little [70000] [sharedRule] :=
    .cons ⟨rfl, rfl⟩ .nil
  obtain ⟨hshows, _⟩ := calls_show sharedChain_valid shown run
  have hmade : t.made [70000] = [.delete 70000, .insert sharedRule, .insert sharedRule] := by
    rw [made, edits, hcall, hreturned]
    rfl
  rw [hmade] at hshows
  exact ⟨t, run, shown, hshows⟩

/-- What a call does by itself, when nothing goes wrong. -/
def Undisturbed : NatEvent → Prop
  | .getGenid | .recv | .notFound | .sendBatch _ none => True
  | _ => False

/-- A whole call that is left alone. -/
def Calls (e : Endian) (edit : NatEdit) (s t : NatCaller) : Prop :=
  t.call = none ∧ ∃ events, (∀ event ∈ events, Undisturbed event) ∧
    Run (step e) (fun _ _ => True) s (.call edit :: events) t

/-- Such a call has made its edit, or found that there is none to make. -/
structure Returns (e : Endian) (edit : NatEdit) (s t : NatCaller) : Prop where
  call : t.call = none
  client : t.opt.client = none
  value : t.opt.value = (edit.apply e s.opt.value).getD s.opt.value
  returned : t.returned = s.returned ++
    [⟨edit, if (edit.apply e s.opt.value).isSome then .ok else .notFound, 0⟩]

/-- Where such a call stands. -/
inductive Stands (e : Endian) (edit : NatEdit) (s : NatCaller) : NatCaller → Prop
  | begun : Stands e edit s { s with call := some (edit, 0) }
  | asking {notes : NatNotes} : NatNotes.Knows e edit notes s.opt.value → Stands e edit s
      { s with
        opt := { s.opt with client := some (edit, s.opt.edits, notes) }
        call := some (edit, 0) }
  | returned {t : NatCaller} : Returns e edit s t → Stands e edit s t

/-- A batch that is sent on right notes is the request's edit. -/
theorem sends_edit {edit : NatEdit} {notes : NatNotes} {chain : NftChain} (valid : chain.Valid)
    (knows : NatNotes.Knows e edit notes chain) (sends : notes.Sends) : ∃ chain',
    (iptablesAttempt e).edit edit notes chain = some chain' ∧
      edit.apply e chain = some chain' := by
  obtain ⟨chain', hedit⟩ : ∃ chain', (iptablesAttempt e).edit edit notes chain = some chain' := by
    cases edit with
    | insert rule =>
      cases notes with
      | ready => exact ⟨_, rfl⟩
      | dumping next | found handle | missing => cases knows
    | delete mark =>
      cases notes with
      | found handle =>
        obtain ⟨r, hfind, rfl⟩ := knows
        exact ⟨_, if_pos (List.any_eq_true.mpr ⟨r, List.mem_of_find?_eq_some hfind, by simp⟩)⟩
      | ready => cases knows
      | dumping next | missing => cases sends
  exact ⟨chain', hedit, (iptablesAttempt_serial e).edit _ _ _ _ valid knows hedit⟩

theorem missing_apply {edit : NatEdit} {chain : NftChain}
    (knows : NatNotes.Knows e edit .missing chain) : edit.apply e chain = none := by
  cases edit with
  | insert rule => cases knows
  | delete mark => exact if_neg (Bool.eq_false_iff.mp knows)

theorem Stands.step {edit : NatEdit} {u : NatCaller} (valid : s.opt.value.Valid)
    (idle : s.opt.client = none) (h : Stands e edit s t) (quiet : Undisturbed event)
    (taken : t.step e event = some u) : Stands e edit s u := by
  cases h with
  | begun =>
    cases event with
    | getGenid =>
      simp [NatCaller.step, optStep, Optimistic.step, idle] at taken
      subst taken
      exact .asking ((iptablesAttempt_serial e).start edit _ valid)
    | recv | notFound => simp [NatCaller.step, optStep, Optimistic.step, idle] at taken
    | sendBatch refusal lost => simp [NatCaller.step, idle] at taken
    | other _ | call _ | fails _ => cases quiet
  | @asking notes knows =>
    cases event with
    | getGenid => simp [NatCaller.step, optStep, Optimistic.step] at taken
    | recv =>
      obtain ⟨next, hnext, rfl⟩ := optStep_some taken
      obtain ⟨r, seen, notes, notes', hclient, hlook, rfl⟩ := Optimistic.look_some hnext
      cases hclient
      exact .asking ((iptablesAttempt_serial e).look _ _ _ _ valid knows hlook)
    | notFound =>
      obtain ⟨call, r, seen, hcall, hclient, rfl⟩ := notFound_some taken
      cases hcall
      cases hclient
      have hnone := missing_apply knows
      exact .returned ⟨rfl, rfl, by rw [hnone]; rfl, by rw [hnone]; rfl⟩
    | sendBatch refusal lost =>
      obtain ⟨call, r, seen, notes, next, hcall, hclient, sends, hnext, hends⟩ :=
        sendBatch_some taken
      cases hcall
      cases hclient
      obtain ⟨chain, hedit, happly⟩ := sends_edit valid knows sends
      have hsent : next = ⟨chain, s.opt.edits + 1, none, s.opt.accepted ++ [edit]⟩ := by
        simpa [Optimistic.step, Optimistic.send, hedit] using hnext.symm
      subst hsent
      cases lost with
      | some kind => cases quiet
      | none =>
        obtain ⟨same, _⟩ | ⟨_, rfl⟩ := hends
        · simp at same
        · exact .returned ⟨rfl, rfl, by rw [happly]; rfl, by rw [happly]; rfl⟩
    | other _ | call _ | fails _ => cases quiet
  | returned h =>
    cases event with
    | getGenid => simp [NatCaller.step, h.call] at taken
    | recv => simp [NatCaller.step, optStep, Optimistic.step, h.client] at taken
    | notFound => simp [NatCaller.step, h.call] at taken
    | sendBatch refusal lost => simp [NatCaller.step, h.call] at taken
    | other _ | call _ | fails _ => cases quiet

theorem Calls.returns {edit : NatEdit} (valid : s.opt.value.Valid) (idle : s.opt.client = none)
    (h : Calls e edit s t) : Returns e edit s t := by
  obtain ⟨hcall, events, quiet, run⟩ := h
  cases run with
  | @cons _ _ mid _ _ _ taken rest =>
    have first : Stands e edit s mid := by
      simp only [step] at taken
      split at taken
      next =>
        cases Option.some.inj taken
        exact .begun
      next => cases taken
    have stands := rest.invariant_events
      (fun _ _ _ quiet stands _ taken => stands.step valid idle quiet taken) quiet first
    cases stands with
    | begun => cases hcall
    | asking => cases hcall
    | returned h => exact h

/-- The dump comes to the rule or to its end. -/
theorem dump_ends {mark : UInt32} {seen next : Nat} (valid : s.opt.value.Valid)
    (hclient : s.opt.client = some (.delete mark, seen, .dumping next))
    (knows : NatNotes.Knows e (.delete mark) (.dumping next) s.opt.value) :
    ∃ events notes, Run (step e) (fun _ _ => True) s events
        { s with opt := { s.opt with client := some (.delete mark, seen, notes) } } ∧
      (∀ event ∈ events, Undisturbed event) ∧ NatNotes.Knows e (.delete mark) notes s.opt.value ∧
      (notes = .missing ∨ notes.Sends) := by
  induction hleft : s.opt.value.rules.length - next generalizing s next with
  | zero =>
    have hend : s.opt.value.rules[next]? = none := List.getElem?_eq_none (by omega)
    have hlook : (iptablesAttempt e).look (.delete mark) (.dumping next) s.opt.value =
        some .missing := by simp [iptablesAttempt, hend]
    refine ⟨[.recv], .missing, .single trivial ?_, by simp [Undisturbed],
      (iptablesAttempt_serial e).look _ _ _ _ valid knows hlook, Or.inl rfl⟩
    simp [step, optStep, Optimistic.step, hclient, hlook]
  | succ left ih =>
    have hlt : next < s.opt.value.rules.length := by omega
    have hget := List.getElem?_eq_getElem hlt
    cases htag : (s.opt.value.rules[next]).tagged e mark with
    | true =>
      have hlook : (iptablesAttempt e).look (.delete mark) (.dumping next) s.opt.value =
          some (.found (s.opt.value.rules[next]).handle) := by simp [iptablesAttempt, hget, htag]
      refine ⟨[.recv], _, .single trivial ?_, by simp [Undisturbed],
        (iptablesAttempt_serial e).look _ _ _ _ valid knows hlook, Or.inr trivial⟩
      simp [step, optStep, Optimistic.step, hclient, hlook]
    | false =>
      have hlook : (iptablesAttempt e).look (.delete mark) (.dumping next) s.opt.value =
          some (.dumping (next + 1)) := by simp [iptablesAttempt, hget, htag]
      have hknows := (iptablesAttempt_serial e).look _ _ _ _ valid knows hlook
      have taken : s.step e .recv = some { s with
          opt := { s.opt with client := some (.delete mark, seen, .dumping (next + 1)) } } := by
        simp [step, optStep, Optimistic.step, hclient, hlook]
      obtain ⟨events, notes, run, hquiet, hdone, hends⟩ := ih (s := { s with
        opt := { s.opt with client := some (.delete mark, seen, .dumping (next + 1)) } })
        valid rfl hknows (by dsimp only; omega)
      exact ⟨.recv :: events, notes, .cons trivial taken run,
        List.forall_mem_cons.mpr ⟨trivial, hquiet⟩, hdone, hends⟩

/-- What is found of the chain ends the call, if nobody comes between. -/
theorem asked_ends {edit : NatEdit} {notes : NatNotes} (valid : s.opt.value.Valid)
    (hcall : s.call = some (edit, 0))
    (hclient : s.opt.client = some (edit, s.opt.edits, notes))
    (knows : NatNotes.Knows e edit notes s.opt.value) (ready : notes = .missing ∨ notes.Sends) :
    ∃ last t, Undisturbed last ∧ s.step e last = some t ∧ t.call = none := by
  obtain rfl | sends := ready
  · refine ⟨.notFound, NatCaller.ended { s with opt := { s.opt with client := none } } (edit, 0)
      .notFound, trivial, ?_, rfl⟩
    simp [step, optStep, Optimistic.step, hcall, hclient]
  · obtain ⟨chain, hedit, _⟩ := sends_edit valid knows sends
    refine ⟨.sendBatch .other none, ⟨⟨chain, s.opt.edits + 1, none, s.opt.accepted ++ [edit]⟩, none,
      s.returned ++ [⟨edit, .ok, 0⟩]⟩, trivial, ?_, rfl⟩
    cases notes with
    | ready | found handle =>
      simp [step, optStep, Optimistic.step, Optimistic.send, hcall, hclient, hedit, answered, ended]
    | dumping next | missing => cases sends

/-- A call that is left alone comes to an end. -/
theorem calls_exists (valid : s.opt.value.Valid) (hcall : s.call = none)
    (idle : s.opt.client = none) (edit : NatEdit) : ∃ t, Calls e edit s t := by
  let asked : NatCaller := { s with
    opt := { s.opt with client := some (edit, s.opt.edits, (iptablesAttempt e).start edit) }
    call := some (edit, 0) }
  have begun : Run (step e) (fun _ _ => True) s [.call edit, .getGenid] asked := by
    have hask : step e { s with call := some (edit, 0) } .getGenid = some asked := by
      simp [step, optStep, Optimistic.step, idle, asked]
    exact .cons trivial (by simp [step, hcall]) (.single trivial hask)
  have start : NatNotes.Knows e edit ((iptablesAttempt e).start edit) s.opt.value :=
    (iptablesAttempt_serial e).start edit s.opt.value valid
  obtain ⟨events, notes, looked, hquiet, hknows, hends⟩ : ∃ events notes,
      Run (step e) (fun _ _ => True) asked events
        { asked with opt := { asked.opt with client := some (edit, s.opt.edits, notes) } } ∧
      (∀ event ∈ events, Undisturbed event) ∧ NatNotes.Knows e edit notes s.opt.value ∧
      (notes = .missing ∨ notes.Sends) := by
    cases edit with
    | insert rule => exact ⟨[], .ready, .nil, by simp, start, Or.inr trivial⟩
    | delete mark => exact dump_ends (s := asked) valid rfl start
  obtain ⟨last, t, hlast, taken, hdone⟩ := asked_ends (s := { asked with
    opt := { asked.opt with client := some (edit, s.opt.edits, notes) } })
    valid rfl rfl hknows hends
  refine ⟨t, hdone, .getGenid :: (events ++ [last]), ?_,
    begun.append (looked.append (.single trivial taken))⟩
  refine List.forall_mem_cons.mpr ⟨trivial, fun event hevent => ?_⟩
  obtain hevent | hevent := List.mem_append.mp hevent
  · exact hquiet event hevent
  · exact List.mem_singleton.mp hevent ▸ hlast

/-- The calls that delete a mark's rules, left alone: they go on while there is a turn left and
the last one has succeeded. -/
inductive ClearNat (e : Endian) (mark : UInt32) : Nat → NatCaller → NatCaller → Prop
  | done (s : NatCaller) : ClearNat e mark 0 s s
  | next {turns : Nat} {s mid t : NatCaller} : Calls e (.delete mark) s mid →
      mid.returned.getLast?.map (·.result) = some .ok → ClearNat e mark turns mid t →
      ClearNat e mark (turns + 1) s t
  | stop {turns : Nat} {s t : NatCaller} : Calls e (.delete mark) s t →
      t.returned.getLast?.map (·.result) ≠ some .ok → ClearNat e mark (turns + 1) s t

theorem countP_eraseP {α : Type*} {test : α → Bool} {xs : List α} (h : xs.any test = true) :
    xs.countP test = (xs.eraseP test).countP test + 1 := by
  obtain ⟨x, hx, htest⟩ := List.any_eq_true.mp h
  obtain ⟨y, before, after, _, hy, rfl, herased⟩ := List.exists_of_eraseP hx htest
  rw [herased, List.countP_append, List.countP_append, List.countP_cons_of_pos hy, Nat.add_assoc]

theorem iterate_eraseP_none {α : Type*} {test : α → Bool} {xs : List α}
    (h : ¬ xs.any test = true) (n : Nat) : (List.eraseP test)^[n] xs = xs := by
  have hone : xs.eraseP test = xs :=
    List.eraseP_of_forall_not fun x hx htest => h (List.any_eq_true.mpr ⟨x, hx, htest⟩)
  exact Function.iterate_fixed hone n

/-- With a turn for each of them, all are erased. -/
theorem iterate_eraseP_all {α : Type*} {test : α → Bool} {xs : List α} {n : Nat}
    (few : xs.countP test ≤ n) : (List.eraseP test)^[n] xs = xs.filter (!test ·) := by
  induction n generalizing xs with
  | zero =>
    refine (List.filter_eq_self.mpr fun x hx => ?_).symm
    simpa using List.countP_eq_zero.mp (Nat.le_zero.mp few) x hx
  | succ n ih =>
    by_cases hany : xs.any test = true
    · have hcount := countP_eraseP hany
      rw [Function.iterate_succ_apply, ih (by omega), filter_eraseP (by simp)]
    · rw [iterate_eraseP_none hany]
      refine (List.filter_eq_self.mpr fun x hx => ?_).symm
      simpa using fun htest => hany (List.any_eq_true.mpr ⟨x, hx, htest⟩)

/-- What the loop has done when it ends. -/
structure Cleared (e : Endian) (mark : UInt32) (turns : Nat) (s t : NatCaller) : Prop where
  value : t.opt.value = { s.opt.value with
    rules := (List.eraseP (NftRule.tagged e mark))^[turns] s.opt.value.rules }
  returned : t.returned = s.returned ++
    (List.replicate (min (s.opt.value.rules.countP (NftRule.tagged e mark)) turns)
        ⟨.delete mark, .ok, 0⟩ ++
      if s.opt.value.rules.countP (NftRule.tagged e mark) < turns then
        [⟨.delete mark, .notFound, 0⟩] else [])

theorem delete_found {mark : UInt32} {chain : NftChain}
    (h : chain.rules.any (NftRule.tagged e mark) = true) : (NatEdit.delete mark).apply e chain =
      some { chain with rules := chain.rules.eraseP (NftRule.tagged e mark) } := if_pos h

theorem ClearNat.cleared {mark : UInt32} {turns : Nat} (valid : s.opt.value.Valid)
    (idle : s.opt.client = none) (h : ClearNat e mark turns s t) : Cleared e mark turns s t := by
  induction h with
  | done s => exact ⟨rfl, by simp⟩
  | @next turns s mid t hcalls hok _ ih =>
    obtain ⟨_, hclient, hvalue, hreturned⟩ := hcalls.returns valid idle
    by_cases hany : s.opt.value.rules.any (NftRule.tagged e mark) = true
    · rw [delete_found hany] at hvalue hreturned
      have hrest := ih (hvalue ▸ valid.apply (delete_found hany)) hclient
      have hcount := countP_eraseP hany
      refine ⟨by rw [hrest.value, hvalue]; rfl, ?_⟩
      rw [hrest.returned, hreturned, hvalue, Option.getD_some, hcount, Nat.succ_min_succ,
        List.replicate_succ]
      simp
    · have happly : (NatEdit.delete mark).apply e s.opt.value = none := if_neg hany
      rw [hreturned, happly] at hok
      simp at hok
  | @stop turns s t hcalls hfails =>
    obtain ⟨_, hclient, hvalue, hreturned⟩ := hcalls.returns valid idle
    by_cases hany : s.opt.value.rules.any (NftRule.tagged e mark) = true
    · rw [hreturned, delete_found hany] at hfails
      simp at hfails
    · have happly : (NatEdit.delete mark).apply e s.opt.value = none := if_neg hany
      have hnone : s.opt.value.rules.countP (NftRule.tagged e mark) = 0 :=
        List.countP_eq_zero.mpr fun r hr htag => hany (List.any_eq_true.mpr ⟨r, hr, htag⟩)
      rw [happly] at hvalue hreturned
      refine ⟨by rw [iterate_eraseP_none hany]; exact hvalue, ?_⟩
      rw [hreturned, hnone]
      simp

theorem clearNat_exists {mark : UInt32} (turns : Nat) (valid : s.opt.value.Valid)
    (hcall : s.call = none) (idle : s.opt.client = none) : ∃ t, ClearNat e mark turns s t := by
  induction turns generalizing s with
  | zero => exact ⟨s, .done s⟩
  | succ turns ih =>
    obtain ⟨mid, hcalls⟩ := calls_exists (e := e) valid hcall idle (.delete mark)
    obtain ⟨hcall', hclient, hvalue, _⟩ := hcalls.returns valid idle
    have hvalid : mid.opt.value.Valid := by
      rw [hvalue]
      cases happly : (NatEdit.delete mark).apply e s.opt.value with
      | none => exact valid
      | some chain => exact valid.apply happly
    by_cases hok : mid.returned.getLast?.map (·.result) = some .ok
    · obtain ⟨t, hrest⟩ := ih hvalid hcall' hclient
      exact ⟨t, .next hcalls hok hrest⟩
    · exact ⟨mid, .stop hcalls hok⟩

/-- The loop ends, and however it goes it deletes the first thousand rules of the mark and no
others; where there are no more it is what `clearRules` does to the daemon's rules. -/
theorem clear_nat_rules {marks : List UInt32} {mark : UInt32} {net : Net}
    (valid : s.opt.value.Valid) (hcall : s.call = none) (idle : s.opt.client = none)
    (shown : s.opt.value.Shows e marks net.nat) : (∃ t, ClearNat e mark 1000 s t) ∧
      ∀ t, ClearNat e mark 1000 s t → Cleared e mark 1000 s t ∧
        (s.opt.value.rules.countP (NftRule.tagged e mark) ≤ 1000 →
          t.opt.value.rules = s.opt.value.rules.filter (!NftRule.tagged e mark ·) ∧
          t.opt.value.Shows e marks (net.clearRules mark).nat) := by
  refine ⟨clearNat_exists 1000 valid hcall idle, fun t h => ?_⟩
  have cleared := h.cleared valid idle
  refine ⟨cleared, fun few => ?_⟩
  have hvalue := cleared.value
  rw [iterate_eraseP_all few] at hvalue
  exact ⟨congrArg NftChain.rules hvalue, hvalue ▸ shown.filter mark⟩

theorem clear_nat_rules_shared : ∃ t, ClearNat .little 70000 1000 (.new sharedChain) t ∧
    t.returned = [⟨.delete 70000, .ok, 0⟩, ⟨.delete 70000, .notFound, 0⟩] ∧
    t.opt.value.rules = [⟨3, none, []⟩, ⟨7, some [1], []⟩] ∧
    t.opt.value.Shows .little [70000] [] := by
  let net : Net := { rules := [], routes := [], nat := [sharedRule] }
  have shown : sharedChain.Shows .little [70000] net.nat := .cons ⟨rfl, rfl⟩ .nil
  have few : sharedChain.rules.countP (NftRule.tagged .little 70000) ≤ 1000 := by decide
  obtain ⟨⟨t, h⟩, all⟩ := @clear_nat_rules .little (.new sharedChain) [70000] 70000 net
    sharedChain_valid rfl rfl shown
  obtain ⟨cleared, hfew⟩ := all t h
  obtain ⟨hrules, hshows⟩ := hfew few
  exact ⟨t, h, cleared.returned, hrules, hshows⟩

end NatCaller

end Rebpf
