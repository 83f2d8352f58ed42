import Rebpf.Lib.Run

namespace Rebpf.Lib

universe u v w

/-- How a client makes an edit of a shared value: from what it notes on looking at the value
again and again, which others may edit meanwhile. -/
structure Attempt (σ : Type u) (ρ : Type v) (ι : Type w) where
  start : ρ → ι
  look : ρ → ι → σ → Option ι
  edit : ρ → ι → σ → Option σ

/-- The value, the number of its edits, the client's request with the number it has read
and its notes, and the requests that have been accepted. -/
structure Optimistic (σ : Type u) (ρ : Type v) (ι : Type w) where
  value : σ
  edits : Nat
  client : Option (ρ × Nat × ι)
  accepted : List ρ

inductive OptimisticEvent (σ : Type u) (ρ : Type v)
  | other (value : σ)
  | ask (request : ρ)
  | look
  | send
  | giveUp

variable {σ : Type u} {ρ : Type v} {ι : Type w}

/-- Edits in one piece: another's, or that of a request. -/
inductive SerialEvent (σ : Type u) (ρ : Type v)
  | other (value : σ)
  | own (request : ρ)

def serialStep (serial : ρ → σ → Option σ) (v : σ) : SerialEvent σ ρ → Option σ
  | .other value => some value
  | .own r => serial r v

def SerialEvent.ownRequest : SerialEvent σ ρ → Option ρ
  | .other _ => none
  | .own r => some r

def SerialEvent.otherEdit : SerialEvent σ ρ → Option σ
  | .other value => some value
  | .own _ => none

def OptimisticEvent.otherEdit : OptimisticEvent σ ρ → Option σ
  | .other value => some value
  | _ => none

namespace Optimistic

section

variable {κ : Type*} [DecidableEq κ] (stamp : Nat → κ) (a : Attempt σ ρ ι)

/-- An edit is accepted if the value has the stamp that the client has read. -/
def send (s : Optimistic σ ρ ι) : Option (Optimistic σ ρ ι) :=
  s.client.map fun (r, seen, notes) =>
    if stamp seen = stamp s.edits then
      match a.edit r notes s.value with
      | some value => ⟨value, s.edits + 1, none, s.accepted ++ [r]⟩
      | none => { s with client := none }
    else { s with client := none }

def step (s : Optimistic σ ρ ι) : OptimisticEvent σ ρ → Option (Optimistic σ ρ ι)
  | .other value => some { s with value, edits := s.edits + 1 }
  | .ask r =>
    match s.client with
    | none => some { s with client := some (r, s.edits, a.start r) }
    | some _ => none
  | .look => s.client.bind fun (r, seen, notes) =>
    (a.look r notes s.value).map fun notes => { s with client := some (r, seen, notes) }
  | .send => s.send stamp a
  | .giveUp => s.client.map fun _ => { s with client := none }

/-- No stamp comes again while the client is at work. -/
def InWindow (s : Optimistic σ ρ ι) : Prop :=
  ∀ r seen notes, s.client = some (r, seen, notes) → seen ≤ s.edits →
    stamp seen = stamp s.edits → seen = s.edits

end

/-- The notes are right of the value as long as nobody edits it, and then an edit made from
them is the request's edit in one piece. -/
structure Serial (a : Attempt σ ρ ι) (good : σ → Prop) (knows : ρ → ι → σ → Prop)
    (serial : ρ → σ → Option σ) : Prop where
  start : ∀ r v, good v → knows r (a.start r) v
  look : ∀ r n v n', good v → knows r n v → a.look r n v = some n' → knows r n' v
  edit : ∀ r n v v', good v → knows r n v → a.edit r n v = some v' → serial r v = some v'
  good : ∀ r v v', good v → serial r v = some v' → good v'

section

variable {κ : Type*} [DecidableEq κ] {stamp : Nat → κ} {a : Attempt σ ρ ι} {good : σ → Prop}
  {knows : ρ → ι → σ → Prop} {serial : ρ → σ → Option σ} {s t : Optimistic σ ρ ι}

/-- What holds between any two steps. -/
structure Inv (good : σ → Prop) (knows : ρ → ι → σ → Prop) (s : Optimistic σ ρ ι) : Prop where
  good : good s.value
  knows : ∀ r seen notes, s.client = some (r, seen, notes) →
    seen ≤ s.edits ∧ (seen = s.edits → knows r notes s.value)

theorem look_some (taken : s.step stamp a .look = some t) : ∃ r seen notes notes',
    s.client = some (r, seen, notes) ∧ a.look r notes s.value = some notes' ∧
      t = { s with client := some (r, seen, notes') } := by
  obtain ⟨⟨r, seen, notes⟩, hclient, taken⟩ := Option.bind_eq_some_iff.mp taken
  obtain ⟨notes', hlook, rfl⟩ := Option.map_eq_some_iff.mp taken
  exact ⟨r, seen, notes, notes', hclient, hlook, rfl⟩

/-- The client has come to an end, with its request accepted or refused. -/
theorem send_some (taken : s.step stamp a .send = some t) : ∃ r seen notes,
    s.client = some (r, seen, notes) ∧ t.client = none ∧
      (t.accepted = s.accepted ∨ t.accepted = s.accepted ++ [r]) := by
  obtain ⟨⟨r, seen, notes⟩, hclient, rfl⟩ := Option.map_eq_some_iff.mp taken
  refine ⟨r, seen, notes, hclient, ?_⟩
  dsimp only
  split
  next =>
    split
    next => exact ⟨rfl, Or.inr rfl⟩
    next => exact ⟨rfl, Or.inl rfl⟩
  next => exact ⟨rfl, Or.inl rfl⟩

/-- What a step is for the value: nothing, the edit of a request in one piece, or another's. -/
theorem step_cases (spec : Serial a good knows serial) (h : s.Inv good knows)
    {event : OptimisticEvent σ ρ} (window : s.InWindow stamp)
    (others : ∀ value, event = .other value → good value)
    (taken : s.step stamp a event = some t) : t.Inv good knows ∧
      ((event.otherEdit = none ∧ t.value = s.value ∧ t.accepted = s.accepted) ∨
        (event.otherEdit = none ∧ ∃ r, serial r s.value = some t.value ∧
          t.accepted = s.accepted ++ [r]) ∨
        (event = .other t.value ∧ t.accepted = s.accepted)) := by
  cases event with
  | other value =>
    cases Option.some.inj taken
    refine ⟨⟨others value rfl, fun r seen notes hclient => ?_⟩, Or.inr (Or.inr ⟨rfl, rfl⟩)⟩
    obtain ⟨hle, _⟩ := h.knows r seen notes hclient
    exact ⟨Nat.le_succ_of_le hle, fun heq => absurd hle (by dsimp only at heq; omega)⟩
  | ask r =>
    simp only [step] at taken
    split at taken
    next =>
      cases Option.some.inj taken
      refine ⟨⟨h.good, ?_⟩, Or.inl ⟨rfl, rfl, rfl⟩⟩
      rintro _ _ _ ⟨⟩
      exact ⟨Nat.le_refl _, fun _ => spec.start r s.value h.good⟩
    next => cases taken
  | look =>
    obtain ⟨r, seen, notes, notes', hclient, hlook, rfl⟩ := look_some taken
    obtain ⟨hle, hknows⟩ := h.knows r seen notes hclient
    refine ⟨⟨h.good, ?_⟩, Or.inl ⟨rfl, rfl, rfl⟩⟩
    rintro _ _ _ ⟨⟩
    exact ⟨hle, fun heq => spec.look r notes s.value notes' h.good (hknows heq) hlook⟩
  | send =>
    obtain ⟨⟨r, seen, notes⟩, hclient, rfl⟩ := Option.map_eq_some_iff.mp taken
    have idle : Inv good knows { s with client := none } := ⟨h.good, by simp⟩
    dsimp only
    split
    next hstamp =>
      split
      next value hedit =>
        obtain ⟨hle, hknows⟩ := h.knows r seen notes hclient
        have hserial := spec.edit r notes s.value value h.good
          (hknows (window r seen notes hclient hle hstamp)) hedit
        exact ⟨⟨spec.good r s.value value h.good hserial, by simp⟩,
          Or.inr (Or.inl ⟨rfl, r, hserial, rfl⟩)⟩
      next => exact ⟨idle, Or.inl ⟨rfl, rfl, rfl⟩⟩
    next => exact ⟨idle, Or.inl ⟨rfl, rfl, rfl⟩⟩
  | giveUp =>
    obtain ⟨_, _, rfl⟩ := Option.map_eq_some_iff.mp taken
    exact ⟨⟨h.good, by simp⟩, Or.inl ⟨rfl, rfl, rfl⟩⟩

/-- No stamp comes twice in an attempt, and others make only such edits. -/
def Allowed (stamp : Nat → κ) (others : σ → σ → Prop) (s : Optimistic σ ρ ι)
    (event : OptimisticEvent σ ρ) : Prop :=
  s.InWindow stamp ∧ ∀ value, event = .other value → others s.value value

variable {others : σ → σ → Prop}

/-- Every run is one of edits in one piece: the accepted requests' and the others', in order. -/
theorem run_serial (spec : Serial a good knows serial) (goods : ∀ v v', others v v' → good v')
    {events : List (OptimisticEvent σ ρ)}
    (run : Run (step stamp a) (Allowed stamp others) s events t) (h : s.Inv good knows) :
    ∃ log, Run (serialStep serial) (fun _ _ => True) s.value log t.value ∧
      t.accepted = s.accepted ++ log.filterMap SerialEvent.ownRequest ∧
      log.filterMap SerialEvent.otherEdit = events.filterMap OptimisticEvent.otherEdit := by
  induction run with
  | nil => exact ⟨[], .nil, by simp, rfl⟩
  | @cons s event mid events t allowed taken _ ih =>
    obtain ⟨hmid, cases⟩ := step_cases spec h allowed.1
      (fun value hother => goods _ _ (allowed.2 value hother)) taken
    obtain ⟨log, run, haccepted, hothers⟩ := ih hmid
    obtain ⟨hown, hvalue, hsame⟩ | ⟨hown, r, hserial, hmore⟩ | ⟨rfl, hsame⟩ := cases
    · refine ⟨log, hvalue ▸ run, by rw [haccepted, hsame], ?_⟩
      rw [hothers, List.filterMap_cons_none hown]
    · refine ⟨.own r :: log, .cons trivial hserial run, ?_, ?_⟩
      · rw [haccepted, hmore, List.append_assoc]
        rfl
      · rw [List.filterMap_cons_none hown, ← hothers]
        rfl
    · exact ⟨.other mid.value :: log, .cons trivial rfl run, by rw [haccepted, hsame]; rfl,
        congrArg (mid.value :: ·) hothers⟩

/-- What the accepted requests make of a model, and others leave as it is, the value shows. -/
theorem run_shows {τ : Type*} {shows : σ → τ → Prop} {f : τ → ρ → τ}
    (spec : Serial a good knows serial) (goods : ∀ v v', others v v' → good v')
    (own : ∀ r v v' x, shows v x → serial r v = some v' → shows v' (f x r))
    (leave : ∀ v v' x, others v v' → shows v x → shows v' x)
    {events : List (OptimisticEvent σ ρ)}
    (run : Run (step stamp a) (Allowed stamp others) s events t) (h : s.Inv good knows) {x : τ}
    (hx : shows s.value (s.accepted.foldl f x)) : shows t.value (t.accepted.foldl f x) := by
  induction run with
  | nil => exact hx
  | @cons s event mid events t allowed taken _ ih =>
    obtain ⟨hmid, cases⟩ := step_cases spec h allowed.1
      (fun value hother => goods _ _ (allowed.2 value hother)) taken
    refine ih hmid ?_
    obtain ⟨_, hvalue, hsame⟩ | ⟨_, r, hserial, hmore⟩ | ⟨hother, hsame⟩ := cases
    · rwa [hvalue, hsame]
    · rw [hmore, List.foldl_append]
      exact own r _ _ _ hx hserial
    · rw [hsame]
      exact leave _ _ _ (allowed.2 _ hother) hx

end

end Optimistic

end Rebpf.Lib
