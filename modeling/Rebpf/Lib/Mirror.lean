import Mathlib.Logic.Function.Basic
import Mathlib.Tactic.Common

namespace Rebpf.Lib

universe u v

variable {κ : Type u} {β : κ → Type v}

/-- What a reader passes on: a value it has been told, or that the connection is lost. -/
inductive News (β : κ → Type v)
  | told (k : κ) (b : β k)
  | lost

instance newsDecidableEq [DecidableEq κ] [∀ k, DecidableEq (β k)] : DecidableEq (News β)
  | .told j a, .told k b =>
    if h : j = k then decidable_of_iff (h ▸ a = b) (by subst h; simp)
    else isFalse (by simp [h])
  | .lost, .lost => isTrue rfl
  | .told _ _, .lost => isFalse (by simp)
  | .lost, .told _ _ => isFalse (by simp)

/-- The one question a reader may have open. -/
inductive Asking (β : κ → Type v)
  | none
  | asked (k : κ)
  | answered (k : κ) (b : β k)

/-- A reader of the values of another party. It asks for each of them once, then subscribes
to the signals that say which has changed, and asks again for those. What it is told goes
through a queue to where it is shown. -/
structure Mirror (β : κ → Type v) where
  firsts : List κ
  subscribed : Bool
  heard : List κ
  asking : Asking β
  inbox : List (News β)

def Asking.news : Asking β → List (News β)
  | answered k b => [.told k b]
  | _ => []

namespace Mirror

def start (ks : List κ) : Mirror β := ⟨ks, false, [], .none, []⟩

def subscribe (m : Mirror β) : Option (Mirror β) :=
  match m.firsts, m.asking with
  | [], .none => some { m with subscribed := true }
  | _, _ => none

/-- A signal; without a subscription it does not come through. -/
def hear (k : κ) (m : Mirror β) : Mirror β :=
  if m.subscribed then { m with heard := m.heard ++ [k] } else m

def ask (m : Mirror β) : Option (Mirror β) :=
  match m.asking, m.firsts, m.heard with
  | .none, k :: firsts, _ => some { m with firsts, asking := .asked k }
  | .none, [], k :: heard => some { m with heard, asking := .asked k }
  | _, _, _ => none

def serve (cur : ∀ k, β k) (m : Mirror β) : Option (Mirror β) :=
  match m.asking with
  | .asked k => some { m with asking := .answered k (cur k) }
  | _ => none

def reply (m : Mirror β) : Option (Mirror β) :=
  match m.asking with
  | .answered k b => some { m with asking := .none, inbox := m.inbox ++ [.told k b] }
  | _ => none

/-- The next of the news is shown. -/
def take (m : Mirror β) : Option (News β × Mirror β) :=
  match m.inbox with
  | [] => none
  | news :: inbox => some (news, { m with inbox })

/-- The reader starts again, on the news that the connection is lost or without them. -/
def restart (ks : List κ) (lost : Bool) (m : Mirror β) : Mirror β :=
  ⟨ks, false, [], .none, m.inbox ++ if lost then [.lost] else []⟩

/-- Nothing is asked, heard or on its way. -/
structure Idle (m : Mirror β) : Prop where
  firsts : m.firsts = []
  heard : m.heard = []
  asking : m.asking = .none
  inbox : m.inbox = []

/-- A signal about `k` finds the subscription, or the first question still unanswered. -/
def Hears (m : Mirror β) (k : κ) : Prop :=
  m.subscribed = true ∨ k ∈ m.firsts ∨ m.asking = .asked k

variable {m m' : Mirror β} {cur : ∀ k, β k}

theorem subscribe_some (h : m.subscribe = some m') : m' = { m with subscribed := true } := by
  unfold subscribe at h
  split at h
  · exact (Option.some.inj h).symm
  · cases h

theorem ask_some (h : m.ask = some m') :
    m.asking = .none ∧ ∃ k, m'.asking = .asked k ∧ m'.inbox = m.inbox ∧
      (m.firsts = k :: m'.firsts ∧ m'.heard = m.heard ∨
        m.firsts = [] ∧ m'.firsts = [] ∧ m.heard = k :: m'.heard) := by
  unfold ask at h
  split at h
  next hnone hfirsts =>
    cases Option.some.inj h
    exact ⟨hnone, _, rfl, rfl, .inl ⟨hfirsts, rfl⟩⟩
  next hnone hfirsts hheard =>
    cases Option.some.inj h
    exact ⟨hnone, _, rfl, rfl, .inr ⟨hfirsts, hfirsts, hheard⟩⟩
  next => cases h

theorem serve_some (h : m.serve cur = some m') :
    ∃ k, m.asking = .asked k ∧ m' = { m with asking := .answered k (cur k) } := by
  unfold serve at h
  split at h
  next k hasked => exact ⟨k, hasked, (Option.some.inj h).symm⟩
  next => cases h

theorem reply_some (h : m.reply = some m') :
    ∃ k b, m.asking = .answered k b ∧
      m' = { m with asking := .none, inbox := m.inbox ++ [.told k b] } := by
  unfold reply at h
  split at h
  next k b hanswered => exact ⟨k, b, hanswered, (Option.some.inj h).symm⟩
  next => cases h

theorem take_some {news : News β} (h : m.take = some (news, m')) :
    m.inbox = news :: m'.inbox ∧ m' = { m with inbox := m'.inbox } := by
  unfold take at h
  split at h
  next => cases h
  next hinbox =>
    cases Option.some.inj h
    exact ⟨hinbox, rfl⟩

section

variable [DecidableEq κ] (clear : (∀ k, β k) → ∀ k, β k)

def put (shown : ∀ k, β k) : News β → ∀ k, β k
  | .told k b => Function.update shown k b
  | .lost => clear shown

/-- What is shown once everything that is on its way has come. -/
def settled (m : Mirror β) (shown : ∀ k, β k) : ∀ k, β k :=
  (m.inbox ++ m.asking.news).foldl (put clear) shown

/-- What will be shown of `k` is its value, unless the reader is to ask for it, or to hear
of it. -/
def Tracks (m : Mirror β) (shown cur : ∀ k, β k) (owed : κ → Prop) (k : κ) : Prop :=
  owed k ∨ k ∈ m.firsts ∨ k ∈ m.heard ∨ m.asking = .asked k ∨ m.settled clear shown k = cur k

variable {clear} {shown cur' : ∀ k, β k} {owed owed' : κ → Prop}
  {j k : κ} {ks : List κ}

theorem Tracks.of_first (h : k ∈ m.firsts) : m.Tracks clear shown cur owed k := .inr (.inl h)

theorem Tracks.of_heard (h : k ∈ m.heard) : m.Tracks clear shown cur owed k :=
  .inr (.inr (.inl h))

/-- The values change: what is another value now has its signal to come. -/
theorem Tracks.change (h : m.Tracks clear shown cur owed k) (still : owed k → owed' k)
    (same : owed' k ∨ cur' k = cur k) : m.Tracks clear shown cur' owed' k := by
  rcases same with howed | heq
  · exact .inl howed
  · rcases h with howed | hfirst | hheard | hasked | hsettled
    · exact .inl (still howed)
    · exact .of_first hfirst
    · exact .of_heard hheard
    · exact .inr (.inr (.inr (.inl hasked)))
    · exact .inr (.inr (.inr (.inr (hsettled.trans heq.symm))))

theorem settled_of_quiet (h : m.asking.news = []) (shown : ∀ k, β k) :
    m.settled clear shown = m.inbox.foldl (put clear) shown := by
  rw [settled, h, List.append_nil]

theorem settled_answered {b : β j} (h : m.asking = .answered j b) (shown : ∀ k, β k) :
    m.settled clear shown = Function.update (m.inbox.foldl (put clear) shown) j b := by
  have hnews : m.asking.news = [.told j b] := by rw [h, Asking.news]
  rw [settled, hnews, List.foldl_append, List.foldl_cons, List.foldl_nil, put]

theorem hear_settled (j : κ) (m : Mirror β) (shown : ∀ k, β k) :
    (m.hear j).settled clear shown = m.settled clear shown := by
  unfold hear
  split <;> rfl

/-- A signal goes out: whoever hears it asks, or has not been answered. -/
theorem Tracks.hear (h : m.Tracks clear shown cur owed k) (hears : j = k → m.Hears k)
    (still : j ≠ k → owed k → owed' k) : (m.hear j).Tracks clear shown cur owed' k := by
  have first : k ∈ m.firsts → k ∈ (m.hear j).firsts := by
    unfold Mirror.hear
    split <;> exact id
  have asked : m.asking = .asked k → (m.hear j).asking = .asked k := by
    unfold Mirror.hear
    split <;> exact id
  by_cases hj : j = k
  · rcases hears hj with hsub | hfirst | hasked
    · refine .of_heard ?_
      rw [Mirror.hear, if_pos hsub, hj]
      exact List.mem_append_right _ List.mem_cons_self
    · exact .of_first (first hfirst)
    · exact .inr (.inr (.inr (.inl (asked hasked))))
  · rcases h with howed | hfirst | hheard | hasked | hsettled
    · exact .inl (still hj howed)
    · exact .of_first (first hfirst)
    · refine .of_heard ?_
      unfold Mirror.hear
      split
      · exact List.mem_append_left _ hheard
      · exact hheard
    · exact .inr (.inr (.inr (.inl (asked hasked))))
    · exact .inr (.inr (.inr (.inr (by rw [hear_settled, hsettled]))))

theorem Tracks.ask (h : m.Tracks clear shown cur owed k) (step : m.ask = some m') :
    m'.Tracks clear shown cur owed k := by
  obtain ⟨hnone, j, hasking, hinbox, hlists⟩ := ask_some step
  have hsame : m'.settled clear shown = m.settled clear shown := by
    rw [settled, settled, hinbox, hasking, hnone]
    rfl
  by_cases hj : k = j
  · exact .inr (.inr (.inr (.inl (hj ▸ hasking))))
  · rcases h with howed | hfirst | hheard | hasked | hsettled
    · exact .inl howed
    · rcases hlists with ⟨hcons, _⟩ | ⟨hnil, _⟩
      · rw [hcons] at hfirst
        exact .of_first ((List.mem_cons.mp hfirst).resolve_left hj)
      · rw [hnil] at hfirst
        cases hfirst
    · rcases hlists with ⟨_, hsame'⟩ | ⟨_, _, hcons⟩
      · exact .of_heard (hsame' ▸ hheard)
      · rw [hcons] at hheard
        exact .of_heard ((List.mem_cons.mp hheard).resolve_left hj)
    · rw [hnone] at hasked
      cases hasked
    · exact .inr (.inr (.inr (.inr (by rw [hsame, hsettled]))))

theorem Tracks.serve (h : m.Tracks clear shown cur owed k) (step : m.serve cur = some m') :
    m'.Tracks clear shown cur owed k := by
  obtain ⟨j, hasked, rfl⟩ := serve_some step
  have hsettled' : settled clear { m with asking := .answered j (cur j) } shown =
      Function.update (m.settled clear shown) j (cur j) := by
    rw [settled_of_quiet (m := m) (by rw [hasked]; rfl)]
    exact settled_answered rfl shown
  by_cases hj : k = j
  · subst hj
    refine .inr (.inr (.inr (.inr ?_)))
    rw [hsettled', Function.update_self]
  · rcases h with howed | hfirst | hheard | hasked' | hsettled
    · exact .inl howed
    · exact .of_first hfirst
    · exact .of_heard hheard
    · rw [hasked] at hasked'
      cases hasked'
      exact absurd rfl hj
    · refine .inr (.inr (.inr (.inr ?_)))
      rw [hsettled', Function.update_of_ne hj, hsettled]

theorem Tracks.reply (h : m.Tracks clear shown cur owed k) (step : m.reply = some m') :
    m'.Tracks clear shown cur owed k := by
  obtain ⟨j, b, hanswered, rfl⟩ := reply_some step
  rcases h with howed | hfirst | hheard | hasked | hsettled
  · exact .inl howed
  · exact .of_first hfirst
  · exact .of_heard hheard
  · rw [hanswered] at hasked
    cases hasked
  · refine .inr (.inr (.inr (.inr ?_)))
    rw [← hsettled, settled_answered hanswered]
    refine congrFun (Eq.trans (settled_of_quiet rfl shown) ?_) k
    rw [List.foldl_append]
    rfl

theorem Tracks.take {news : News β} (h : m.Tracks clear shown cur owed k)
    (step : m.take = some (news, m')) : m'.Tracks clear (put clear shown news) cur owed k := by
  obtain ⟨hinbox, hm'⟩ := take_some step
  have hsame : m'.settled clear (put clear shown news) = m.settled clear shown := by
    rw [settled, settled, hinbox, hm']
    rfl
  rw [hm']
  rcases h with howed | hfirst | hheard | hasked | hsettled
  · exact .inl howed
  · exact .of_first hfirst
  · exact .of_heard hheard
  · exact .inr (.inr (.inr (.inl hasked)))
  · refine .inr (.inr (.inr (.inr ?_)))
    rw [← hm', hsame, hsettled]

theorem Tracks.restart (h : k ∈ ks) (lost : Bool) (m : Mirror β) :
    (m.restart ks lost).Tracks clear shown cur owed k := .of_first h

/-- A reader that rests shows what there is. -/
theorem Tracks.shows (h : m.Tracks clear shown cur owed k) (idle : m.Idle) (quiet : ¬owed k) :
    shown k = cur k := by
  rcases h with howed | hfirst | hheard | hasked | hsettled
  · exact absurd howed quiet
  · rw [idle.firsts] at hfirst
    cases hfirst
  · rw [idle.heard] at hheard
    cases hheard
  · rw [idle.asking] at hasked
    cases hasked
  · rw [settled, idle.inbox, idle.asking] at hsettled
    exact hsettled

end

end Mirror

end Rebpf.Lib
