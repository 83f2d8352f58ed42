import Rebpf.Lib.Run

namespace Rebpf.Lib

universe u

/-- The end of a stream that asks: it writes a request out, and then reads a reply. -/
inductive Caller (β : Type u)
  | idle
  | calling (left got : List β)
  | returned (reply : List β)
  | gone

/-- The end that serves: it writes what is left of a reply, reads the next request and
works on it. -/
inductive Server (β : Type u)
  | loop (left got : List β)
  | working (request : List β)
  | gone

/-- Both ends of a stream and what is on its way between them. -/
structure Exchange (β : Type u) where
  caller : Caller β
  up : List β
  server : Server β
  down : List β

/-- What the ends do. They write and read in chunks of any size. -/
inductive ExchangeEvent (β : Type u)
  | call (request : List β)
  | send (k : Nat)
  | take (k : Nat)
  | answer (reply : List β)
  | reply (k : Nat)
  | get (k : Nat)
  | back
  | hangUp
  | eof
  | crash

/-- Bytes are written or read. -/
def ExchangeEvent.Moves {β : Type u} : ExchangeEvent β → Prop
  | .send _ | .take _ | .reply _ | .get _ => True
  | _ => False

def Caller.toWrite {β : Type u} : Caller β → Nat
  | .calling left _ => left.length
  | _ => 0

def Server.toWrite {β : Type u} : Server β → Nat
  | .loop left _ => left.length
  | _ => 0

/-- How far the exchange at hand has got, the chunks forgotten. -/
inductive Progress (β : Type u)
  | idle
  | asked (request : List β)
  | working (request : List β)
  | answered (reply : List β)
  | returned (reply : List β)

variable {β : Type u}

/-- Where an exchange is once its bytes are moved. -/
def Progress.arrived : Progress β → Progress β
  | .asked request => .working request
  | .answered reply => .returned reply
  | p => p

namespace Exchange

def new : Exchange β := ⟨.idle, [], .loop [] [], []⟩

def call (request : List β) (s : Exchange β) : Option (Exchange β) :=
  match s.caller with
  | .idle => some { s with caller := .calling request [] }
  | _ => none

def send (k : Nat) (s : Exchange β) : Option (Exchange β) :=
  match s.caller with
  | .calling left got =>
    if 0 < k ∧ k ≤ left.length then
      some { s with caller := .calling (left.drop k) got, up := s.up ++ left.take k }
    else none
  | _ => none

/-- A request has `n` bytes. -/
def take (n k : Nat) (s : Exchange β) : Option (Exchange β) :=
  match s.server with
  | .loop [] got =>
    if 0 < k ∧ k ≤ s.up.length ∧ k ≤ n - got.length then
      let got := got ++ s.up.take k
      some { s with
        up := s.up.drop k
        server := if got.length = n then .working got else .loop [] got }
    else none
  | _ => none

def answer (reply : List β) (s : Exchange β) : Option (Exchange β) :=
  match s.server with
  | .working _ => some { s with server := .loop reply [] }
  | _ => none

/-- Nothing can be written when the other end is gone. -/
def reply (k : Nat) (s : Exchange β) : Option (Exchange β) :=
  match s.server, s.caller with
  | _, .gone => none
  | .loop left got, _ =>
    if 0 < k ∧ k ≤ left.length then
      some { s with server := .loop (left.drop k) got, down := s.down ++ left.take k }
    else none
  | _, _ => none

/-- A reply has `m` bytes. -/
def get (m k : Nat) (s : Exchange β) : Option (Exchange β) :=
  match s.caller with
  | .calling [] got =>
    if 0 < k ∧ k ≤ s.down.length ∧ k ≤ m - got.length then
      let got := got ++ s.down.take k
      some { s with
        down := s.down.drop k
        caller := if got.length = m then .returned got else .calling [] got }
    else none
  | _ => none

def back (s : Exchange β) : Option (Exchange β) :=
  match s.caller with
  | .returned _ => some { s with caller := .idle }
  | _ => none

def hangUp (s : Exchange β) : Option (Exchange β) :=
  match s.caller with
  | .gone => none
  | _ => some { s with caller := .gone }

/-- The server cannot write to an end that is gone, and has nothing more to read from it. -/
def eof (s : Exchange β) : Option (Exchange β) :=
  match s.caller, s.server with
  | .gone, .loop left _ => if left ≠ [] ∨ s.up = [] then some { s with server := .gone } else none
  | _, _ => none

def crash (s : Exchange β) : Option (Exchange β) :=
  match s.server with
  | .working _ => some { s with server := .gone }
  | _ => none

def step (n m : Nat) (s : Exchange β) : ExchangeEvent β → Option (Exchange β)
  | .call request => s.call request
  | .send k => s.send k
  | .take k => s.take n k
  | .answer reply => s.answer reply
  | .reply k => s.reply k
  | .get k => s.get m k
  | .back => s.back
  | .hangUp => s.hangUp
  | .eof => s.eof
  | .crash => s.crash

/-- The bytes of a request, or of a reply, are where they have to be: the first ones read,
the next ones on their way, the rest to be written. -/
inductive Carries (n m : Nat) : Exchange β → Progress β → Prop
  | idle {caller} : caller = .idle ∨ caller = .gone → Carries n m ⟨caller, [], .loop [] [], []⟩ .idle
  | asked {caller left up got request} : caller = .calling left [] ∨ caller = .gone →
      got ++ up ++ left = request → request.length = n → got.length < n →
      Carries n m ⟨caller, up, .loop [] got, []⟩ (.asked request)
  | working {caller request} : caller = .calling [] [] ∨ caller = .gone → request.length = n →
      Carries n m ⟨caller, [], .working request, []⟩ (.working request)
  | answered {caller left down got reply} : caller = .calling [] got ∨ caller = .gone →
      got ++ down ++ left = reply → reply.length = m → got.length < m →
      Carries n m ⟨caller, [], .loop left [], down⟩ (.answered reply)
  | returned {caller reply} : caller = .returned reply ∨ caller = .gone →
      Carries n m ⟨caller, [], .loop [] [], []⟩ (.returned reply)
  | crashed {request} : Carries n m ⟨.calling [] [], [], .gone, []⟩ (.working request)
  | gone {up down p} : Carries n m ⟨.gone, up, .gone, down⟩ p

end Exchange

/-- What an event can do to the exchange at hand. -/
inductive Progress.Next : Progress β → ExchangeEvent β → Progress β → Prop
  | call {request} : Next .idle (.call request) (.asked request)
  | take {request k} : Next (.asked request) (.take k) (.working request)
  | answer {request reply} : Next (.working request) (.answer reply) (.answered reply)
  | get {reply k} : Next (.answered reply) (.get k) (.returned reply)
  | back {reply} : Next (.returned reply) .back .idle
  | send {p k} : Next p (.send k) p
  | taking {p k} : Next p (.take k) p
  | reply {p k} : Next p (.reply k) p
  | getting {p k} : Next p (.get k) p
  | hangUp {p} : Next p .hangUp p
  | eof {p} : Next p .eof p
  | crash {p} : Next p .crash p

namespace Exchange

variable {n m k : Nat} {s t : Exchange β} {p : Progress β} {bytes : List β}

theorem send_some (h : s.send k = some t) : ∃ left got, s.caller = .calling left got ∧
    0 < k ∧ k ≤ left.length ∧
    t = { s with caller := .calling (left.drop k) got, up := s.up ++ left.take k } := by
  unfold send at h
  split at h
  next left got hcaller =>
    split at h
    next hk =>
      cases Option.some.inj h
      exact ⟨left, got, hcaller, hk.1, hk.2, rfl⟩
    next => cases h
  next => cases h

theorem take_some (h : s.take n k = some t) : ∃ got, s.server = .loop [] got ∧
    0 < k ∧ k ≤ s.up.length ∧ k ≤ n - got.length ∧
    t = { s with
      up := s.up.drop k
      server := if (got ++ s.up.take k).length = n then .working (got ++ s.up.take k)
        else .loop [] (got ++ s.up.take k) } := by
  unfold take at h
  split at h
  next got hserver =>
    split at h
    next hk =>
      cases Option.some.inj h
      exact ⟨got, hserver, hk.1, hk.2.1, hk.2.2, rfl⟩
    next => cases h
  next => cases h

theorem reply_some (h : s.reply k = some t) : ∃ left got, s.server = .loop left got ∧
    s.caller ≠ .gone ∧ 0 < k ∧ k ≤ left.length ∧
    t = { s with server := .loop (left.drop k) got, down := s.down ++ left.take k } := by
  unfold reply at h
  split at h
  next => cases h
  next left got hserver hcaller =>
    split at h
    next hk =>
      cases Option.some.inj h
      exact ⟨left, got, hserver, hcaller, hk.1, hk.2, rfl⟩
    next => cases h
  next => cases h

theorem get_some (h : s.get m k = some t) : ∃ got, s.caller = .calling [] got ∧
    0 < k ∧ k ≤ s.down.length ∧ k ≤ m - got.length ∧
    t = { s with
      down := s.down.drop k
      caller := if (got ++ s.down.take k).length = m then .returned (got ++ s.down.take k)
        else .calling [] (got ++ s.down.take k) } := by
  unfold get at h
  split at h
  next got hcaller =>
    split at h
    next hk =>
      cases Option.some.inj h
      exact ⟨got, hcaller, hk.1, hk.2.1, hk.2.2, rfl⟩
    next => cases h
  next => cases h

theorem eof_some (h : s.eof = some t) :
    s.caller = .gone ∧ (∃ left got, s.server = .loop left got) ∧ t = { s with server := .gone } := by
  unfold eof at h
  split at h
  next left got hcaller hserver =>
    split at h
    next => exact ⟨hcaller, ⟨left, got, hserver⟩, (Option.some.inj h).symm⟩
    next => cases h
  next => cases h

theorem crash_some (h : s.crash = some t) :
    (∃ request, s.server = .working request) ∧ t = { s with server := .gone } := by
  unfold crash at h
  split at h
  next request hserver => exact ⟨⟨request, hserver⟩, (Option.some.inj h).symm⟩
  next => cases h

theorem back_gone (gone : s.caller = .gone) : s.back = none := by
  simp only [back, gone]

theorem answer_some {reply : List β} (h : s.answer reply = some t) :
    t = { s with server := .loop reply [] } := by
  unfold answer at h
  split at h
  next => exact (Option.some.inj h).symm
  next => cases h

/-- A caller that is gone does not come back. -/
theorem step_gone {event : ExchangeEvent β} (gone : s.caller = .gone)
    (taken : s.step n m event = some t) : t.caller = .gone := by
  cases event with
  | call | send | get | back | hangUp =>
    simp [step, call, send, get, back, hangUp, gone] at taken
  | reply k =>
    obtain ⟨_, _, _, hthere, _⟩ := reply_some taken
    exact absurd gone hthere
  | take k =>
    obtain ⟨_, _, _, _, _, rfl⟩ := take_some taken
    exact gone
  | answer reply =>
    rw [answer_some taken]
    exact gone
  | eof =>
    obtain ⟨_, _, rfl⟩ := eof_some taken
    exact gone
  | crash =>
    obtain ⟨_, rfl⟩ := crash_some taken
    exact gone

theorem hangUp_some (h : s.hangUp = some t) : t = { s with caller := .gone } := by
  unfold hangUp at h
  split at h
  next => cases h
  next => exact (Option.some.inj h).symm

theorem Carries.new : (new : Exchange β).Carries n m .idle := .idle (Or.inl rfl)

theorem Carries.call (h : s.Carries n m p) (hn : 0 < n) (fits : bytes.length = n)
    (taken : s.call bytes = some t) : p = .idle ∧ t.Carries n m (.asked bytes) := by
  cases h with
  | idle hcaller =>
    obtain rfl | rfl := hcaller
    · cases Option.some.inj taken
      exact ⟨rfl, .asked (Or.inl rfl) rfl fits hn⟩
    · cases taken
  | asked hcaller | working hcaller | answered hcaller | returned hcaller =>
    obtain rfl | rfl := hcaller <;> cases taken
  | crashed | gone => cases taken

theorem Carries.send (h : s.Carries n m p) (taken : s.send k = some t) : t.Carries n m p := by
  obtain ⟨left, got, hcalling, hpos, hle, rfl⟩ := send_some taken
  have hleft : left ≠ [] := by
    rintro rfl
    simp only [List.length_nil] at hle
    omega
  cases h with
  | asked hcaller hbytes hlength hlt =>
    obtain rfl | rfl := hcaller
    · cases hcalling
      refine .asked (Or.inl rfl) ?_ hlength hlt
      rw [← hbytes, List.append_assoc, List.append_assoc, List.append_assoc,
        List.take_append_drop]
    · cases hcalling
  | idle hcaller | returned hcaller => obtain rfl | rfl := hcaller <;> cases hcalling
  | working hcaller | answered hcaller =>
    obtain rfl | rfl := hcaller
    · cases hcalling
      exact absurd rfl hleft
    · cases hcalling
  | crashed =>
    cases hcalling
    exact absurd rfl hleft
  | gone => cases hcalling

/-- A request is worked on once its last bytes are read. -/
theorem Carries.take (h : s.Carries n m p) (taken : s.take n k = some t) :
    ∃ request, p = .asked request ∧
      (t.Carries n m (.asked request) ∨ t.Carries n m (.working request)) := by
  obtain ⟨got, hreading, hpos, hup, hroom, rfl⟩ := take_some taken
  cases h with
  | @asked caller left up got' request hcaller hbytes hlength hlt =>
    cases hreading
    refine ⟨request, rfl, ?_⟩
    have htaken : (got ++ up.take k).length = got.length + k := by
      rw [List.length_append, List.length_take]
      exact congrArg _ (Nat.min_eq_left hup)
    have hmoved : got ++ up.take k ++ up.drop k ++ left = request := by
      rw [← hbytes, List.append_assoc got, List.take_append_drop]
    have htotal := congrArg List.length hmoved
    simp only [List.length_append, List.length_drop, List.length_take] at htotal htaken hup
    split
    next hall =>
      simp only [List.length_append, List.length_take] at hall
      have hrest : up.drop k = [] ∧ left = [] := by
        constructor
        · exact List.eq_nil_of_length_eq_zero (by rw [List.length_drop]; omega)
        · exact List.eq_nil_of_length_eq_zero (by omega)
      obtain ⟨hdrop, rfl⟩ := hrest
      rw [hdrop, List.append_nil, List.append_nil] at hmoved
      simp only [hdrop, hmoved]
      exact Or.inr (.working hcaller hlength)
    next hsome =>
      exact Or.inl (.asked hcaller hmoved hlength (by
        simp only [List.length_append, List.length_take] at hsome ⊢
        omega))
  | idle hcaller | returned hcaller =>
    simp only [List.length_nil] at hup
    omega
  | answered hcaller =>
    simp only [List.length_nil] at hup
    omega
  | working | crashed | gone => cases hreading

theorem Carries.answer (h : s.Carries n m p) (hm : 0 < m) (fits : bytes.length = m)
    (taken : s.answer bytes = some t) :
    ∃ request, p = .working request ∧ t.Carries n m (.answered bytes) := by
  cases h with
  | @working caller request hcaller =>
    cases Option.some.inj taken
    exact ⟨request, rfl, .answered hcaller rfl fits hm⟩
  | idle | asked | answered | returned | crashed | gone => cases taken

theorem Carries.reply (h : s.Carries n m p) (taken : s.reply k = some t) : t.Carries n m p := by
  obtain ⟨left, got, hwriting, hthere, hpos, hle, rfl⟩ := reply_some taken
  cases h with
  | answered hcaller hbytes hlength hlt =>
    cases hwriting
    refine .answered hcaller ?_ hlength hlt
    rw [← hbytes, List.append_assoc, List.append_assoc, List.append_assoc, List.take_append_drop]
  | idle | asked | returned =>
    cases hwriting
    simp only [List.length_nil] at hle
    omega
  | working | crashed | gone => cases hwriting

/-- A reply is returned once its last bytes are read. -/
theorem Carries.get (h : s.Carries n m p) (taken : s.get m k = some t) :
    ∃ reply, p = .answered reply ∧
      (t.Carries n m (.answered reply) ∨ t.Carries n m (.returned reply)) := by
  obtain ⟨got, hreading, hpos, hdown, hroom, rfl⟩ := get_some taken
  cases h with
  | @answered caller left down got' reply hcaller hbytes hlength hlt =>
    obtain rfl | rfl := hcaller
    · cases hreading
      refine ⟨reply, rfl, ?_⟩
      have hmoved : got ++ down.take k ++ down.drop k ++ left = reply := by
        rw [← hbytes, List.append_assoc got, List.take_append_drop]
      have htotal := congrArg List.length hmoved
      simp only [List.length_append, List.length_drop, List.length_take] at htotal hdown
      split
      next hall =>
        simp only [List.length_append, List.length_take] at hall
        have hdrop : down.drop k = [] :=
          List.eq_nil_of_length_eq_zero (by rw [List.length_drop]; omega)
        have hleft : left = [] := List.eq_nil_of_length_eq_zero (by omega)
        rw [hdrop, hleft, List.append_nil, List.append_nil] at hmoved
        simp only [hdrop, hleft, hmoved]
        exact Or.inr (.returned (Or.inl rfl))
      next hsome =>
        exact Or.inl (.answered (Or.inl rfl) hmoved hlength (by
          simp only [List.length_append, List.length_take] at hsome ⊢
          omega))
    · cases hreading
  | idle hcaller | returned hcaller => obtain rfl | rfl := hcaller <;> cases hreading
  | asked hcaller | working hcaller =>
    simp only [List.length_nil] at hdown
    omega
  | crashed =>
    simp only [List.length_nil] at hdown
    omega
  | gone => cases hreading

theorem Carries.back (h : s.Carries n m p) (taken : s.back = some t) :
    ∃ reply, p = .returned reply ∧ t.Carries n m .idle := by
  cases h with
  | @returned caller reply hcaller =>
    obtain rfl | rfl := hcaller
    · cases Option.some.inj taken
      exact ⟨reply, rfl, .idle (Or.inl rfl)⟩
    · cases taken
  | idle hcaller | asked hcaller | working hcaller | answered hcaller =>
    obtain rfl | rfl := hcaller <;> cases taken
  | crashed | gone => cases taken

theorem Carries.hangUp (h : s.Carries n m p) (taken : s.hangUp = some t) : t.Carries n m p := by
  obtain rfl := hangUp_some taken
  cases h with
  | idle => exact .idle (Or.inr rfl)
  | asked _ hbytes hlength hlt => exact .asked (Or.inr rfl) hbytes hlength hlt
  | working _ hlength => exact .working (Or.inr rfl) hlength
  | answered _ hbytes hlength hlt => exact .answered (Or.inr rfl) hbytes hlength hlt
  | returned => exact .returned (Or.inr rfl)
  | crashed | gone => exact .gone

theorem Carries.of_eof (taken : s.eof = some t) : t.Carries n m p := by
  obtain ⟨hcaller, _, rfl⟩ := eof_some taken
  rw [hcaller]
  exact .gone

theorem Carries.crash (h : s.Carries n m p) (taken : s.crash = some t) : t.Carries n m p := by
  cases h with
  | working hcaller =>
    cases Option.some.inj taken
    obtain rfl | rfl := hcaller
    · exact .crashed
    · exact .gone
  | idle | asked | answered | returned | crashed | gone => cases taken

theorem Carries.of_working (h : s.Carries n m p) (working : s.server = .working bytes) :
    p = .working bytes := by
  cases h with
  | working =>
    cases working
    rfl
  | idle | asked | answered | returned | crashed | gone => cases working

theorem Carries.of_idle (h : s.Carries n m p) (idle : s.caller = .idle) : p = .idle := by
  cases h with
  | idle => rfl
  | asked hcaller | working hcaller | answered hcaller | returned hcaller =>
    obtain rfl | rfl := hcaller <;> cases idle
  | crashed | gone => cases idle

theorem Carries.gone_still {event : ExchangeEvent β} (h : s.Carries n m p)
    (hgone : s.server = .gone) (moves : event.Moves) : s.step n m event = none := by
  cases h with
  | crashed =>
    cases event with
    | send k => exact if_neg (by simp only [List.length_nil]; omega)
    | get k => exact if_neg (by simp only [List.length_nil]; omega)
    | take | reply => rfl
    | call | answer | back | hangUp | eof | crash => cases moves
  | gone =>
    cases event with
    | send | take | reply | get => rfl
    | call | answer | back | hangUp | eof | crash => cases moves
  | idle | asked | working | answered | returned => cases hgone

/-- Whatever the chunks, the ends go through the exchanges one after the other. -/
theorem Carries.step {event : ExchangeEvent β} (hn : 0 < n) (hm : 0 < m)
    (request : ∀ request, event = .call request → request.length = n)
    (reply : ∀ reply, event = .answer reply → reply.length = m) (h : s.Carries n m p)
    (taken : s.step n m event = some t) : ∃ q, p.Next event q ∧ t.Carries n m q := by
  cases event with
  | call r =>
    obtain ⟨rfl, hnext⟩ := h.call hn (request r rfl) taken
    exact ⟨_, .call, hnext⟩
  | send k => exact ⟨p, .send, h.send taken⟩
  | take k =>
    obtain ⟨r, rfl, hnext | hnext⟩ := h.take taken
    · exact ⟨_, .taking, hnext⟩
    · exact ⟨_, .take, hnext⟩
  | answer r =>
    obtain ⟨r', rfl, hnext⟩ := h.answer hm (reply r rfl) taken
    exact ⟨_, .answer, hnext⟩
  | reply k => exact ⟨p, .reply, h.reply taken⟩
  | get k =>
    obtain ⟨r, rfl, hnext | hnext⟩ := h.get taken
    · exact ⟨_, .getting, hnext⟩
    · exact ⟨_, .get, hnext⟩
  | back =>
    obtain ⟨r, rfl, hnext⟩ := h.back taken
    exact ⟨_, .back, hnext⟩
  | hangUp => exact ⟨p, .hangUp, h.hangUp taken⟩
  | eof => exact ⟨p, .eof, .of_eof taken⟩
  | crash => exact ⟨p, .crash, h.crash taken⟩

/-- The bytes still to be written count twice: they are to be read as well. -/
def toMove (s : Exchange β) : Nat :=
  2 * s.caller.toWrite + s.up.length + 2 * s.server.toWrite + s.down.length

theorem toMove_lt {event : ExchangeEvent β} (moves : event.Moves)
    (taken : s.step n m event = some t) : t.toMove < s.toMove := by
  cases event with
  | send k =>
    obtain ⟨left, got, hcaller, hpos, hle, rfl⟩ := send_some taken
    simp only [toMove, hcaller, Caller.toWrite, List.length_drop, List.length_append,
      List.length_take]
    omega
  | take k =>
    obtain ⟨got, hserver, hpos, hup, _, rfl⟩ := take_some taken
    have hread : (if (got ++ s.up.take k).length = n then Server.working (got ++ s.up.take k)
        else .loop [] (got ++ s.up.take k)).toWrite = 0 := by split <;> rfl
    have hnone : (Server.loop [] got : Server β).toWrite = 0 := rfl
    simp only [toMove, hserver, hread, hnone, List.length_drop]
    omega
  | reply k =>
    obtain ⟨left, got, hserver, _, hpos, hle, rfl⟩ := reply_some taken
    simp only [toMove, hserver, Server.toWrite, List.length_drop, List.length_append,
      List.length_take]
    omega
  | get k =>
    obtain ⟨got, hcaller, hpos, hdown, _, rfl⟩ := get_some taken
    have hread : (if (got ++ s.down.take k).length = m then Caller.returned (got ++ s.down.take k)
        else .calling [] (got ++ s.down.take k)).toWrite = 0 := by split <;> rfl
    have hnone : (Caller.calling [] got : Caller β).toWrite = 0 := rfl
    simp only [toMove, hcaller, hread, hnone, List.length_drop]
    omega
  | call | answer | back | hangUp | eof | crash => cases moves

/-- As long as the caller is there, an exchange that is neither worked on nor done has bytes
to move. -/
theorem Carries.moves (h : s.Carries n m p) (there : s.caller ≠ .gone)
    (busy : (∃ request, p = .asked request) ∨ ∃ reply, p = .answered reply) :
    ∃ event : ExchangeEvent β, event.Moves ∧ (s.step n m event).isSome := by
  cases h with
  | @asked caller left up got request hcaller hbytes hlength hlt =>
    obtain rfl := hcaller.resolve_right there
    by_cases hleft : left = []
    · have hroom := congrArg List.length hbytes
      simp only [hleft, List.append_nil, List.length_append] at hroom
      refine ⟨.take up.length, trivial, ?_⟩
      have hall : 0 < up.length ∧ up.length ≤ up.length ∧ up.length ≤ n - got.length := by omega
      simp only [Exchange.step, Exchange.take, hall, and_self, if_true, Option.isSome_some]
    · refine ⟨.send left.length, trivial, ?_⟩
      have hall : 0 < left.length ∧ left.length ≤ left.length :=
        ⟨List.length_pos_iff.mpr hleft, Nat.le_refl _⟩
      simp only [Exchange.step, Exchange.send, hall, and_self, if_true, Option.isSome_some]
  | @answered caller left down got reply hcaller hbytes hlength hlt =>
    obtain rfl := hcaller.resolve_right there
    by_cases hleft : left = []
    · have hroom := congrArg List.length hbytes
      simp only [hleft, List.append_nil, List.length_append] at hroom
      refine ⟨.get down.length, trivial, ?_⟩
      have hall : 0 < down.length ∧ down.length ≤ down.length ∧ down.length ≤ m - got.length := by
        omega
      simp only [Exchange.step, Exchange.get, hall, and_self, if_true, Option.isSome_some]
    · refine ⟨.reply left.length, trivial, ?_⟩
      have hall : 0 < left.length ∧ left.length ≤ left.length :=
        ⟨List.length_pos_iff.mpr hleft, Nat.le_refl _⟩
      simp only [Exchange.step, Exchange.reply, hall, and_self, if_true, Option.isSome_some]
  | idle | working | returned | crashed =>
    obtain ⟨_, hp⟩ | ⟨_, hp⟩ := busy <;> cases hp
  | gone => exact absurd rfl there

/-- Bytes are moved by ends that stay. -/
theorem Carries.stays {event : ExchangeEvent β} (moves : event.Moves) (there : s.caller ≠ .gone)
    (taken : s.step n m event = some t) : t.caller ≠ .gone := by
  cases event with
  | send k =>
    obtain ⟨left, got, _, _, _, rfl⟩ := send_some taken
    simp
  | take k =>
    obtain ⟨got, _, _, _, _, rfl⟩ := take_some taken
    exact there
  | reply k =>
    obtain ⟨left, got, _, _, _, _, rfl⟩ := reply_some taken
    exact there
  | get k =>
    obtain ⟨got, _, _, _, _, rfl⟩ := get_some taken
    dsimp only
    split <;> simp
  | call | answer | back | hangUp | eof | crash => cases moves

theorem Carries.serves {event : ExchangeEvent β} (moves : event.Moves) (served : s.server ≠ .gone)
    (taken : s.step n m event = some t) : t.server ≠ .gone := by
  cases event with
  | send k =>
    obtain ⟨left, got, _, _, _, rfl⟩ := send_some taken
    exact served
  | take k =>
    obtain ⟨got, _, _, _, _, rfl⟩ := take_some taken
    dsimp only
    split <;> simp
  | reply k =>
    obtain ⟨left, got, _, _, _, _, rfl⟩ := reply_some taken
    simp
  | get k =>
    obtain ⟨got, _, _, _, _, rfl⟩ := get_some taken
    exact served
  | call | answer | back | hangUp | eof | crash => cases moves

theorem Carries.move {event : ExchangeEvent β} (hn : 0 < n) (hm : 0 < m) (moves : event.Moves)
    (h : s.Carries n m p) (taken : s.step n m event = some t) :
    t.Carries n m p ∨ t.Carries n m p.arrived := by
  have hcall : ∀ bytes, event ≠ .call bytes := by
    rintro bytes rfl
    exact moves
  have hanswer : ∀ bytes, event ≠ .answer bytes := by
    rintro bytes rfl
    exact moves
  obtain ⟨q, next, hnext⟩ := h.step hn hm (fun r hr => absurd hr (hcall r))
    (fun r hr => absurd hr (hanswer r)) taken
  cases next with
  | take | get => exact Or.inr hnext
  | send | taking | reply | getting => exact Or.inl hnext
  | call | answer | back | hangUp | eof | crash => cases moves

theorem Carries.move_between {event : ExchangeEvent β} {a b : Progress β} (hn : 0 < n) (hm : 0 < m)
    (moves : event.Moves) (hp : p = a ∨ p = b) (ha : a.arrived = b) (hb : b.arrived = b)
    (h : s.Carries n m p) (taken : s.step n m event = some t) :
    ∃ q, (q = a ∨ q = b) ∧ t.Carries n m q := by
  have harrived : p.arrived = b := by
    obtain rfl | rfl := hp
    · exact ha
    · exact hb
  obtain hnext | hnext := h.move hn hm moves taken
  · exact ⟨p, hp, hnext⟩
  · exact ⟨b, Or.inr rfl, harrived ▸ hnext⟩

/-- The bytes of a request, or of a reply, get to the other end however they are moved. -/
theorem Carries.delivered (hn : 0 < n) (hm : 0 < m) (h : s.Carries n m p)
    (there : s.caller ≠ .gone) (served : s.server ≠ .gone) :
    ∃ es t, Run (Exchange.step n m) (fun _ _ => True) s es t ∧
      (∀ e ∈ es, e.Moves) ∧ t.Carries n m p.arrived ∧ t.caller ≠ .gone ∧ t.server ≠ .gone := by
  induction hmoves : s.toMove using Nat.strongRecOn generalizing s with
  | _ bytes ih =>
    have next : (∃ request, p = .asked request) ∨ (∃ reply, p = .answered reply) →
        ∃ es t, Run (Exchange.step n m) (fun _ _ => True) s es t ∧ (∀ e ∈ es, e.Moves) ∧
          t.Carries n m p.arrived ∧ t.caller ≠ .gone ∧ t.server ≠ .gone := by
      intro busy
      obtain ⟨event, moves, hsome⟩ := h.moves there busy
      obtain ⟨mid, taken⟩ := Option.isSome_iff_exists.mp hsome
      have hthere := Carries.stays moves there taken
      have hserved := Carries.serves moves served taken
      obtain hmid | hmid := h.move hn hm moves taken
      · have hlt := toMove_lt moves taken
        obtain ⟨es, t, run, hall, ht⟩ := ih _ (hmoves ▸ hlt) hmid hthere hserved rfl
        exact ⟨event :: es, t, .cons trivial taken run, List.forall_mem_cons.mpr ⟨moves, hall⟩, ht⟩
      · exact ⟨[event], mid, .single trivial taken, by simpa using moves, hmid, hthere, hserved⟩
    cases p with
    | asked request => exact next (Or.inl ⟨request, rfl⟩)
    | answered reply => exact next (Or.inr ⟨reply, rfl⟩)
    | idle | working | returned => exact ⟨[], s, .nil, by simp, h, there, served⟩

end Exchange

end Rebpf.Lib
