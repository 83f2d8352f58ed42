import Rebpf.SettingsEdits

namespace Rebpf

open Lib

namespace SettingsSystem

variable {ι : Type}

/-- A user acts only when all is delivered, and nothing is refused. -/
def InTurn (s : SettingsSystem ι) : SettingsEvent ι → Prop
  | .user _ _ => s.Delivered
  | .serve i polkit => polkit = .ok true ∧ ∀ r ∈ (s.apps i).sent.head?,
      (parseIpv4Addr r.settings.spoofDnsIpv4).isSome
  | _ => True

end SettingsSystem

/-- What the app has in its window, as it would send it. -/
def App.draft (a : App) : SettingsUpdate := ⟨a.settings, a.edited⟩

def App.Untold (a : App) : Prop := ∀ n, .settings n ∉ a.inbox

/-- An app without an open request: it shows the configuration, or it will be told. -/
structure App.Answered (c : Config) (unannounced : Nat) (a : App) : Prop where
  sent : a.sent = []
  told : ∀ n, .settings n ∈ a.inbox → n = .shown c
  shows : unannounced = 0 → a.signals = 0 → a.Untold → a.draft.Fresh c

/-- An app that nothing is on its way to, with the requests it has open. -/
structure App.Waiting (requests : List SettingsUpdate) (a : App) : Prop where
  sent : a.sent = requests
  signals : a.signals = 0
  untold : a.Untold

namespace SettingsSystem

variable {ι : Type}

def Answered (s : SettingsSystem ι) : Prop :=
  ∀ i, (s.apps i).Answered s.config s.unannounced

/-- One app has a request open, a fresh one. -/
structure Asked [DecidableEq ι] (s : SettingsSystem ι) (i : ι) (r : SettingsUpdate) : Prop where
  fresh : r.Fresh s.config
  unannounced : s.unannounced = 0
  waiting : ∀ j, (s.apps j).Waiting (if j = i then [r] else [])

def OneAtATime [DecidableEq ι] (s : SettingsSystem ι) : Prop := s.Answered ∨ ∃ i r, s.Asked i r

end SettingsSystem

theorem SettingsUpdate.fresh_shown (c : Config) (edited : List SettingsField) :
    (⟨.shown c, edited⟩ : SettingsUpdate).Fresh c :=
  ⟨fun _ => rfl, fun _ => rfl, fun _ => parseIpv4Addr_ipv4ToString _, fun _ => rfl⟩

namespace App

variable {a : App} {c : Config}

theorem settingsSubmit_cases (a : App) :
    a.settingsSubmit = { a with sent := a.sent ++ [a.draft], edited := [] } ∨
      a.settingsSubmit = a := by
  unfold settingsSubmit
  split
  next => exact .inl rfl
  next => exact .inr rfl

/-- Whatever the user does, the draft stays fresh. -/
theorem edit_fresh (fresh : a.draft.Fresh c) (msg : UserMsg) :
    ∃ edited : App, edited.draft.Fresh c ∧ edited.sent = a.sent ∧ edited.signals = a.signals ∧
      edited.inbox = a.inbox ∧ (a.update msg = edited ∨ a.update msg = edited.settingsSubmit) := by
  obtain ⟨lan, dns, ip, drop⟩ := fresh
  have tail : ∀ {f g : SettingsField}, f ∉ g :: a.edited → f ∉ a.edited :=
    fun h hf => h (List.mem_cons_of_mem _ hf)
  have head : ∀ {f : SettingsField} {P : Prop}, f ∉ f :: a.edited → P :=
    fun h => absurd List.mem_cons_self h
  cases msg with
  | settingsLan n =>
    exact ⟨a.edit .allowLan { a.settings with allowLan := n },
      ⟨head, fun h => dns (tail h), fun h => ip (tail h), fun h => drop (tail h)⟩,
      rfl, rfl, rfl, .inr rfl⟩
  | settingsDns n =>
    exact ⟨a.edit .spoofDns { a.settings with spoofDns := n },
      ⟨fun h => lan (tail h), head, fun h => ip (tail h), fun h => drop (tail h)⟩,
      rfl, rfl, rfl, .inr rfl⟩
  | settingsDnsIp n =>
    exact ⟨a.edit .spoofDnsIpv4 { a.settings with spoofDnsIpv4 := n },
      ⟨fun h => lan (tail h), fun h => dns (tail h), head, fun h => drop (tail h)⟩,
      rfl, rfl, rfl, .inl rfl⟩
  | settingsDropEgressWithoutOutput n =>
    exact ⟨a.edit .dropEgressWithoutOutput { a.settings with dropEgressWithoutOutput := n },
      ⟨fun h => lan (tail h), fun h => dns (tail h), fun h => ip (tail h), head⟩,
      rfl, rfl, rfl, .inr rfl⟩
  | settingsDnsIpSubmit => exact ⟨a, ⟨lan, dns, ip, drop⟩, rfl, rfl, rfl, .inr rfl⟩
  | settingsClose => exact ⟨a, ⟨lan, dns, ip, drop⟩, rfl, rfl, rfl, .inr rfl⟩

/-- An action of the user leaves a fresh draft or sends one. -/
theorem update_cases (fresh : a.draft.Fresh c) (msg : UserMsg) :
    (a.update msg).signals = a.signals ∧ (a.update msg).inbox = a.inbox ∧
      ((a.update msg).sent = a.sent ∧ (a.update msg).draft.Fresh c ∨
        ∃ r : SettingsUpdate, r.Fresh c ∧ (a.update msg).sent = a.sent ++ [r]) := by
  obtain ⟨edited, hdraft, hsent, hsignals, hinbox, hupdate | hupdate⟩ := edit_fresh fresh msg
  · rw [hupdate]
    exact ⟨hsignals, hinbox, .inl ⟨hsent, hdraft⟩⟩
  · rw [hupdate, ← hsent]
    rcases settingsSubmit_cases edited with hsubmit | hsubmit
    · rw [hsubmit]
      exact ⟨hsignals, hinbox, .inr ⟨edited.draft, hdraft, rfl⟩⟩
    · rw [hsubmit]
      exact ⟨hsignals, hinbox, .inl ⟨rfl, hdraft⟩⟩

end App

namespace App

variable {a : App} {c : Config} {unannounced : Nat} {requests : List SettingsUpdate}

theorem Answered.fail (answered : a.Answered c unannounced) :
    ({ a with inbox := a.inbox ++ [.dbusErr] } : App).Answered c unannounced := by
  constructor
  · exact answered.sent
  · intro n hn
    exact answered.told n (by simpa using hn)
  · intro hnone hsignals huntold
    exact answered.shows hnone hsignals fun n hn => huntold n (List.mem_append_left _ hn)

theorem Waiting.fail (waiting : a.Waiting requests) :
    ({ a with inbox := a.inbox ++ [.dbusErr] } : App).Waiting requests :=
  ⟨waiting.sent, waiting.signals, fun n hn => waiting.untold n (by simpa using hn)⟩

theorem Answered.look (answered : a.Answered c unannounced) :
    ({ a with signals := a.signals - 1, inbox := a.inbox ++ [.settings (.shown c)] } : App).Answered
      c unannounced := by
  constructor
  · exact answered.sent
  · intro n hn
    rcases List.mem_append.mp hn with hn | hn
    · exact answered.told n hn
    · simpa using hn
  · intro _ _ huntold
    exact absurd (List.mem_append_right _ List.mem_cons_self) (huntold (.shown c))

theorem Answered.deliver (answered : a.Answered c unannounced) {msg : TaskMsg}
    {inbox : List TaskMsg} (hinbox : a.inbox = msg :: inbox) :
    (({ a with inbox } : App).receive msg).Answered c unannounced := by
  have told : ∀ n, .settings n ∈ inbox → n = .shown c := fun n hn =>
    answered.told n (by rw [hinbox]; exact List.mem_cons_of_mem _ hn)
  cases msg with
  | settings n =>
    have hn : n = .shown c := answered.told n (by rw [hinbox]; exact List.mem_cons_self)
    subst hn
    exact ⟨answered.sent, told, fun _ _ _ => SettingsUpdate.fresh_shown c []⟩
  | dbusErr =>
    refine ⟨answered.sent, told, fun hnone hsignals huntold => ?_⟩
    refine answered.shows hnone hsignals fun n hn => huntold n ?_
    rw [hinbox] at hn
    exact (List.mem_cons.mp hn).resolve_left (fun heq => nomatch heq)

theorem Waiting.deliver (waiting : a.Waiting requests) {msg : TaskMsg} {inbox : List TaskMsg}
    (hinbox : a.inbox = msg :: inbox) : (({ a with inbox } : App).receive msg).Waiting requests := by
  have untold : ∀ n, .settings n ∉ inbox := fun n hn =>
    waiting.untold n (by rw [hinbox]; exact List.mem_cons_of_mem _ hn)
  cases msg with
  | settings n => exact absurd (by rw [hinbox]; exact List.mem_cons_self) (waiting.untold n)
  | dbusErr => exact ⟨waiting.sent, waiting.signals, untold⟩

end App

section

variable {ι : Type} [DecidableEq ι] {debug : String → String} {s t : SettingsSystem ι}

namespace SettingsSystem

/-- A step of one app alone. -/
theorem Answered.setApp (answered : s.Answered) {i : ι} {a : App}
    (ha : a.Answered s.config s.unannounced) : (s.setApp i a).Answered :=
  (Function.forall_update_iff s.apps fun _ app => app.Answered s.config s.unannounced).mpr
    ⟨ha, fun j _ => answered j⟩

theorem Asked.setApp {i : ι} {r : SettingsUpdate} (asked : s.Asked i r) {j : ι} {a : App}
    (ha : a.Waiting (if j = i then [r] else [])) : (s.setApp j a).Asked i r := by
  have waiting := (Function.forall_update_iff s.apps fun k app =>
    app.Waiting (if k = i then [r] else [])).mpr ⟨ha, fun k _ => asked.waiting k⟩
  exact ⟨asked.fresh, asked.unannounced, waiting⟩

/-- An action of the user leaves everything answered, or opens one request. -/
theorem Answered.step_user (answered : s.Answered) (delivered : s.Delivered) (i : ι)
    (msg : UserMsg) : (s.setApp i ((s.apps i).update msg)).OneAtATime := by
  obtain ⟨hnone, hquiet⟩ := delivered
  have untold : ∀ j, (s.apps j).Untold := fun j n hn => by
    rw [(hquiet j).2.2] at hn
    cases hn
  have fresh := (answered i).shows hnone (hquiet i).2.1 (untold i)
  obtain ⟨hsignals, hinbox, ⟨hsent, hdraft⟩ | ⟨r, hr, hsent⟩⟩ := App.update_cases fresh msg
  · refine .inl (answered.setApp ⟨hsent.trans (answered i).sent, fun n hn => ?_, fun _ _ _ => hdraft⟩)
    rw [hinbox] at hn
    exact absurd hn (untold i n)
  · refine .inr ⟨i, r, hr, hnone, (Function.forall_update_iff s.apps fun j app =>
      app.Waiting (if j = i then [r] else [])).mpr ⟨?_, fun j hj => ?_⟩⟩
    · rw [if_pos rfl]
      refine ⟨?_, hsignals.trans (hquiet i).2.1, fun n hn => ?_⟩
      · rw [hsent, (answered i).sent]
        rfl
      · rw [hinbox] at hn
        exact absurd hn (untold i n)
    · rw [if_neg hj]
      exact ⟨(answered j).sent, (hquiet j).2.1, untold j⟩

theorem Answered.step {ev : SettingsEvent ι} (answered : s.Answered) (turn : s.InTurn ev)
    (h : s.step debug ev = some t) : t.OneAtATime ∧ s.FreshWhenServed ev := by
  cases ev with
  | user i msg =>
    cases Option.some.inj h
    exact ⟨answered.step_user turn i msg, trivial⟩
  | serve i polkit =>
    obtain ⟨r, sent, hsent, _⟩ := step_serve h
    rw [(answered i).sent] at hsent
    cases hsent
  | announce =>
    obtain ⟨_, rfl⟩ := step_announce h
    refine ⟨.inl fun i => ?_, trivial⟩
    have ha := answered i
    exact ⟨ha.sent, ha.told, fun _ hsignals _ => absurd hsignals (Nat.succ_ne_zero _)⟩
  | look i =>
    obtain ⟨_, rfl⟩ := step_look h
    exact ⟨.inl (answered.setApp (answered i).look), trivial⟩
  | deliver i =>
    obtain ⟨msg, inbox, hinbox, rfl⟩ := step_deliver h
    exact ⟨.inl (answered.setApp ((answered i).deliver hinbox)), trivial⟩
  | fail i =>
    cases Option.some.inj h
    exact ⟨.inl (answered.setApp (answered i).fail), trivial⟩

/-- The open request is accepted, and then all are to be told. -/
theorem Asked.step_serve {i j : ι} {r : SettingsUpdate} {polkit : Polkit} (asked : s.Asked i r)
    (turn : s.InTurn (.serve j polkit)) (h : s.step debug (.serve j polkit) = some t) :
    t.Answered ∧ s.FreshWhenServed (.serve j polkit) := by
  obtain ⟨r', sent, hsent, hcase⟩ := SettingsSystem.step_serve h
  have hopen := (asked.waiting j).sent
  have hj : j = i := by
    by_contra hne
    rw [if_neg hne, hsent] at hopen
    cases hopen
  subst hj
  rw [if_pos rfl, hsent] at hopen
  obtain ⟨rfl, rfl⟩ := List.cons.inj hopen
  obtain ⟨hpolkit, haddr⟩ := turn
  have hsome := haddr r' (by rw [hsent]; rfl)
  refine ⟨?_, fun r hr _ _ => ?_⟩
  · obtain ⟨hrefused, _⟩ | ⟨addr, _, _, rfl⟩ := hcase
    · exact absurd ⟨hpolkit, hsome⟩ hrefused
    · have told : ∀ c k n, TaskMsg.settings n ∈ (s.apps k).inbox → n = .shown c :=
        fun c k n hn => absurd hn ((asked.waiting k).untold n)
      have announced : ∀ {P : Prop}, s.unannounced + 1 = 0 → P := fun hnone =>
        absurd hnone (Nat.succ_ne_zero _)
      refine (Function.forall_update_iff s.apps fun _ app => app.Answered _ _).mpr
        ⟨⟨rfl, told _ j, announced⟩, fun k hk => ?_⟩
      have hsent := (asked.waiting k).sent
      rw [if_neg hk] at hsent
      exact ⟨hsent, told _ k, announced⟩
  · rw [hsent] at hr
    cases Option.some.inj hr
    exact asked.fresh

theorem Asked.step {i : ι} {r : SettingsUpdate} {ev : SettingsEvent ι} (asked : s.Asked i r)
    (turn : s.InTurn ev) (h : s.step debug ev = some t) : t.OneAtATime ∧ s.FreshWhenServed ev := by
  cases ev with
  | user j msg =>
    have hempty := (turn.2 i).1
    rw [(asked.waiting i).sent, if_pos rfl] at hempty
    cases hempty
  | serve j polkit =>
    obtain ⟨answered, fresh⟩ := asked.step_serve turn h
    exact ⟨.inl answered, fresh⟩
  | announce => exact absurd asked.unannounced (step_announce h).1
  | look j => exact absurd (asked.waiting j).signals (step_look h).1
  | deliver j =>
    obtain ⟨msg, inbox, hinbox, rfl⟩ := step_deliver h
    exact ⟨.inr ⟨i, r, asked.setApp ((asked.waiting j).deliver hinbox)⟩, trivial⟩
  | fail j =>
    cases Option.some.inj h
    exact ⟨.inr ⟨i, r, asked.setApp (asked.waiting j).fail⟩, trivial⟩

theorem OneAtATime.step {ev : SettingsEvent ι} (inv : s.OneAtATime) (turn : s.InTurn ev)
    (h : s.step debug ev = some t) : t.OneAtATime ∧ s.FreshWhenServed ev := by
  rcases inv with answered | ⟨i, r, asked⟩
  · exact answered.step turn h
  · exact asked.step turn h

theorem Started.oneAtATime (started : s.Started) : s.OneAtATime := by
  obtain ⟨_, delivered, hshown⟩ := started
  refine .inl fun i => ?_
  obtain ⟨hsent, _, hinbox⟩ := delivered.2 i
  obtain ⟨hedited, hsettings, _⟩ := hshown i
  refine ⟨hsent, fun n hn => ?_, fun _ _ _ => ?_⟩
  · rw [hinbox] at hn
    cases hn
  · rw [App.draft, hsettings, hedited]
    exact SettingsUpdate.fresh_shown s.config []

/-- While users wait for everything to be delivered and nothing is refused, no edit
is lost. -/
theorem holdsEdits_of_turns {es : List (SettingsEvent ι)} (started : s.Started)
    (run : Run (step debug) InTurn s es t) : t.HoldsEdits := by
  have both : t.OneAtATime ∧ t.HoldsEdits := by
    refine run.invariant (I := fun s => s.OneAtATime ∧ s.HoldsEdits)
      (fun s ev t inv turn taken => ?_) ⟨started.oneAtATime, started.1⟩
    obtain ⟨next, fresh⟩ := inv.1.step turn taken
    exact ⟨next, (inv.2.step_iff taken).mpr fresh⟩
  exact both.2

end SettingsSystem

end

end Rebpf
