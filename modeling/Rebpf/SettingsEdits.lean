import Mathlib.Logic.Function.Basic
import Rebpf.Lib.Run
import Rebpf.SettingsMap

namespace Rebpf

open Lib

inductive SettingsField
  | allowLan
  | spoofDns
  | spoofDnsIpv4
  | dropEgressWithoutOutput
deriving DecidableEq, Repr

def SettingsField.key : SettingsField → String
  | allowLan => "allow_lan"
  | spoofDns => "spoof_dns"
  | spoofDnsIpv4 => "spoof_dns_ipv4"
  | dropEgressWithoutOutput => "drop_egress_without_output"

/-- The settings of an app as they are sent, and which of them the user has changed
since the app last sent or got some. -/
structure SettingsUpdate where
  settings : Gui.Settings
  edited : List SettingsField
deriving DecidableEq, Repr

/-- What the user does in the window. -/
inductive UserMsg
  | settingsLan (n : Bool)
  | settingsDns (n : Bool)
  | settingsDnsIp (n : String)
  | settingsDnsIpSubmit
  | settingsDropEgressWithoutOutput (n : Bool)
  | settingsClose
deriving DecidableEq, Repr

/-- What the tasks of an app tell its window. -/
inductive TaskMsg
  | settings (n : Gui.Settings)
  | dbusErr
deriving DecidableEq, Repr

/-- An app: its window, the requests not yet served, the signals it has not looked at
and the messages its window has not got. -/
structure App where
  settings : Gui.Settings
  settingsOverride : Gui.Settings
  edited : List SettingsField
  sent : List SettingsUpdate
  signals : Nat
  inbox : List TaskMsg
deriving DecidableEq, Repr

namespace App

def settingsSubmit (s : App) : App :=
  if s.settings ≠ s.settingsOverride then
    { s with sent := s.sent ++ [⟨s.settings, s.edited⟩], edited := [] }
  else s

def edit (s : App) (field : SettingsField) (settings : Gui.Settings) : App :=
  { s with settings, edited := field :: s.edited }

def update (s : App) : UserMsg → App
  | .settingsLan n => (s.edit .allowLan { s.settings with allowLan := n }).settingsSubmit
  | .settingsDns n => (s.edit .spoofDns { s.settings with spoofDns := n }).settingsSubmit
  | .settingsDnsIp n => s.edit .spoofDnsIpv4 { s.settings with spoofDnsIpv4 := n }
  | .settingsDnsIpSubmit => s.settingsSubmit
  | .settingsDropEgressWithoutOutput n =>
    (s.edit .dropEgressWithoutOutput
      { s.settings with dropEgressWithoutOutput := n }).settingsSubmit
  | .settingsClose => s.settingsSubmit

def receive (s : App) : TaskMsg → App
  | .settings n => { s with settings := n, settingsOverride := n, edited := [] }
  -- Nothing that was edited is taken back.
  | .dbusErr => { s with settingsOverride := s.settings }

end App

/-- The daemon's configuration and the apps that edit it. -/
structure SettingsSystem (ι : Type) where
  config : Config
  apps : ι → App
  /-- Accepted updates whose signal is not out. -/
  unannounced : Nat
  /-- Field by field the value of the last accepted edit, if there was one. -/
  lastAccepted : Config

inductive SettingsEvent (ι : Type)
  | user (i : ι) (msg : UserMsg)
  /-- The daemon answers the app's first request. -/
  | serve (i : ι) (polkit : Polkit)
  | announce
  /-- The app reads the property for a signal. -/
  | look (i : ι)
  | deliver (i : ι)
  /-- Another request of the app fails. -/
  | fail (i : ι)

/-- What becomes of the last accepted edits with those of an update. -/
def SettingsUpdate.onto (r : SettingsUpdate) (last : Config) : Config :=
  r.settings.takeOver ((parseIpv4Addr r.settings.spoofDnsIpv4).getD last.spoofDnsIpv4) last
    (r.edited.map SettingsField.key)

namespace SettingsSystem

variable {ι : Type} [DecidableEq ι]

def setApp (s : SettingsSystem ι) (i : ι) (app : App) : SettingsSystem ι :=
  { s with apps := Function.update s.apps i app }

def step (debug : String → String) (s : SettingsSystem ι) :
    SettingsEvent ι → Option (SettingsSystem ι)
  | .user i msg => some (s.setApp i ((s.apps i).update msg))
  | .serve i polkit =>
    match (s.apps i).sent with
    | [] => none
    | r :: sent =>
      let app := { s.apps i with sent }
      match updateConfig debug polkit r.settings.intoHashmap s.config with
      | .error _ => some (s.setApp i { app with inbox := app.inbox ++ [.dbusErr] })
      | .ok config => some { s.setApp i app with
          config
          unannounced := s.unannounced + 1
          lastAccepted := r.onto s.lastAccepted }
  | .announce =>
    if s.unannounced = 0 then none
    else some { s with
      unannounced := s.unannounced - 1
      apps := fun i => { s.apps i with signals := (s.apps i).signals + 1 } }
  | .look i =>
    let app := s.apps i
    if app.signals = 0 then none
    else some (s.setApp i { app with
      signals := app.signals - 1
      inbox := app.inbox ++ [.settings (.fromHashmap s.config.toHashmap)] })
  | .deliver i =>
    match (s.apps i).inbox with
    | [] => none
    | msg :: inbox => some (s.setApp i ({ s.apps i with inbox }.receive msg))
  | .fail i => some (s.setApp i { s.apps i with inbox := (s.apps i).inbox ++ [.dbusErr] })

/-- The configuration holds the last accepted edit of every field. -/
def HoldsEdits (s : SettingsSystem ι) : Prop := s.config = s.lastAccepted

/-- All messages are delivered. -/
def Delivered (s : SettingsSystem ι) : Prop :=
  s.unannounced = 0 ∧ ∀ i, (s.apps i).sent = [] ∧ (s.apps i).signals = 0 ∧ (s.apps i).inbox = []

end SettingsSystem

/-- The fields an update was not made for are those of the configuration. -/
structure SettingsUpdate.Fresh (r : SettingsUpdate) (c : Config) : Prop where
  allowLan : .allowLan ∉ r.edited → r.settings.allowLan = c.allowLan
  spoofDns : .spoofDns ∉ r.edited → r.settings.spoofDns = c.spoofDns
  spoofDnsIpv4 : .spoofDnsIpv4 ∉ r.edited →
    parseIpv4Addr r.settings.spoofDnsIpv4 = some c.spoofDnsIpv4
  dropEgressWithoutOutput : .dropEgressWithoutOutput ∉ r.edited →
    r.settings.dropEgressWithoutOutput = c.dropEgressWithoutOutput

/-- An update that polkit lets through, with an address, is fresh. -/
def SettingsSystem.FreshWhenServed {ι : Type} (s : SettingsSystem ι) : SettingsEvent ι → Prop
  | .serve i polkit => ∀ r ∈ (s.apps i).sent.head?, polkit = .ok true →
      (parseIpv4Addr r.settings.spoofDnsIpv4).isSome → r.Fresh s.config
  | _ => True

theorem updateConfig_settings {debug : String → String} {polkit : Polkit} {s : Gui.Settings}
    {c c' : Config} : updateConfig debug polkit s.intoHashmap c = .ok c' ↔
      polkit = .ok true ∧
        ∃ addr, parseIpv4Addr s.spoofDnsIpv4 = some addr ∧ s.putInto addr c = c' := by
  have hauth : authOrErr "UpdateConfig" polkit = .ok () ↔ polkit = .ok true := by
    unfold authOrErr
    split <;> simp
  rw [updateConfig, bind_eq_ok]
  simp only [hauth, exists_const, mapError_eq_ok, Config.fromHashmap_settings (List.Perm.refl _)]
  refine and_congr_right fun _ => ?_
  cases parseIpv4Addr s.spoofDnsIpv4 with
  | none => simp [orErr, Except.map]
  | some addr => simp [orErr, Except.map]

theorem SettingsField.key_mem {f : SettingsField} {fields : List SettingsField} :
    f.key ∈ fields.map key ↔ f ∈ fields :=
  List.mem_map_of_injective fun a b => by cases a <;> cases b <;> decide

theorem ite_eq_iff_of_not {α : Type} {P : Prop} [Decidable P] {a b : α} :
    (a = if P then a else b) ↔ (¬P → a = b) := by
  by_cases h : P
  · simp [h]
  · simp [h]

/-- A whole map does what the edits do if it says nothing new about other fields. -/
theorem SettingsUpdate.putInto_eq_onto {r : SettingsUpdate} {c : Config} {addr : UInt32}
    (haddr : parseIpv4Addr r.settings.spoofDnsIpv4 = some addr) :
    r.settings.putInto addr c = r.onto c ↔ r.Fresh c := by
  have hlan := @SettingsField.key_mem .allowLan r.edited
  have hdns := @SettingsField.key_mem .spoofDns r.edited
  have hip := @SettingsField.key_mem .spoofDnsIpv4 r.edited
  have hdrop := @SettingsField.key_mem .dropEgressWithoutOutput r.edited
  simp only [SettingsField.key] at hlan hdns hip hdrop
  simp only [Gui.Settings.putInto, onto, Gui.Settings.takeOver, haddr, Option.getD_some,
    Config.mk.injEq, true_and, and_true, hlan, hdns, hip, hdrop, ite_eq_iff_of_not]
  constructor
  · rintro ⟨lan, dns, ip, drop⟩
    exact ⟨lan, dns, fun hnot => haddr.trans (congrArg some (ip hnot)), drop⟩
  · rintro ⟨lan, dns, ip, drop⟩
    exact ⟨lan, dns, fun hnot => Option.some.inj (haddr.symm.trans (ip hnot)), drop⟩

section

variable {ι : Type} [DecidableEq ι] {debug : String → String} {s t : SettingsSystem ι} {i : ι}

/-- What the daemon's answer to a request is and what it does. -/
theorem SettingsSystem.step_serve {polkit : Polkit}
    (h : s.step debug (.serve i polkit) = some t) :
    ∃ r sent, (s.apps i).sent = r :: sent ∧
      ((¬(polkit = .ok true ∧ (parseIpv4Addr r.settings.spoofDnsIpv4).isSome) ∧
          t = s.setApp i { s.apps i with sent, inbox := (s.apps i).inbox ++ [.dbusErr] }) ∨
        ∃ addr, polkit = .ok true ∧ parseIpv4Addr r.settings.spoofDnsIpv4 = some addr ∧
          t = { s.setApp i { s.apps i with sent } with
            config := r.settings.putInto addr s.config
            unannounced := s.unannounced + 1
            lastAccepted := r.onto s.lastAccepted }) := by
  unfold step at h
  dsimp only at h
  split at h
  next => cases h
  next r sent hsent =>
    refine ⟨r, sent, hsent, ?_⟩
    split at h
    next err herr =>
      refine .inl ⟨?_, (Option.some.inj h).symm⟩
      rintro ⟨hpolkit, haddr⟩
      obtain ⟨addr, haddr⟩ := Option.isSome_iff_exists.mp haddr
      rw [updateConfig_settings.mpr ⟨hpolkit, addr, haddr, rfl⟩] at herr
      cases herr
    next config hconfig =>
      obtain ⟨hpolkit, addr, haddr, rfl⟩ := updateConfig_settings.mp hconfig
      exact .inr ⟨addr, hpolkit, haddr, (Option.some.inj h).symm⟩

theorem SettingsSystem.step_announce (h : s.step debug .announce = some t) :
    s.unannounced ≠ 0 ∧ t = { s with
      unannounced := s.unannounced - 1
      apps := fun i => { s.apps i with signals := (s.apps i).signals + 1 } } := by
  simp only [step] at h
  split at h
  next => cases h
  next hsome => exact ⟨hsome, (Option.some.inj h).symm⟩

theorem SettingsSystem.step_look (h : s.step debug (.look i) = some t) :
    (s.apps i).signals ≠ 0 ∧ t = s.setApp i { s.apps i with
      signals := (s.apps i).signals - 1
      inbox := (s.apps i).inbox ++ [.settings (.shown s.config)] } := by
  simp only [step, Gui.Settings.fromHashmap_config (List.Perm.refl _)] at h
  split at h
  next => cases h
  next hsome => exact ⟨hsome, (Option.some.inj h).symm⟩

theorem SettingsSystem.step_deliver (h : s.step debug (.deliver i) = some t) :
    ∃ msg inbox, (s.apps i).inbox = msg :: inbox ∧
      t = s.setApp i (({ s.apps i with inbox } : App).receive msg) := by
  simp only [step] at h
  split at h
  next => cases h
  next msg inbox hinbox => exact ⟨msg, inbox, hinbox, (Option.some.inj h).symm⟩

/-- Only an answer changes the configuration. -/
theorem SettingsSystem.step_other {ev : SettingsEvent ι} (h : s.step debug ev = some t)
    (hother : ∀ i polkit, ev ≠ .serve i polkit) :
    t.config = s.config ∧ t.lastAccepted = s.lastAccepted := by
  cases ev with
  | serve i polkit => exact absurd rfl (hother i polkit)
  | user i msg => cases Option.some.inj h; exact ⟨rfl, rfl⟩
  | fail i => cases Option.some.inj h; exact ⟨rfl, rfl⟩
  | announce =>
    obtain ⟨_, rfl⟩ := step_announce h
    exact ⟨rfl, rfl⟩
  | look i =>
    obtain ⟨_, rfl⟩ := step_look h
    exact ⟨rfl, rfl⟩
  | deliver i =>
    obtain ⟨msg, inbox, _, rfl⟩ := step_deliver h
    exact ⟨rfl, rfl⟩

theorem SettingsSystem.HoldsEdits.step_iff {ev : SettingsEvent ι} (holds : s.HoldsEdits)
    (h : s.step debug ev = some t) : t.HoldsEdits ↔ s.FreshWhenServed ev := by
  by_cases hserve : ∃ i polkit, ev = .serve i polkit
  · obtain ⟨i, polkit, rfl⟩ := hserve
    obtain ⟨r, sent, hsent, hrefused | haccepted⟩ := step_serve h
    · obtain ⟨hnot, rfl⟩ := hrefused
      refine iff_of_true holds fun r' hr' hpolkit haddr => absurd ⟨hpolkit, ?_⟩ hnot
      rw [hsent] at hr'
      cases Option.some.inj hr'
      exact haddr
    · obtain ⟨addr, hpolkit, haddr, rfl⟩ := haccepted
      have hlast : s.lastAccepted = s.config := holds.symm
      rw [HoldsEdits, FreshWhenServed, hsent]
      simp only [hlast, SettingsUpdate.putInto_eq_onto haddr, List.head?_cons, Option.mem_some_iff,
        forall_eq', hpolkit, haddr, Option.isSome_some, forall_const]
  · have hother : ∀ i polkit, ev ≠ .serve i polkit := fun i polkit hev => hserve ⟨i, polkit, hev⟩
    obtain ⟨hconfig, hlast⟩ := step_other h hother
    refine iff_of_true ?_ ?_
    · rw [HoldsEdits, hconfig, hlast]
      exact holds
    · cases ev with
      | serve i polkit => exact absurd rfl (hother i polkit)
      | _ => trivial

/-- The runs all whose accepted updates are fresh are those that hold the last accepted
edits in every state. -/
theorem SettingsSystem.freshRun_iff {es : List (SettingsEvent ι)} (start : s.HoldsEdits) :
    Run (step debug) FreshWhenServed s es t ↔
      Run (step debug) (fun s _ => s.HoldsEdits) s es t ∧ t.HoldsEdits :=
  Run.iff_throughout (fun _ _ _ holds taken => holds.step_iff taken) start

end

/-- Both apps show the configuration, and nothing is under way. -/
def SettingsSystem.Started {ι : Type} (s : SettingsSystem ι) : Prop :=
  s.HoldsEdits ∧ s.Delivered ∧ ∀ i, (s.apps i).edited = [] ∧
    (s.apps i).settings = .shown s.config ∧ (s.apps i).settingsOverride = .shown s.config

def startedApp (c : Config) : App where
  settings := .shown c
  settingsOverride := .shown c
  edited := []
  sent := []
  signals := 0
  inbox := []

def startedApps : SettingsSystem Bool where
  config := .default
  apps _ := startedApp .default
  unannounced := 0
  lastAccepted := .default

theorem startedApps_started : startedApps.Started :=
  ⟨rfl, ⟨rfl, fun _ => ⟨rfl, rfl, rfl⟩⟩, fun _ => ⟨rfl, rfl, rfl⟩⟩

/-- The second app's edit is made before it has seen the first one's. -/
def crossedEdits : List (SettingsEvent Bool) :=
  [.user false (.settingsLan false), .user true (.settingsDns true),
    .serve false (.ok true), .announce, .serve true (.ok true), .announce,
    .look false, .look false, .look true, .look true,
    .deliver false, .deliver false, .deliver true, .deliver true]

def crossedEnd : SettingsSystem Bool :=
  (crossedEdits.foldlM (SettingsSystem.step id) startedApps).getD startedApps

theorem freshRun_iff_crossed :
    Run (SettingsSystem.step id) SettingsSystem.FreshWhenServed startedApps crossedEdits
        crossedEnd ↔
      Run (SettingsSystem.step id) (fun s _ => s.HoldsEdits) startedApps crossedEdits
        crossedEnd ∧ crossedEnd.HoldsEdits :=
  SettingsSystem.freshRun_iff startedApps_started.1

/-- The first edit is lost once all is delivered. -/
theorem not_holdsEdits : ¬∀ (s t : SettingsSystem Bool) (es : List (SettingsEvent Bool)),
    s.Started → Run (SettingsSystem.step id) (fun _ _ => True) s es t → t.Delivered →
      t.HoldsEdits := by
  intro holds
  have run : Run (SettingsSystem.step id) (fun _ _ => True) startedApps crossedEdits
      crossedEnd := Run.of_foldlM rfl
  have delivered : crossedEnd.Delivered := ⟨rfl, fun i => by cases i <;> exact ⟨rfl, rfl, rfl⟩⟩
  have hlan : crossedEnd.config.allowLan = crossedEnd.lastAccepted.allowLan :=
    congrArg Config.allowLan (holds _ _ _ startedApps_started run delivered)
  exact absurd hlan (by decide)

end Rebpf
