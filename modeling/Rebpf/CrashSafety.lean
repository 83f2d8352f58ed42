import Mathlib.Logic.Equiv.List
import Mathlib.Tactic.DeriveCountable
import Rebpf.Lib.Run
import Rebpf.StateFile

namespace Rebpf

open Lib

structure Machine where
  files : Slots
  saver : Option Saver
  /-- The state of the last completed save; one that went down with its bytes in
  place counts as completed. -/
  saved : Option State
  /-- The state of the save the last crash cut off. -/
  inProgress : Option State

def Machine.init : Machine := ⟨fun _ => [], none, none, none⟩

inductive StateEvent
  | start
  | save (conf : State)
  | crash
  /-- A crash while `conf` is saved, `k` bytes of it written and nothing truncated. -/
  | crashIn (conf : State) (k : Nat)

def Machine.step (json : StateJson) (m : Machine) : StateEvent → Option Machine
  | .start =>
    match m.saver, loadState json m.files with
    | some _, _ => none
    | none, .ok l => some { m with saver := some l.saver }
    | none, .error _ => some m
  | .save conf => do
    let saver ← m.saver
    let (files, next) := saveState json m.files saver conf
    return ⟨files, some next, some (saver.stamp conf), none⟩
  | .crash => some { m with saver := none, inProgress := none }
  | .crashIn conf k => do
    let saver ← m.saver
    let torn := tornSlot json m.files saver conf k
    let files := Function.update m.files saver.lastI torn
    if json.read torn = some (saver.stamp conf) then
      return ⟨files, none, some (saver.stamp conf), none⟩
    else
      return ⟨files, none, m.saved, some (saver.stamp conf)⟩

/-- The next start finds the last completed save or the one that was cut off. -/
def Machine.Recovers (json : StateJson) (m : Machine) : Prop :=
  ∃ l, loadState json m.files = .ok l ∧
    ((∃ s, (m.saved = some s ∨ m.inProgress = some s) ∧ l.state = s.refreshed) ∨
      (m.saved = none ∧ l.state = .default))

/-- The generation does not wrap, and a torn slot is text that reads as before,
or as the state being written, or does not hold the last completed save and
reads as nothing at least as new. -/
def Machine.Harmless (json : StateJson) (m : Machine) : StateEvent → Prop
  | .start | .crash => True
  | .save _ => ∀ saver, m.saver = some saver → saver.generation.toNat + 1 < 2 ^ 64
  | .crashIn conf k => ∀ saver, m.saver = some saver →
    let torn := tornSlot json m.files saver conf k
    saver.generation.toNat + 1 < 2 ^ 64 ∧ (readToString torn).isSome ∧
      (json.read torn = json.read (m.files saver.lastI) ∨
        json.read torn = some (saver.stamp conf) ∨
        (json.read (m.files saver.other) = m.saved ∧
          ∀ s, json.read torn = some s → ∃ a, m.saved = some a ∧ s.generation < a.generation))

structure Machine.Inv (json : StateJson) (m : Machine) : Prop where
  readable : ∀ i, (readToString (m.files i)).isSome
  newest : Newest json m.files m.saved
  generation : ∀ saver, m.saver = some saver → saver.generation = (found m.saved).generation

theorem Machine.inv_init {json : StateJson} (lawful : json.Lawful) : Machine.init.Inv json where
  readable _ := by rw [show Machine.init.files _ = textBytes "" from rfl, readToString_textBytes]; rfl
  newest i := by
    rw [show Machine.init.files i = textBytes "" from rfl, StateJson.read, readToString_textBytes]
    exact lawful.fromStr_empty
  generation _ h := by cases h

theorem Machine.Inv.recovers {json : StateJson} {m : Machine} (h : m.Inv json) :
    m.Recovers json := by
  obtain ⟨l, hl, hstate, _⟩ := loadState_newest h.readable h.newest
  refine ⟨l, hl, ?_⟩
  cases hsaved : m.saved with
  | none =>
    rw [hsaved] at hstate
    exact Or.inr ⟨rfl, hstate⟩
  | some a =>
    rw [hsaved] at hstate
    exact Or.inl ⟨a, Or.inl rfl, hstate⟩

theorem Machine.Inv.stamp_newer {json : StateJson} {m : Machine} {saver : Saver} (h : m.Inv json)
    (running : m.saver = some saver) (fits : saver.generation.toNat + 1 < 2 ^ 64) (conf : State) :
    ∀ a, m.saved = some a → a.generation < (saver.stamp conf).generation := by
  intro a ha
  have hgen : saver.generation = a.generation := by
    rw [h.generation saver running, ha]
    rfl
  rw [← hgen, UInt64.lt_iff_toNat_lt]
  show _ < (saver.generation + 1).toNat
  rw [UInt64.toNat_add, UInt64.toNat_one]
  omega

theorem Machine.inv_step {json : StateJson} {m m' : Machine} {event : StateEvent}
    (lawful : json.Lawful) (h : m.Inv json) (ok : m.Harmless json event)
    (step : m.step json event = some m') : m'.Inv json := by
  cases event with
  | start =>
    obtain ⟨l, hl, hstate, _⟩ := loadState_newest h.readable h.newest
    cases hsaver : m.saver with
    | some _ => simp only [Machine.step, hsaver, reduceCtorEq] at step
    | none =>
      simp only [Machine.step, hsaver, hl, Option.some.injEq] at step
      subst step
      refine ⟨h.readable, h.newest, fun saver running => ?_⟩
      cases Option.some.inj running
      exact congrArg State.generation hstate
  | crash =>
    cases Option.some.inj step
    exact ⟨h.readable, h.newest, fun _ running => by cases running⟩
  | save conf =>
    obtain ⟨saver, running, step⟩ := Option.bind_eq_some_iff.mp step
    cases Option.some.inj step
    have hread : json.read (textBytes (json.toVec (saver.stamp conf))) =
        some (saver.stamp conf) := by
      rw [StateJson.read, readToString_textBytes]
      exact lawful.fromStr_toVec _
    refine ⟨?_, ?_, fun next hnext => ?_⟩
    · simp only [overwrite_truncated]
      exact readable_update h.readable (by rw [readToString_textBytes]; rfl)
    · simp only [overwrite_truncated]
      exact h.newest.write (h.stamp_newer running (ok saver running) conf) hread
    · cases Option.some.inj hnext
      rfl
  | crashIn conf k =>
    obtain ⟨saver, running, step⟩ := Option.bind_eq_some_iff.mp step
    obtain ⟨fits, htext, hcases⟩ := ok saver running
    have hreadable := readable_update (i := saver.lastI) h.readable htext
    dsimp only at step
    split at step
    next hdone =>
      cases Option.some.inj step
      exact ⟨hreadable, h.newest.write (h.stamp_newer running fits conf) hdone,
        fun _ running => by cases running⟩
    next hcut =>
      cases Option.some.inj step
      refine ⟨hreadable, ?_, fun _ running => by cases running⟩
      rcases hcases with hsame | hdone | ⟨hother, holder⟩
      · exact h.newest.keep hsame
      · exact absurd hdone hcut
      · exact Newest.spoil hother holder

/-- As long as every crash within a save is harmless, the next start finds the
last completed save or the one that was cut off. -/
theorem Machine.run_recovers {json : StateJson} (lawful : json.Lawful) {events : List StateEvent}
    {m : Machine} (run : Run (Machine.step json) (Machine.Harmless json) Machine.init events m) :
    m.Recovers json :=
  (run.invariant (I := Machine.Inv json) (fun _ _ _ => Machine.inv_step lawful)
    (Machine.inv_init lawful)).recovers

theorem step_start {json : StateJson} {m : Machine} {l : Loaded} (down : m.saver = none)
    (hload : loadState json m.files = .ok l) :
    m.step json .start = some { m with saver := some l.saver } := by
  simp only [Machine.step, down, hload]

/-- A daemon that has just started writes its first save over the last one. -/
theorem Machine.Inv.start_overwrites {json : StateJson} {m m' : Machine} {saver : Saver}
    (h : m.Inv json) (down : m.saver = none) (step : m.step json .start = some m')
    (running : m'.saver = some saver) : json.read (m'.files saver.lastI) = m'.saved := by
  obtain ⟨l, hl, _, hnewest⟩ := loadState_newest h.readable h.newest
  rw [step_start down hl] at step
  cases Option.some.inj step
  cases Option.some.inj running
  exact hnewest

instance countableUInt32 : Countable UInt32 :=
  Function.Injective.countable (f := UInt32.toNat) fun _ _ => UInt32.toNat_inj.mp
instance countableUInt64 : Countable UInt64 :=
  Function.Injective.countable (f := UInt64.toNat) fun _ _ => UInt64.toNat_inj.mp
instance countableInt32 : Countable Int32 :=
  Function.Injective.countable (f := Int32.toInt) fun _ _ => Int32.toInt_inj.mp
instance countableChar : Countable Char :=
  Function.Injective.countable (f := Char.toNat) fun _ _ => Char.toNat_inj.mp
instance countableString : Countable String :=
  Function.Injective.countable (f := String.toList) fun _ _ => String.toList_inj.mp

deriving instance Countable for Kind, Method, Direction, Match, Matches, Config, State

def defaultJson (enable generation : String) : String :=
  "\x7b" ++ ("\"enable\":" ++ enable ++ ",\"to_dev\":\"\",\"config\":\x7b" ++
    "\"probe_ipv4_addr\":\"1.2.3.4\",\"allow_lan\":true,\"spoof_dns\":false," ++
    "\"spoof_dns_ipv4\":\"8.8.8.8\",\"drop_egress_without_output\":false," ++
    "\"dns_max_ttl_sec\":3600\x7d,\"matches\":\x7b\"matches\":[],\"generation\":0," ++
    "\"dns_count\":0\x7d,\"generation\":" ++ generation ++ "\x7d")

def enabledState : State := { State.default with enable := true, generation := 1 }

def disabledState : State := { State.default with generation := 2 }

/-- Some texts, no two states with the same one, that no JSON value starts like. -/
noncomputable def otherText (s : State) : String :=
  String.ofList (List.replicate (Classical.choose (Countable.exists_injective_nat State) s + 1) 'x')

theorem otherText_injective : Function.Injective otherText := by
  intro s t h
  have hlist := String.ofList_injective h
  have hlength := congrArg List.length hlist
  rw [List.length_replicate, List.length_replicate] at hlength
  exact Classical.choose_spec (Countable.exists_injective_nat State) (by omega)

theorem otherText_ne (s : State) (text : String) : otherText s ≠ "\x7b" ++ text := by
  intro h
  have hhead := congrArg (fun t => t.toList.head?) h
  rw [String.toList_append] at hhead
  simp [otherText, List.replicate_succ] at hhead

noncomputable def sampleToVec (s : State) : String :=
  if s = enabledState then defaultJson "true" "1"
  else if s = disabledState then defaultJson "false" "2"
  else otherText s

theorem otherText_ne_defaultJson (s : State) (enable generation : String) :
    otherText s ≠ defaultJson enable generation :=
  otherText_ne s _

open Classical in
noncomputable def sampleFromStr (text : String) : Option State :=
  if text = defaultJson "true" "1" then some enabledState
  else if text = defaultJson "false" "2" then some disabledState
  else if h : ∃ s, otherText s = text then some h.choose
  else none

noncomputable def sampleJson : StateJson := ⟨sampleToVec, sampleFromStr⟩

set_option maxRecDepth 8000 in
theorem defaultJson_ne : defaultJson "false" "2" ≠ defaultJson "true" "1" := by decide +kernel

theorem sampleFromStr_otherText (s : State) : sampleFromStr (otherText s) = some s := by
  have h : ∃ t, otherText t = otherText s := ⟨s, rfl⟩
  rw [sampleFromStr, if_neg (otherText_ne_defaultJson s _ _),
    if_neg (otherText_ne_defaultJson s _ _), dif_pos h]
  exact congrArg some (otherText_injective h.choose_spec)

theorem sampleFromStr_none {text : String} (hother : ∀ s, otherText s ≠ text)
    (henabled : text ≠ defaultJson "true" "1") (hdisabled : text ≠ defaultJson "false" "2") :
    sampleFromStr text = none := by
  have h : ¬∃ s, otherText s = text := fun ⟨s, hs⟩ => hother s hs
  rw [sampleFromStr, if_neg henabled, if_neg hdisabled, dif_neg h]

theorem sampleFromStr_torn : sampleFromStr ("\x7b" ++ "\"enable\":f") = none :=
  sampleFromStr_none (fun s => otherText_ne s _) (by decide +kernel) (by decide +kernel)

theorem sampleFromStr_overwritten : sampleFromStr (defaultJson "frue" "1") = none :=
  sampleFromStr_none (fun s => otherText_ne_defaultJson s _ _) (by decide +kernel)
    (by decide +kernel)

theorem sampleJson_lawful : sampleJson.Lawful where
  fromStr_toVec s := by
    show sampleFromStr (sampleToVec s) = some s
    by_cases henabled : s = enabledState
    · rw [sampleToVec, if_pos henabled, sampleFromStr, if_pos rfl, henabled]
    · by_cases hdisabled : s = disabledState
      · rw [sampleToVec, if_neg henabled, if_pos hdisabled, sampleFromStr, if_neg defaultJson_ne,
          if_pos rfl, hdisabled]
      · rw [sampleToVec, if_neg henabled, if_neg hdisabled]
        exact sampleFromStr_otherText s
  fromStr_empty := by
    have hother : ¬∃ s, otherText s = "" := by
      rintro ⟨s, hs⟩
      have hlength := congrArg (fun t => t.toList.length) hs
      simp [otherText] at hlength
    show sampleFromStr "" = none
    rw [sampleFromStr, if_neg (by decide), if_neg (by decide), dif_neg hother]

def startedMachine : Machine := ⟨fun _ => [], some Loaded.first.saver, none, none⟩

noncomputable def savedMachine : Machine :=
  ⟨Function.update (fun _ => []) Loaded.first.lastI (textBytes (defaultJson "true" "1")),
    some ⟨1, Loaded.first.saver.other⟩, some enabledState, none⟩

theorem step_crashIn {json : StateJson} {m : Machine} {saver : Saver} (conf : State) (k : Nat)
    (running : m.saver = some saver)
    (hcut : json.read (tornSlot json m.files saver conf k) ≠ some (saver.stamp conf)) :
    m.step json (.crashIn conf k) =
      some ⟨Function.update m.files saver.lastI (tornSlot json m.files saver conf k), none,
        m.saved, some (saver.stamp conf)⟩ := by
  simp only [Machine.step, running, Option.bind_eq_bind, Option.bind_some, if_neg hcut]
  rfl

theorem readable_textBytes (s : String) : (readToString (textBytes s)).isSome := by
  rw [readToString_textBytes]
  rfl

theorem read_textBytes (json : StateJson) (s : String) :
    json.read (textBytes s) = json.fromStr s := by
  rw [StateJson.read, readToString_textBytes]
  rfl

theorem init_step : Machine.init.step sampleJson .start = some startedMachine := by
  have inv := Machine.inv_init sampleJson_lawful
  have hload := loadState_readable sampleJson inv.readable
  rw [inv.newest 0, inv.newest 1] at hload
  exact step_start rfl hload

theorem enabledState_toVec : sampleJson.toVec enabledState = defaultJson "true" "1" := by
  show sampleToVec enabledState = _
  rw [sampleToVec, if_pos rfl]

theorem disabledState_toVec : sampleJson.toVec disabledState = defaultJson "false" "2" := by
  show sampleToVec disabledState = _
  rw [sampleToVec, if_neg (by decide), if_pos rfl]

theorem started_step : startedMachine.step sampleJson (.save enabledState) = some savedMachine := by
  have hstamp : Loaded.first.saver.stamp enabledState = enabledState := rfl
  have hslots : saveState sampleJson startedMachine.files Loaded.first.saver enabledState =
      (savedMachine.files, ⟨1, Loaded.first.saver.other⟩) := by
    rw [saveState, hstamp, enabledState_toVec]
    simp only [overwrite_truncated]
    rfl
  simp only [Machine.step, startedMachine, Option.bind_eq_bind, Option.bind_some] at hslots ⊢
  rw [hslots, hstamp]
  rfl

theorem stamp_disabledState (i : Fin 2) :
    (Saver.mk 1 i).stamp disabledState = disabledState := rfl

theorem savedMachine_saved :
    sampleJson.read (savedMachine.files 0) = savedMachine.saved := by
  show sampleJson.read (textBytes (defaultJson "true" "1")) = some enabledState
  rw [read_textBytes, ← enabledState_toVec]
  exact sampleJson_lawful.fromStr_toVec _

set_option maxRecDepth 8000 in
theorem Machine.run_recovers_secondSave :
    ∃ m, Run (Machine.step sampleJson) (Machine.Harmless sampleJson) Machine.init
        [.start, .save enabledState, .crashIn disabledState 11] m ∧ m.Recovers sampleJson := by
  have htorn :
      tornSlot sampleJson savedMachine.files ⟨1, Loaded.first.saver.other⟩ disabledState 11 =
        textBytes ("\x7b" ++ "\"enable\":f") := by
    rw [tornSlot, stamp_disabledState, disabledState_toVec]
    decide +kernel
  have hread : sampleJson.read
      (tornSlot sampleJson savedMachine.files ⟨1, Loaded.first.saver.other⟩ disabledState 11) =
        none := by
    rw [htorn, read_textBytes]
    exact sampleFromStr_torn
  have harmless : savedMachine.Harmless sampleJson (.crashIn disabledState 11) := by
    intro saver running
    cases Option.some.inj running
    refine ⟨by decide, ?_, Or.inr (Or.inr ⟨savedMachine_saved, fun s hs => ?_⟩)⟩
    · rw [htorn]
      exact readable_textBytes _
    · rw [hread] at hs
      cases hs
  have first : startedMachine.Harmless sampleJson (.save enabledState) := by
    intro saver running
    cases Option.some.inj running
    decide
  have crash := step_crashIn (m := savedMachine) disabledState 11 rfl
    (hread ▸ (Option.some_ne_none _).symm)
  have run : Run (Machine.step sampleJson) (Machine.Harmless sampleJson) Machine.init
      [.start, .save enabledState, .crashIn disabledState 11] _ :=
    .cons trivial init_step (.cons first started_step (.single harmless crash))
  exact ⟨_, run, Machine.run_recovers sampleJson_lawful run⟩

set_option maxRecDepth 8000 in
/-- After a restart the next save goes to the slot of the last one: a crash
eleven bytes into it leaves nothing to start from. -/
theorem Machine.run_not_recovers :
    ¬∀ {json : StateJson}, json.Lawful → ∀ {events : List StateEvent} {m : Machine},
      Run (Machine.step json) (fun _ _ => True) Machine.init events m → m.Recovers json := by
  intro h
  have htorn : tornSlot sampleJson savedMachine.files ⟨1, 0⟩ disabledState 11 =
      textBytes (defaultJson "frue" "1") := by
    rw [tornSlot, stamp_disabledState, disabledState_toVec]
    decide +kernel
  have hread : sampleJson.read (tornSlot sampleJson savedMachine.files ⟨1, 0⟩ disabledState 11) =
      none := by
    rw [htorn, read_textBytes]
    exact sampleFromStr_overwritten
  have hempty : sampleJson.read [] = none := (Machine.inv_init sampleJson_lawful).newest 0
  have readable : ∀ i, (readToString (savedMachine.files i)).isSome :=
    readable_update (Machine.inv_init sampleJson_lawful).readable (readable_textBytes _)
  have hload := loadState_readable sampleJson readable
  rw [savedMachine_saved, show sampleJson.read (savedMachine.files 1) = none from hempty] at hload
  let down : Machine := { savedMachine with saver := none }
  let up : Machine := { savedMachine with saver := some ⟨1, 0⟩ }
  have restart : down.step sampleJson .start = some up := by
    rw [step_start (m := down) rfl hload]
    rfl
  have crash := step_crashIn (m := up) disabledState 11 rfl
    (hread ▸ (Option.some_ne_none _).symm)
  have run : Run (Machine.step sampleJson) (fun _ _ => True) Machine.init
      [.start, .save enabledState, .crash, .start, .crashIn disabledState 11] _ :=
    .cons trivial init_step (.cons trivial started_step (.cons trivial rfl
      (.cons trivial restart (.single trivial crash))))
  obtain ⟨l, hl, hstate⟩ := h sampleJson_lawful run
  have hslots : ∀ i, sampleJson.read (Function.update savedMachine.files 0
      (tornSlot sampleJson savedMachine.files ⟨1, 0⟩ disabledState 11) i) = none := by
    intro i
    rcases slot_cases 0 i with rfl | rfl
    · exact hread
    · exact hempty
  have htext := readable_update (i := 0) readable (htorn ▸ readable_textBytes _)
  have hdefault := loadState_readable sampleJson htext
  rw [hslots, hslots] at hdefault
  cases hl.symm.trans hdefault
  rcases hstate with ⟨s, hs | hs, heq⟩ | ⟨hnone, _⟩
  · cases Option.some.inj hs
    exact absurd (congrArg State.enable heq) (by decide)
  · cases Option.some.inj hs
    exact absurd (congrArg State.generation heq) (by decide)
  · cases hnone

end Rebpf
