import Mathlib.Logic.Function.Basic
import Rebpf.GuiMatches
import Rebpf.SettingsMap

namespace Rebpf

open Lib

namespace Gui

/-- The crates that `update` uses: errors of zbus, the text editor of iced and `regex`. -/
structure Toolkit extends RegexCrate where
  Error : Type
  display : Error → String
  Content : Type
  withText : String → Content
  Action : Type
  isEdit : Action → Bool
  perform : Content → Action → Content

/-- The ways `update` can panic. -/
inductive Panic
  | outOfRange
  | unwrapNone
  | noReceiver
  | unreachable
  | overflow
  | procfs
deriving DecidableEq, Repr

abbrev Id := Nat

structure ProcEnt where
  fileName : List UInt8
  /-- Where its link `exe` leads, if it can be read. -/
  exe : Option String

/-- What a turn gets from outside: the entries of /proc (or an error), the ids handed
out, and whether the receivers of the two channels are still there. -/
structure World where
  proc : Option (List (Option ProcEnt))
  unique : Nat → Id
  window : Id
  dRx : Bool
  tRx : Bool

inductive D
  | windowOpened
  | windowClosed
  | enable
  | disable
  | changeOutput (name : String)
  | settingsUpdate (settings : Settings)
  | matchAdd (m : Match)
  | matchDelete (m : Match)
  | matchUpdate (f t : Match)
deriving DecidableEq, Repr

inductive Tray
  | notConnected
  | enabled
  | disabled
deriving DecidableEq, Repr

inductive TrayTheme
  | dark
  | light
deriving DecidableEq, Repr

structure TrayState where
  state : Tray
  theme : TrayTheme
  blocker : String
  outputDev : String
deriving DecidableEq, Repr

structure Attached where
  enabled : Bool
  attached : Bool
  blocker : String
  toIfname : String
  toIfindex : String
  toAddr : String
deriving DecidableEq, Repr

def Attached.default : Attached := ⟨false, false, "", "", "", ""⟩

structure Stats where
  txBytes : UInt64
  rxBytes : UInt64
  dtimeSec : Float

/-- What `update` asks of the runtime. -/
inductive Task
  | none
  | exit
  | close (window : Id)
  | opened (window : Id)
  | unfocus (widget : Id)
  | chain (first second : Task)
deriving DecidableEq, Repr

/-- The messages of the window. -/
inductive M (tk : Toolkit)
  | enable
  | disable
  | exit
  | trayUp
  | windowOpen
  | windowToggle
  | windowCloseId (id : Id)
  | settings (n : Settings)
  | settingsSubmit
  | settingsOpen
  | settingsClose
  | settingsLan (n : Bool)
  | settingsDns (n : Bool)
  | settingsDnsIp (n : String)
  | settingsDnsIpSubmit
  | settingsDropEgressWithoutOutput (n : Bool)
  | matchAdd
  | matchDelete (g i : Nat)
  | matchFromProc (g i : Nat)
  | matchUpdate (g i : Nat) (n : String)
  | matchKind (g i : Nat) (k : String)
  | matchMethod (g i : Nat) (k : String)
  | matchDir
  | matchUpdateDir (g i : Nat)
  | matchSubmit (g i : Nat)
  | procs (n : String)
  | kind (n : String)
  | method (n : String)
  | attached (n : Attached)
  | newMatches (n : List Match)
  | stats (n : Stats)
  | dbusErr (err : tk.Error)
  | dbusFail (err : tk.Error)
  | dbusCantConnect (err : tk.Error)
  | dbusConnected
  | activeProcs (n : List (Nat × List String))
  | matchFocus
  | matchUnfocus
  | procPopupFocus
  | procPopupUnfocus
  | outputDevClick
  | outputDevFocus
  | outputDevUnfocus
  | outputDevPopupFocus
  | outputDevPopupUnfocus
  | outputDevSet (n : String)
  | outputDevSubmit
  | outputDevSetSubmit (n : String)
  | esc
  | modalNext
  | modalReplace
  | modalDismiss
  | statusShow
  | modalEditAction (a : tk.Action)
  | nopString (n : String)
  | nop

/-- The state of the window, less the theme and the default direction, which `update`
does not read. A channel is what has been sent through it. -/
structure State (tk : Toolkit) where
  dTx : Option (List D)
  tTx : Option (List TrayState)
  trayTheme : TrayTheme
  trayUp : Bool
  window : Option Id
  settings : Settings
  settingsOverride : Settings
  showSettings : Bool
  outputDevInputId : Id
  outputDevInputFocus : Bool
  outputDevInput : String
  outputDevInputSent : Bool
  outputDevPopupFocus : Bool
  procInputId : Id
  procInputFocus : Bool
  procInput : String
  procInputSent : Bool
  procPopupFocus : Bool
  procInputDir : String
  procInputKind : String
  procInputMethod : String
  procInputKindAfterRefine : Bool
  procInputMethodAfterRefine : Bool
  attached : Attached
  stats : Stats
  entries : List (Match × Id)
  matchesOverride : Nat → Option Match
  matchesGen : Nat
  procsActive : List (Nat × List String)
  procsAll : Option (List (String × Nat))
  procsAllMax : Nat
  dbusConnErr : Option tk.Error
  dbusErrs : List tk.Error
  modalEditor : Option tk.Content

def kindDefault : String := "basename"

def methodDefault : String := "substring"

def defaultMethodFor : String → String
  | "ipv4" => "full"
  | _ => "substring"

def methodsFor : String → List String
  | "basename" | "path" | "dns" => ["full", "substring", "prefix", "suffix", "regex"]
  | "ipv4" => ["full", "subnet"]
  | _ => []

/-- The state that `main` starts with. -/
def State.started (tk : Toolkit) (trayTheme : TrayTheme) (unique : Nat → Id) : State tk where
  dTx := some []
  tTx := some []
  trayTheme
  trayUp := false
  window := none
  settings := .default
  settingsOverride := .default
  showSettings := false
  outputDevInputId := unique 0
  outputDevInputFocus := false
  outputDevInput := ""
  outputDevInputSent := false
  outputDevPopupFocus := false
  procInputId := unique 1
  procInputFocus := false
  procInput := ""
  procInputSent := false
  procPopupFocus := false
  procInputDir := "redirect"
  procInputKind := kindDefault
  procInputMethod := methodDefault
  procInputKindAfterRefine := false
  procInputMethodAfterRefine := false
  attached := .default
  stats := ⟨0, 0, 0⟩
  entries := []
  matchesOverride _ := none
  matchesGen := 0
  procsActive := []
  procsAll := none
  procsAllMax := 0
  dbusConnErr := none
  dbusErrs := []
  modalEditor := none

/-- One more of a name in the sorted map. -/
def countProc (exe : String) : List (String × Nat) → List (String × Nat)
  | [] => [(exe, 1)]
  | (name, num) :: res =>
    if exe < name then (exe, 1) :: (name, num) :: res
    else if exe = name then (name, num + 1) :: res
    else (name, num) :: countProc exe res

/-- The loop of `procs_all_with` over the entries, the filter with its cache. -/
def sweepProcs {σ : Type} (filter : String → σ → Bool × σ) (maxLen : Nat) :
    List (Option ProcEnt) → σ → List (String × Nat) → Except Panic (List (String × Nat))
  | [], _, res => .ok res
  | ent :: ents, cache, res =>
    if maxLen ≤ res.length then .ok res
    else
      match ent with
      | none => .error .procfs
      | some ent =>
        if ent.fileName.all fun b => 48 ≤ b ∧ b ≤ 57 then
          match ent.exe with
          | none => sweepProcs filter maxLen ents cache res
          | some exe =>
            let (found, cache) := filter exe cache
            sweepProcs filter maxLen ents cache (if found then countProc exe res else res)
        else sweepProcs filter maxLen ents cache res

def procsAllWith {σ : Type} (filter : String → σ → Bool × σ) (cache : σ) (maxLen : Nat)
    (proc : Option (List (Option ProcEnt))) : Except Panic (List (String × Nat)) := do
  sweepProcs filter maxLen (← orErr proc .procfs) cache []

section

variable {tk : Toolkit} (w : World)

def State.sendD (s : State tk) (d : D) : Except Panic (State tk) := do
  let sent ← orErr s.dTx .unwrapNone
  ensure w.dRx .noReceiver
  return { s with dTx := some (sent ++ [d]) }

def State.sendTray (s : State tk) (t : TrayState) : Except Panic (State tk) := do
  let sent ← orErr s.tTx .unwrapNone
  ensure w.tRx .noReceiver
  return { s with tTx := some (sent ++ [t]) }

/-- `matches_gen += 1`. Where overflows are checked it panics on one. -/
def State.bumpGen (s : State tk) : Except Panic (State tk) := do
  ensure (s.matchesGen + 1 < 2 ^ 64) .overflow
  return { s with matchesGen := s.matchesGen + 1 }

def currentMatch (s : State tk) : Match where
  kind := s.procInputKind
  method := s.procInputMethod
  pattern := s.procInput
  direction := s.procInputDir
  user := ""
  uid := ""

def refreshProcsAll (s : State tk) : Except Panic (State tk) := do
  let procs ← procsAllWith ((currentMatch s).matchesPath tk.toRegexCrate) [] 10 w.proc
  return { s with procsAllMax := 10, procsAll := some procs }

def State.row (s : State tk) (i : Nat) : Except Panic (Match × Id) :=
  orErr s.entries[i]? .outOfRange

def State.setOverride (s : State tk) (i : Nat) (m : Option Match) : State tk :=
  { s with matchesOverride := Function.update s.matchesOverride i m }

/-- `matches_override.entry(i)`, filled in from `matches`. -/
def State.overrideEntry (s : State tk) (i : Nat) : Except Panic Match :=
  match s.matchesOverride i with
  | some m => .ok m
  | none => (s.row i).map (·.1)

def State.editRow (s : State tk) (i : Nat) (change : Match → Match) : Except Panic (State tk) := do
  let m ← s.overrideEntry i
  return s.setOverride i (some (change m))

def flipDirection : String → String
  | "redirect" => "bypass"
  | "bypass" => "redirect"
  | _ => "redirect"

/-- How `update` ends: with a state and a task, or with a panic. -/
abbrev Handled (tk : Toolkit) := Except Panic (State tk × Task)

def settingsSubmit (s : State tk) : Handled tk := do
  if s.settings ≠ s.settingsOverride then
    let s ← s.sendD w (.settingsUpdate s.settings)
    return (s, .none)
  else return (s, .none)

/-- An edited row is sent if it differs from the one in `matches`. -/
def State.sendEdited (s : State tk) (i : Nat) : Option Match → Except Panic (State tk)
  | none => .ok s
  | some m => do
    let (old, _) ← s.row i
    if m ≠ old then s.sendD w (.matchUpdate old m) else .ok s

/-- What `MatchSubmit` does with the generation of the list. -/
def matchSubmit (s : State tk) (i : Nat) : Handled tk := do
  let s ← (s.setOverride i none).sendEdited w i (s.matchesOverride i)
  let (_, id) ← s.row i
  return (s, .unfocus id)

/-- The input filled with the last component of a process that was picked. -/
def State.picked (s : State tk) (m : String) : State tk :=
  { s with
    procInputKind := kindDefault
    procInputMethod := (methodsFor kindDefault).head?.getD ""
    procInput := String.ofList (((rsplitOnce '/' m.toList).map (·.2)).getD m.toList)
    procInputKindAfterRefine := true
    procInputMethodAfterRefine := true }

def matchFromProc (s : State tk) (i : Nat) : Handled tk := do
  let procs ← orErr s.procsAll .unwrapNone
  let (m, _) ← orErr procs[i]? .unwrapNone
  let s ← refreshProcsAll w (s.picked m)
  return ({ s with procPopupFocus := false, procInputFocus := false }, .none)

/-- What `Procs` does before it looks for processes. -/
def State.typed (s : State tk) (n : String) : State tk :=
  { s with
    procInputSent := false
    procInput := n
    procsAll := none
    procInputKind := if s.procInputKindAfterRefine then kindDefault else s.procInputKind
    procInputKindAfterRefine := false
    procInputMethod :=
      if s.procInputMethodAfterRefine then (methodsFor kindDefault).head?.getD ""
      else s.procInputMethod
    procInputMethodAfterRefine := false }

def procs (s : State tk) (n : String) : Handled tk := do
  let s := s.typed n
  if n ≠ "" then
    let s ← refreshProcsAll w s
    return (s, .none)
  else return (s, .none)

def outputDevSet (s : State tk) (n : String) : State tk :=
  { s with outputDevInputSent := s.attached.toIfname == n, outputDevInput := n }

def outputDevSubmit (s : State tk) : Handled tk := do
  let s := { s with outputDevInputFocus := false, outputDevPopupFocus := false }
  if !s.outputDevInputSent && s.outputDevInput ≠ s.attached.toIfname then
    let s ← State.sendD w { s with outputDevInputSent := true } (.changeOutput s.outputDevInput)
    return (s, .unfocus s.outputDevInputId)
  else return (s, .unfocus s.outputDevInputId)

def modalReplace (s : State tk) : State tk :=
  { s with modalEditor := s.dbusErrs.head?.map fun err => tk.withText (tk.display err) }

def modalNext (s : State tk) : State tk :=
  modalReplace { s with dbusErrs := s.dbusErrs.tail }

def dbusErr (s : State tk) (err : tk.Error) : State tk :=
  let s := { s with
    settingsOverride := s.settings
    outputDevInput := s.attached.toIfname
    outputDevInputSent := true
    matchesOverride := fun _ => none
    dbusErrs := s.dbusErrs ++ [err] }
  if s.modalEditor.isNone then modalReplace s else s

def dbusCantConnect (s : State tk) (err : tk.Error) : Handled tk := do
  let s ← State.bumpGen { s with
    attached := .default
    entries := []
    matchesOverride := fun _ => none }
  let s := { s with dbusConnErr := some err }
  let s ← s.sendTray w {
    state := .notConnected
    theme := s.trayTheme
    outputDev := s.attached.toIfname
    blocker := s.attached.blocker }
  return (s, .none)

/-- The tray's state for what is attached. -/
def Attached.tray (n : Attached) : Tray :=
  if !n.attached || n.blocker ≠ "" then .notConnected
  else if n.enabled then .enabled
  else .disabled

def update (s : State tk) : M tk → Handled tk
  | .exit => return (s, .exit)
  | .trayUp => return ({ s with trayUp := true }, .none)
  | .windowToggle =>
    match s.window with
    | some id => closeWindow s id
    | none => openWindow s
  | .windowCloseId _ =>
    match s.window with
    | some id => closeWindow s id
    | none => return (s, .none)
  | .windowOpen =>
    match s.window with
    | some _ => return (s, .none)
    | none => openWindow s
  | .settingsOpen => return ({ s with showSettings := true }, .none)
  | .settingsClose => settingsSubmit w { s with showSettings := false }
  | .settingsLan n => settingsSubmit w { s with settings := { s.settings with allowLan := n } }
  | .settingsDns n => settingsSubmit w { s with settings := { s.settings with spoofDns := n } }
  | .settingsDnsIp n =>
    return ({ s with settings := { s.settings with spoofDnsIpv4 := n } }, .none)
  | .settingsDnsIpSubmit => settingsSubmit w s
  | .settingsDropEgressWithoutOutput n =>
    settingsSubmit w { s with settings := { s.settings with dropEgressWithoutOutput := n } }
  | .settingsSubmit => settingsSubmit w s
  | .settings n => return ({ s with settingsOverride := n, settings := n }, .none)
  | .matchAdd => do
    let s ← s.sendD w (.matchAdd (currentMatch s))
    return ({ s with procInputSent := true }, .unfocus s.procInputId)
  | .matchDelete g i =>
    if g = s.matchesGen then do
      let (m, _) ← s.row i
      let s ← s.sendD w (.matchDelete m)
      return (s, .none)
    else return (s, .none)
  | .matchKind g i k => editAndSubmit s g i ({ · with kind := k })
  | .matchMethod g i k => editAndSubmit s g i ({ · with method := k })
  | .enable => do
    let s ← s.sendD w .enable
    return (s, .none)
  | .disable => do
    let s ← s.sendD w .disable
    return (s, .none)
  | .matchUpdate g i n =>
    if g = s.matchesGen then do
      let s ← s.editRow i ({ · with pattern := n })
      return (s, .none)
    else return (s, .none)
  | .matchDir =>
    match s.procInputDir with
    | "redirect" => return ({ s with procInputDir := "bypass" }, .none)
    | "bypass" => return ({ s with procInputDir := "redirect" }, .none)
    | _ => .error .unreachable
  | .matchUpdateDir g i =>
    editAndSubmit s g i fun m => { m with direction := flipDirection m.direction }
  | .matchFromProc g i => if g = s.matchesGen then matchFromProc w s i else return (s, .none)
  | .matchSubmit g i => if g = s.matchesGen then matchSubmit w s i else return (s, .none)
  | .procs n => procs w s n
  | .outputDevClick => return ({ s with outputDevInputFocus := true }, .none)
  | .outputDevFocus =>
    return ({ s with
      outputDevInputFocus := s.outputDevInputFocus || s.outputDevPopupFocus }, .none)
  | .outputDevUnfocus =>
    if s.outputDevPopupFocus then return ({ s with outputDevInputFocus := false }, .none)
    else outputDevSubmit w s
  | .outputDevPopupFocus => return ({ s with outputDevPopupFocus := true }, .none)
  | .outputDevPopupUnfocus =>
    if s.outputDevInputFocus then return ({ s with outputDevPopupFocus := false }, .none)
    else outputDevSubmit w s
  | .outputDevSetSubmit n => do
    let (s, task) ← outputDevSubmit w (outputDevSet s n)
    return (s, .chain (.chain .none .none) task)
  | .outputDevSet n => return (outputDevSet s n, .none)
  | .outputDevSubmit => outputDevSubmit w s
  | .attached n => do
    let s ← State.sendTray w { s with
        attached := n
        outputDevInput := n.toIfname
        outputDevInputSent := true } {
      state := n.tray
      theme := s.trayTheme
      blocker := n.blocker
      outputDev := n.toIfname }
    return (s, .none)
  | .stats n => return ({ s with stats := n }, .none)
  | .newMatches n => do
    let found := s.procInputSent && n.any (·.pattern == s.procInput)
    let s ← State.bumpGen { s with
      procInputSent := s.procInputSent && !found
      procInput := if found then "" else s.procInput
      matchesOverride := fun _ => none
      entries := n.mapIdx fun k m => (m, w.unique k) }
    return (s, .none)
  | .activeProcs n => do
    let s ← State.bumpGen { s with procsActive := n }
    return (s, .none)
  | .kind n =>
    let moved := methodsFor s.procInputKind ≠ methodsFor n
    return ({ s with
      procInputMethod := if moved then defaultMethodFor n else s.procInputMethod
      procInputMethodAfterRefine := if moved then false else s.procInputMethodAfterRefine
      procInputKind := n
      procInputKindAfterRefine := false }, .none)
  | .method n =>
    return ({ s with procInputMethod := n, procInputMethodAfterRefine := false }, .none)
  | .procPopupFocus => return ({ s with procPopupFocus := true }, .none)
  | .procPopupUnfocus => return ({ s with procPopupFocus := false }, .none)
  | .matchUnfocus => return ({ s with procInputFocus := false }, .unfocus s.procInputId)
  | .matchFocus => return ({ s with procInputFocus := true }, .none)
  | .dbusConnected => return ({ s with dbusConnErr := none }, .none)
  | .dbusFail err => do
    let (s, task) ← dbusCantConnect w (dbusErr s err) err
    return (s, .chain .none task)
  | .dbusErr err => return (dbusErr s err, .none)
  | .dbusCantConnect err => dbusCantConnect w s err
  | .esc =>
    if s.dbusErrs ≠ [] then return (modalNext s, .none)
    else if s.showSettings then return ({ s with showSettings := false }, .none)
    else if (s.procInputFocus || s.procPopupFocus) && s.procInput ≠ "" then
      return ({ s with procInputFocus := false, procPopupFocus := false }, .none)
    else return (s, .none)
  | .modalNext => return (modalNext s, .none)
  | .modalReplace => return (modalReplace s, .none)
  | .statusShow =>
    match s.dbusConnErr with
    | some err => return (dbusErr s err, .none)
    | none => return (s, .none)
  | .modalEditAction a =>
    return ({ s with
      modalEditor := if tk.isEdit a then s.modalEditor
        else s.modalEditor.map (tk.perform · a) }, .none)
  | .modalDismiss => return (s, .none)
  | .nopString _ => return (s, .none)
  | .nop => return (s, .none)
where
  closeWindow (s : State tk) (id : Id) : Handled tk := do
    let s ← s.sendD w .windowClosed
    return ({ s with window := none }, if s.trayUp then .close id else .exit)
  openWindow (s : State tk) : Handled tk := do
    let s ← s.sendD w .windowOpened
    return ({ s with window := some w.window }, .opened w.window)
  editAndSubmit (s : State tk) (g i : Nat) (change : Match → Match) : Handled tk :=
    if g = s.matchesGen then do
      let s ← s.editRow i change
      matchSubmit w s i
    else return (s, .none)

end

end Gui

end Rebpf
