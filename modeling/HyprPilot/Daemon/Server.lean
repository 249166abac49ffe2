import HyprPilot.Core.SnapshotStore
import HyprPilot.Daemon.Binds
import HyprPilot.Daemon.Cache
import HyprPilot.Daemon.Protocol
import HyprPilot.Daemon.Undo

/-!
# The daemon's request handlers

Each request is served by a program over the daemon's effects: the control socket and the cache,
the undo stack under its lock, the file system, the input backends and the accessibility bus.
-/

namespace HyprPilot
open Interact

namespace Daemon

inductive InputCmd where
  | typeText (text : String)
  | pressKeys (combo : KeyCombo)
  | mouseMove (x y : Int) (absolute : Bool)
  | mouseClick (button : MouseButton)

inductive Cmd (κ : Type) where
  | cache (c : StateCache.Cmd)
  | fs (c : Fs.Cmd κ)
  | nowUnix
  /-- The content of `/proc/<pid>/cmdline`. -/
  | procCmdline (pid : Int)
  | undoPush (description : String) (inverse : InverseAction)
  | undoPop
  | undoEntries
  | rulesLoad
  | rulesCompile (config : RuleConfig)
  | input (c : InputCmd)
  | a11yConnect
  | a11yDrop
  | a11ySnapshotApp (pid : Int) (opts : WalkOpts)
  | a11yFind (pid : Int) (query : String) (role : Option String) (opts : WalkOpts)
  | notifyShutdown

@[reducible] def Ans {κ : Type} : Cmd κ → Type
  | .cache c => StateCache.Ans c
  | .fs c => Fs.Ans c
  | .nowUnix => Int
  | .procCmdline _ => Option (List UInt8)
  | .undoPush _ _ => Unit
  | .undoPop => Option UndoEntry
  | .undoEntries => List UndoEntry
  | .rulesLoad => Except String (Option RuleConfig)
  | .rulesCompile _ => Except String Nat
  | .input _ => Except InputError Unit
  | .a11yConnect => Except A11yError Unit
  | .a11yDrop => Unit
  | .a11ySnapshotApp _ _ => Except A11yError (List Element)
  | .a11yFind _ _ _ _ => Except A11yError (List Element)
  | .notifyShutdown => Unit

structure State (κ : Type) where
  store : SnapshotStore κ
  rulesPath : String
  /-- `HYPRPILOT_DANGEROUS_INPUT_OK=1` was set at startup. -/
  inputEnabled : Bool

abbrev Handler (κ α : Type) := Prog (Cmd κ) Ans α

variable {κ : Type}

section Effects

variable {α : Type}

def cached (p : StateCache.Call α) : Handler κ α := p.relabel .cache fun _ x => x

def hypr (p : Connection.Call α) : Handler κ α :=
  p.relabel (fun c => .cache (.hypr c)) fun _ x => x

def files (p : Fs.Call κ α) : Handler κ α := p.relabel .fs fun _ x => x

abbrev query (q : Query) : Handler κ (CoreResult q.Reply) := .call (Cmd.cache (.hypr (.query q)))

abbrev dispatch (d : Dispatcher) : Handler κ (CoreResult Unit) :=
  .call (Cmd.cache (.hypr (.dispatch d)))

abbrev procCmdline (pid : Int) : Handler κ (Option (List UInt8)) := .call (Cmd.procCmdline pid)

abbrev undoPush (description : String) (inverse : InverseAction) : Handler κ Unit :=
  .call (Cmd.undoPush description inverse)

abbrev undoPop : Handler κ (Option UndoEntry) := .call Cmd.undoPop

abbrev undoEntries : Handler κ (List UndoEntry) := .call Cmd.undoEntries

abbrev nowUnix : Handler κ Int := .call Cmd.nowUnix

abbrev rulesLoad : Handler κ (Except String (Option RuleConfig)) := .call Cmd.rulesLoad

abbrev input (c : InputCmd) : Handler κ (Except InputError Unit) := .call (Cmd.input c)

abbrev a11yConnect : Handler κ (Except A11yError Unit) := .call Cmd.a11yConnect

end Effects

/-! ### Recorded mutations -/

def killActiveRecorded : Handler κ Response := do
  match ← query .activeWindow with
  | .error e => return .ofCoreError e
  | .ok none => return .err Codes.hyprlandRejected "no active window to kill"
  | .ok (some active) =>
    let inverse := readProcCmdline (← procCmdline active.pid)
    match ← dispatch .killActive with
    | .error e => return .ofCoreError e
    | .ok () =>
      match inverse with
      | some command =>
        undoPush ("kill " ++ active.className ++ " (" ++ active.title ++ ")") (.spawn command)
        return .ok (.killed active.address)
      | none => return .ok (.killed active.address)

def normalizeAddr (s : String) : String := (Text.stripPrefix "0x" s).getD s

/-- `active` is left to Hyprland. -/
def selectorMatches (sel : WindowSelector) (c : Client) : Bool :=
  match sel with
  | .address a => normalizeAddr a = normalizeAddr c.address
  | .pid p => c.pid = p
  | .className s => c.className = s
  | .title s => c.title = s
  | .tag t => t ∈ c.tags
  | .active => false

def inverseForMatched : Option Client → Handler κ (Option InverseAction)
  | none => return none
  | some c => do return (readProcCmdline (← procCmdline c.pid)).map .spawn

def closeWindowRecorded (selector : WindowSelector) : Handler κ Response := do
  match ← query .clients with
  | .error e => return .ofCoreError e
  | .ok clients =>
    let matched := clients.find? (selectorMatches selector)
    let inverse ← inverseForMatched matched
    match ← dispatch (.closeWindow selector) with
    | .error e => return .ofCoreError e
    | .ok () =>
      match matched, inverse with
      | some c, some action =>
        undoPush ("close " ++ c.className ++ " (" ++ c.title ++ ")") action
        return .ok (.closed (some c.address))
      | _, _ => return .ok (.closed (matched.map (·.address)))

def moveToWorkspaceRecorded (workspace : WorkspaceRef) (silent : Bool) : Handler κ Response := do
  match ← query .activeWindow with
  | .error e => return .ofCoreError e
  | .ok none => return .err Codes.hyprlandRejected "no active window to move"
  | .ok (some active) =>
    match ← dispatch (if silent then .moveActiveToWorkspaceSilent workspace
        else .moveActiveToWorkspace workspace) with
    | .error e => return .ofCoreError e
    | .ok () =>
      undoPush ("move " ++ active.className ++ " from ws " ++ toString active.workspace.id ++
          " to ws " ++ workspace.encode)
        (.moveToWorkspace (.address active.address) (.id active.workspace.id) silent)
      return .ok (.moved active.address)

/-! ### Undo -/

def undoCapacity : Nat := 64

/-- The part of `run` that sets up the undo stack. -/
def startUndo (codec : UndoCodec κ) (persistPath : String) :
    Fs.Call κ (LoadOutcome × UndoStack) :=
  (UndoStack.withCapacity undoCapacity).enablePersistence codec persistPath

def undo : Handler κ Response := do
  match ← undoPop with
  | none => return .err Codes.undoEmpty "undo stack is empty"
  | some entry =>
    match ← hypr (applyInverse entry.inverse) with
    | .ok () => return .ok (.undone entry.description)
    | .error e =>
      return .err Codes.undoFailed ("inverse `" ++ entry.description ++ "` failed: " ++ e.text)

def undoList : Handler κ Response := do
  let entries ← undoEntries
  return .ok (.undoList (entries.reverse.mapIdx fun i e => ⟨i, e.timestampUnix, e.description⟩))

/-! ### Snapshots -/

section Snapshots

variable (state : State κ)

def snapshotLoadError (e : CoreError) : Response :=
  match e with
  | .notFound _ => .err Codes.snapshotNotFound e.text
  | .validation _ => .err Codes.snapshotInvalidName e.text
  | .io _ | .json _ => .err Codes.snapshotIo e.text
  | _ => .ofCoreError e

def snapshotSave (name : String) : Handler κ Response :=
  match validateName name with
  | .error e => return .err Codes.snapshotInvalidName e.text
  | .ok () => do
    match ← hypr (Snapshot.capture name) with
    | .error e => return .ofCoreError e
    | .ok snap =>
      match ← files (state.store.saveNamed snap) with
      | .ok path =>
        return .ok (.saved name path snap.windows.length snap.workspaces.length snap.monitors.length)
      | .error e => return .err Codes.snapshotIo e.text

def snapshotList : Handler κ Response := do
  match ← files state.store.listNames with
  | .ok names => return .ok (.names names)
  | .error e => return .err Codes.snapshotIo e

def targetAndLive (name : String) : Handler κ (Except Response (Snapshot × Snapshot)) := do
  match ← files (state.store.loadNamed name) with
  | .error e => return .error (snapshotLoadError e)
  | .ok target =>
    match ← hypr (Snapshot.capture "_live_") with
    | .error e => return .error (.ofCoreError e)
    | .ok live => return .ok (target, live)

def snapshotDiff (name : String) : Handler κ Response := do
  match ← targetAndLive state name with
  | .error response => return response
  | .ok (target, live) => return .ok (.diff (target.diffAgainst live))

def snapshotPreview (name : String) : Handler κ Response := do
  match ← targetAndLive state name with
  | .error response => return response
  | .ok (target, live) =>
    return .ok (.preview (.fromSnapshotAndDiff target (target.diffAgainst live)))

def restoreTo (name preName : String) (target : Snapshot) : Handler κ Response := do
  match ← hypr (Snapshot.capture "_live_") with
  | .error e => return .ofCoreError e
  | .ok live =>
    let diff := target.diffAgainst live
    let outcomes ← hypr (applyDiff diff)
    return .ok (.restored name preName diff.mutationCount outcomes
      (.fromSnapshotAndDiff target diff))

def preRestoreName (now : Int) : String := "_pre-restore-" ++ toString now

def snapshotRestore (name : String) : Handler κ Response := do
  match ← files (state.store.loadNamed name) with
  | .error e => return snapshotLoadError e
  | .ok target =>
    let preName := preRestoreName (← nowUnix)
    match ← hypr (Snapshot.capture preName) with
    | .error e => return .ofCoreError e
    | .ok snap =>
      -- A failed save is only logged.
      let _ ← files (state.store.saveNamed snap)
      restoreTo name preName target

def snapshotDelete (name : String) : Handler κ Response :=
  match validateName name with
  | .error e => return .err Codes.snapshotInvalidName e.text
  | .ok () => do
    match ← files (state.store.deleteNamed name) with
    | .ok () => return .ok (.deleted name)
    | .error e => return .err Codes.snapshotIo e.text

end Snapshots

/-! ### Rules -/

def rulesList (state : State κ) : Handler κ Response := do
  match ← rulesLoad with
  | .ok (some config) => return .ok (.rules state.rulesPath config.rules)
  | .ok none => return .ok (.rules state.rulesPath [])
  | .error e => return .err Codes.rulesLoadFailed e

def rulesValidate (state : State κ) : Handler κ Response := do
  match ← rulesLoad with
  | .error e => return .err Codes.rulesLoadFailed e
  | .ok none => return .ok (.rulesValid state.rulesPath 0 (some "no rules file present"))
  | .ok (some config) =>
    match ← (.call (Cmd.rulesCompile config) : Handler κ (Except String Nat)) with
    | .ok compiled => return .ok (.rulesValid state.rulesPath compiled none)
    | .error message => return .err Codes.rulesLoadFailed ("rules compile error: " ++ message)

/-! ### Input -/

section Input

variable (state : State κ)

def inputDisabledResponse : Response :=
  .err Codes.inputDisabled ("input synthesis is disabled in this daemon. " ++
    "Restart the daemon with HYPRPILOT_DANGEROUS_INPUT_OK=1 to enable.")

def inputErrorResponse (e : InputError) : Response :=
  let code :=
    match e with
    | .backendMissing _ | .notImplemented .. | .invalidBackendSelection _ =>
      Codes.inputBackendMissing
    | .daemonNotReachable _ => Codes.inputDaemonMissing
    | .invalidCombo _ | .invalidButton _ => Codes.inputInvalid
    | .backendFailed .. | .io _ | .virtualPointer _ => Codes.inputFailed
  .err code e.text

/-- Runs an input request, which the gate refuses unless it was opened at startup. -/
def gated (request : Handler κ Response) : Handler κ Response :=
  if state.inputEnabled then request else return inputDisabledResponse

def inputType (text : String) : Handler κ Response :=
  gated state do
    match ← input (.typeText text) with
    | .ok () => return .ok (.typed text.utf8ByteSize)
    | .error e => return inputErrorResponse e

def inputKeys (combo : KeyCombo) : Handler κ Response :=
  gated state do
    match ← input (.pressKeys combo) with
    | .ok () => return .ok (.pressed combo.text)
    | .error e => return inputErrorResponse e

def inputShortcut (combo : KeyCombo) (selector : WindowSelector) : Handler κ Response :=
  gated state do
    match ← dispatch (.sendShortcut combo.encodeHyprctlMods combo.key selector) with
    | .ok () => return .ok (.sent combo.text selector.encode)
    | .error e => return .ofCoreError e

/-- The point lies in the monitor's logical bounds: its mode divided by its scale. -/
def containsPoint (m : Monitor) (x y : Int) : Bool :=
  let lw := Machine.sat32 (Machine.roundHalfAway (m.width / m.scale))
  let lh := Machine.sat32 (Machine.roundHalfAway (m.height / m.scale))
  m.x ≤ x ∧ x < Machine.wrap32 (m.x + lw) ∧ m.y ≤ y ∧ y < Machine.wrap32 (m.y + lh)

def scaleAt (monitors : List Monitor) (x y : Int) : ℚ :=
  match monitors.find? fun m => containsPoint m x y with
  | some m => m.scale
  | none =>
    match monitors.find? (·.focused) with
    | some m => m.scale
    | none => (monitors.head?.map (·.scale)).getD 1

def logicalToDevice (x y : Int) : Handler κ (Int × Int) := do
  let scale :=
    match ← cached StateCache.monitors with
    | .ok monitors => scaleAt monitors x y
    | .error _ => 1
  return (Machine.sat32 (Machine.roundHalfAway (x * scale)),
    Machine.sat32 (Machine.roundHalfAway (y * scale)))

/-- The point that the pointer backend is given: absolute points are logical. -/
def pointerTarget (x y : Int) (absolute : Bool) : Handler κ (Int × Int) :=
  if absolute then logicalToDevice x y else return (x, y)

def inputMouseMove (x y : Int) (absolute : Bool) : Handler κ Response :=
  gated state do
    let (mx, my) ← pointerTarget x y absolute
    match ← input (.mouseMove mx my absolute) with
    | .ok () => return .ok (.movedTo x y absolute)
    | .error e => return inputErrorResponse e

def inputMouseClick (button : MouseButton) : Handler κ Response :=
  gated state do
    match ← input (.mouseClick button) with
    | .ok () => return .ok (.clicked button)
    | .error e => return inputErrorResponse e

end Input

/-! ### Accessibility -/

/-- A lost bus also drops the connection, so that the next request connects again. -/
def a11yErrorResponse (e : A11yError) : Handler κ Response :=
  match e with
  | .unavailable _ => do
    let () ← (.call Cmd.a11yDrop : Handler κ Unit)
    return .err Codes.a11yUnavailable e.text
  | .noApplication _ => return .err Codes.a11yNoApp e.text
  | .bus _ => return .err Codes.a11yFailed e.text

def walkOpts (maxNodes : Option Nat) : WalkOpts :=
  match maxNodes.filter (0 < ·) with
  | some n => { maxNodes := n }
  | none => {}

def resolveA11yPid (pid : Option Int) : Handler κ (Except Response Int) :=
  match pid with
  | some p => return .ok p
  | none => do
    match ← cached StateCache.activeWindow with
    | .ok (some c) => return .ok c.pid
    | .ok none =>
      return .error (.err Codes.a11yNoApp
        "no focused window to resolve a pid from; pass `pid` explicitly")
    | .error e => return .error (.ofCoreError e)

def a11yRead (pid : Option Int) (query : Option String)
    (read : Int → Handler κ (Except A11yError (List Element))) : Handler κ Response := do
  match ← resolveA11yPid pid with
  | .error response => return response
  | .ok pid =>
    match ← a11yConnect with
    | .error e => a11yErrorResponse e
    | .ok () =>
      match ← read pid with
      | .ok elements => return .ok (.elements pid query elements)
      | .error e => a11yErrorResponse e

def a11yTree (pid : Option Int) (maxNodes : Option Nat) : Handler κ Response :=
  a11yRead pid none fun pid => .call (Cmd.a11ySnapshotApp pid (walkOpts maxNodes))

def a11yFind (pid : Option Int) (query : String) (role : Option String) (maxNodes : Option Nat) :
    Handler κ Response :=
  a11yRead pid (some query) fun pid => .call (Cmd.a11yFind pid query role (walkOpts maxNodes))

/-! ### Keymap -/

def runBind (combo : KeyCombo) (submap : Option String) (dryRun : Bool) : Handler κ Response := do
  match ← cached StateCache.binds with
  | .error e => return .ofCoreError e
  | .ok binds =>
    match Binds.resolve binds combo submap with
    | none =>
      let scope := match submap with
        | some s => " in submap `" ++ s ++ "`"
        | none => ""
      return .err Codes.bindNotFound ("no keybind matches `" ++ combo.text ++ "`" ++ scope)
    | some bind =>
      let action := Binds.bindAction bind
      if dryRun then return .ok (.wouldRun combo.text bind.dispatcher bind.arg action)
      else
        match ← dispatch (.bindAction action) with
        | .ok () => return .ok (.ran combo.text action)
        | .error e => return .ofCoreError e

/-! ### Requests -/

def void (d : Dispatcher) : Handler κ Response := do return .voidFromCore (← dispatch d)

def served {α : Type} (reply : α → Reply) (p : StateCache.Call (CoreResult α)) :
    Handler κ Response := do
  return .fromCore reply (← cached p)

def handleRequest (state : State κ) : Request → Handler κ Response
  | .ping => return .ok (.text "pong")
  | .shutdown => do
    let () ← (.call Cmd.notifyShutdown : Handler κ Unit)
    return .ok (.text "shutting_down")
  | .queryClients => served .clients StateCache.clients
  | .queryWorkspaces => served .workspaces StateCache.workspaces
  | .queryMonitors => served .monitors StateCache.monitors
  | .queryActiveWindow => served .activeWindow StateCache.activeWindow
  | .queryActiveWorkspace => served .activeWorkspace StateCache.activeWorkspace
  | .queryVersion => served .version StateCache.version
  | .queryCursorPos => do return .fromCore .cursorPos (← query .cursorPos)
  | .queryBinds => served .binds StateCache.binds
  | .dispatchKillActive => killActiveRecorded
  | .dispatchCloseWindow selector => closeWindowRecorded selector
  | .dispatchMoveToWorkspace workspace => moveToWorkspaceRecorded workspace false
  | .dispatchMoveToWorkspaceSilent workspace => moveToWorkspaceRecorded workspace true
  | .dispatchFocusWindow selector => void (.focusWindow selector)
  | .dispatchCycleNext => void .cycleNext
  | .dispatchCyclePrev => void .cyclePrev
  | .dispatchSwitchWorkspace workspace => void (.switchWorkspace workspace)
  | .dispatchToggleFloating => void .toggleFloating
  | .dispatchFullscreen mode => void (.setFullscreen mode)
  | .dispatchCenterActive => void .centerActive
  | .dispatchPinActive => void .pinActive
  | .dispatchMoveActive direction => void (.moveActive direction)
  | .dispatchResizeActive dx dy => void (.resizeActive dx dy)
  | .dispatchSwapActive direction => void (.swapActive direction)
  | .dispatchExec command => void (.exec command)
  | .dispatchFocusMonitor name => void (.focusMonitor name)
  | .dispatchMoveWorkspaceToMonitor monitor => void (.moveWorkspaceToMonitor monitor)
  | .undo => undo
  | .undoList => undoList
  | .snapshotSave name => snapshotSave state name
  | .snapshotList => snapshotList state
  | .snapshotDiff name => snapshotDiff state name
  | .snapshotPreview name => snapshotPreview state name
  | .snapshotRestore name => snapshotRestore state name
  | .snapshotDelete name => snapshotDelete state name
  | .rulesList => rulesList state
  | .rulesValidate => rulesValidate state
  | .rulesPath => return .ok (.path state.rulesPath)
  | .inputType text => inputType state text
  | .inputKeys combo => inputKeys state combo
  | .inputShortcut combo selector => inputShortcut state combo selector
  | .inputMouseMove x y absolute => inputMouseMove state x y absolute
  | .inputMouseClick button => inputMouseClick state button
  | .a11yTree pid maxNodes => a11yTree pid maxNodes
  | .a11yFind pid query role maxNodes => a11yFind pid query role maxNodes
  | .runBind combo submap dryRun => runBind combo submap dryRun

/-- The loop of `handle_client`: the requests of one connection, one at a time. -/
def handleClient (state : State κ) : List Request → Handler κ (List Response)
  | [] => return []
  | request :: rest => do
    let response ← handleRequest state request
    let responses ← handleClient state rest
    return response :: responses

/-! ### Concrete data -/

/-- The files of the state directory, each as the data it holds. -/
inductive StateFile where
  | snapshot (s : Snapshot)
  | undo (entries : List UndoEntry)
  deriving DecidableEq

def StateFile.snapshots : Fs.Codec StateFile Snapshot where
  encode := .snapshot
  decode
    | .snapshot s => .ok s
    | .undo _ => .error "missing field `name`"
  decode_encode _ := rfl

def StateFile.undoEntries : UndoCodec StateFile where
  encode := .undo
  decode
    | .undo entries => .ok entries
    | .snapshot _ => .error "invalid type: map, expected a sequence"
  decode_encode _ := rfl

def plainState : State StateFile where
  store := ⟨"/s", StateFile.snapshots⟩
  rulesPath := "/c/rules.toml"
  inputEnabled := false

def kitty : Client :=
  { address := "0xa", at_ := (0, 0), size := (100, 100), workspace := ⟨1, "1"⟩, floating := false
    monitor := 0, className := "kitty", title := "~", initialClass := "kitty"
    initialTitle := "kitty", pid := 7, pinned := false, fullscreen := 0, tags := []
    focusHistoryId := 0 }

end Daemon

end HyprPilot
