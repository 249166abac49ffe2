import HyprPilot.A11y.Element
import HyprPilot.Core.Restore
import HyprPilot.Input.Keys

/-!
# The daemon's protocol

Requests, and responses with their results as typed data instead of JSON values.
-/

namespace HyprPilot

inductive Request where
  | ping
  | shutdown
  | queryClients
  | queryWorkspaces
  | queryMonitors
  | queryActiveWindow
  | queryActiveWorkspace
  | queryVersion
  | queryCursorPos
  | queryBinds
  | dispatchKillActive
  | dispatchCloseWindow (selector : WindowSelector)
  | dispatchFocusWindow (selector : WindowSelector)
  | dispatchCycleNext
  | dispatchCyclePrev
  | dispatchSwitchWorkspace (workspace : WorkspaceRef)
  | dispatchMoveToWorkspace (workspace : WorkspaceRef)
  | dispatchMoveToWorkspaceSilent (workspace : WorkspaceRef)
  | dispatchToggleFloating
  | dispatchFullscreen (mode : FullscreenMode)
  | dispatchCenterActive
  | dispatchPinActive
  | dispatchMoveActive (direction : Direction)
  | dispatchResizeActive (dx dy : Int)
  | dispatchSwapActive (direction : Direction)
  | dispatchExec (command : String)
  | dispatchFocusMonitor (name : String)
  | dispatchMoveWorkspaceToMonitor (monitor : String)
  | undo
  | undoList
  | snapshotSave (name : String)
  | snapshotList
  | snapshotDiff (name : String)
  | snapshotPreview (name : String)
  | snapshotRestore (name : String)
  | snapshotDelete (name : String)
  | rulesList
  | rulesValidate
  | rulesPath
  | inputType (text : String)
  | inputKeys (combo : KeyCombo)
  | inputShortcut (combo : KeyCombo) (selector : WindowSelector)
  | inputMouseMove (x y : Int) (absolute : Bool)
  | inputMouseClick (button : MouseButton)
  | a11yTree (pid : Option Int) (maxNodes : Option Nat)
  | a11yFind (pid : Option Int) (query : String) (role : Option String) (maxNodes : Option Nat)
  | runBind (combo : KeyCombo) (submap : Option String) (dryRun : Bool)
  deriving DecidableEq

structure UndoListEntry where
  index : Nat
  timestampUnix : Int
  description : String
  deriving DecidableEq

structure Rule where
  name : Option String
  on : String
  «when» : List (String × String)
  actions : List String
  deriving DecidableEq

structure RuleConfig where
  rules : List Rule
  deriving DecidableEq

inductive Reply where
  | null
  | text (s : String)
  | clients (clients : List Client)
  | workspaces (workspaces : List Workspace)
  | monitors (monitors : List Monitor)
  | activeWindow (window : Option Client)
  | activeWorkspace (workspace : ActiveWorkspace)
  | version (version : Version)
  | cursorPos (pos : CursorPos)
  | binds (binds : List Bind)
  | killed (address : String)
  | closed (address : Option String)
  | moved (address : String)
  | undone (description : String)
  | undoList (entries : List UndoListEntry)
  | saved (name path : String) (windows workspaces monitors : Nat)
  | names (names : List String)
  | diff (diff : SnapshotDiff)
  | preview (preview : SnapshotRestorePreview)
  | restored (name preRestoreSnapshot : String) (mutationsAttempted : Nat)
      (outcomes : List ApplyOutcome) (preview : SnapshotRestorePreview)
  | deleted (name : String)
  | rules (path : String) (rules : List Rule)
  | rulesValid (path : String) (rules : Nat) (note : Option String)
  | path (path : String)
  | typed (bytes : Nat)
  | pressed (label : String)
  | sent (combo target : String)
  | movedTo (x y : Int) (absolute : Bool)
  | clicked (button : MouseButton)
  | elements (pid : Int) (query : Option String) (elements : List Element)
  | wouldRun (combo dispatcher arg wouldDispatch : String)
  | ran (combo dispatched : String)
  deriving DecidableEq

inductive Response where
  | ok (result : Reply)
  | err (code message : String)
  deriving DecidableEq

namespace Codes

def noInstance := "no_instance"
def hyprlandRejected := "hyprland_rejected"
def hyprlandUnknown := "hyprland_unknown_dispatcher"
def hyprlandIo := "hyprland_io"
def undoEmpty := "undo_empty"
def undoFailed := "undo_failed"
def snapshotNotFound := "snapshot_not_found"
def snapshotInvalidName := "snapshot_invalid_name"
def snapshotIo := "snapshot_io"
def rulesLoadFailed := "rules_load_failed"
def inputDisabled := "input_disabled"
def inputBackendMissing := "input_backend_missing"
def inputDaemonMissing := "input_daemon_missing"
def inputInvalid := "input_invalid"
def inputFailed := "input_failed"
def a11yUnavailable := "a11y_unavailable"
def a11yNoApp := "a11y_no_app"
def a11yFailed := "a11y_failed"
def bindNotFound := "bind_not_found"
def internal := "internal"

end Codes

/-- `core_error`: the response code of each core error. -/
def Response.ofCoreError (e : CoreError) : Response :=
  let code :=
    match e with
    | .rejected .. => Codes.hyprlandRejected
    | .unknownDispatcher _ => Codes.hyprlandUnknown
    | .io _ => Codes.hyprlandIo
    | .noInstance _ | .noRuntimeDir | .socketMissing _ => Codes.noInstance
    | _ => Codes.internal
  .err code e.text

def Response.fromCore {α : Type} (reply : α → Reply) : CoreResult α → Response
  | .ok a => .ok (reply a)
  | .error e => .ofCoreError e

def Response.voidFromCore : CoreResult Unit → Response := fromCore fun () => .null

end HyprPilot
