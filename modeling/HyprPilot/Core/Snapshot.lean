import HyprPilot.Core.Connection

/-!
# Snapshots

A snapshot records every window, workspace and monitor with the focused window. `diffAgainst`
computes the actions that take a live state back to a snapshot: it serves the snapshot's windows in
order, matches each with a live window that no earlier one took, and emits an action for each field
that differs.
-/

namespace HyprPilot
open Interact

structure WindowSnapshot where
  address : String
  pid : Int
  initialClass : String
  initialTitle : String
  className : String
  title : String
  workspaceId : Int
  monitorName : String
  at_ : Int × Int
  size : Int × Int
  floating : Bool
  fullscreen : Int
  pinned : Bool
  deriving DecidableEq

structure WorkspaceSnapshot where
  id : Int
  name : String
  monitor : String
  windows : Nat
  deriving DecidableEq

structure MonitorSnapshot where
  name : String
  activeWorkspaceId : Int
  deriving DecidableEq

structure Snapshot where
  name : String
  createdAtUnix : Int
  hyprlandVersion : String
  monitors : List MonitorSnapshot
  workspaces : List WorkspaceSnapshot
  windows : List WindowSnapshot
  activeWindowAddress : Option String
  activeWorkspaceId : Int
  deriving DecidableEq

/-! ### Actions -/

inductive RestoreAction where
  | windowMissing (address className title : String)
  | moveToWorkspace (address : String) (fromWorkspace toWorkspace : Int)
  | toggleFloating (address : String) (target : Bool)
  | repositionFloating (address : String) (targetAt targetSize currentAt currentSize : Int × Int)
  | setFullscreen (address : String) (fromMode toMode : Int)
  | setPin (address : String) (target : Bool)
  | windowNotInSnapshot (address className : String)
  | restoreActiveFocus (address : String) (fromAddress : Option String)
  deriving DecidableEq

def RestoreAction.address : RestoreAction → String
  | .windowMissing a _ _ | .moveToWorkspace a _ _ | .toggleFloating a _
  | .repositionFloating a _ _ _ _ | .setFullscreen a _ _ | .setPin a _
  | .windowNotInSnapshot a _ | .restoreActiveFocus a _ => a

/-- The actions that change Hyprland's state; the others only report. -/
def isMutating : RestoreAction → Bool
  | .moveToWorkspace .. | .toggleFloating .. | .repositionFloating .. | .setFullscreen ..
  | .setPin .. | .restoreActiveFocus .. => true
  | .windowMissing .. | .windowNotInSnapshot .. => false

structure SnapshotDiff where
  actions : List RestoreAction
  deriving DecidableEq

def SnapshotDiff.mutationCount (diff : SnapshotDiff) : Nat := (diff.actions.filter isMutating).length

def SnapshotDiff.isNoOp (diff : SnapshotDiff) : Bool := diff.mutationCount == 0

/-! ### Matching -/

def sole {α : Type} : List α → Option α
  | [a] => some a
  | _ => none

section Matching

variable (snap : WindowSnapshot) (live : List WindowSnapshot) (alreadyMatched : List String)

def unmatched : List WindowSnapshot := live.filter fun w => w.address ∉ alreadyMatched

def matchByAddress : Option WindowSnapshot :=
  (unmatched live alreadyMatched).find? fun w => w.address = snap.address

def matchByPid : Option WindowSnapshot :=
  if 0 < snap.pid then sole ((unmatched live alreadyMatched).filter fun w => w.pid = snap.pid)
  else none

def matchByClass : Option WindowSnapshot :=
  if snap.initialClass ≠ "" then
    sole ((unmatched live alreadyMatched).filter fun w =>
      w.initialClass = snap.initialClass ∧ w.initialTitle = snap.initialTitle)
  else none

def matchLiveWindow : Option WindowSnapshot :=
  match matchByAddress snap live alreadyMatched with
  | some w => some w
  | none =>
    match matchByPid snap live alreadyMatched with
    | some w => some w
    | none => matchByClass snap live alreadyMatched

end Matching

/-! ### Diff -/

/-- The actions for a matched pair, in restore order: workspace, floating, geometry, fullscreen,
pin. Geometry and pin matter only for a window that ends up floating. -/
def matchedActions (snap liveW : WindowSnapshot) : List RestoreAction :=
  (if liveW.workspaceId ≠ snap.workspaceId then
    [.moveToWorkspace liveW.address liveW.workspaceId snap.workspaceId] else []) ++
  (if liveW.floating ≠ snap.floating then [.toggleFloating liveW.address snap.floating] else []) ++
  (if snap.floating ∧ (liveW.at_ ≠ snap.at_ ∨ liveW.size ≠ snap.size) then
    [.repositionFloating liveW.address snap.at_ snap.size liveW.at_ liveW.size] else []) ++
  (if liveW.fullscreen ≠ snap.fullscreen then
    [.setFullscreen liveW.address liveW.fullscreen snap.fullscreen] else []) ++
  (if snap.floating ∧ liveW.pinned ≠ snap.pinned then
    [.setPin liveW.address snap.pinned] else [])

/-- The loop over the target's windows: the actions, and the addresses matched at its end. -/
def diffWindows (live : List WindowSnapshot) :
    List String → List WindowSnapshot → List RestoreAction × List String
  | matchedLive, [] => ([], matchedLive)
  | matchedLive, snap :: rest =>
    match matchLiveWindow snap live matchedLive with
    | some liveW =>
      let (actions, matched) := diffWindows live (liveW.address :: matchedLive) rest
      (matchedActions snap liveW ++ actions, matched)
    | none =>
      let (actions, matched) := diffWindows live matchedLive rest
      (.windowMissing snap.address snap.className snap.title :: actions, matched)

/-- Refocus the target's active window if it is live and not focused already. -/
def focusActions (target live : Snapshot) : List RestoreAction :=
  match target.activeWindowAddress with
  | some targetActive =>
    if live.activeWindowAddress ≠ some targetActive ∧
        live.windows.any (fun w => w.address = targetActive) then
      [.restoreActiveFocus targetActive live.activeWindowAddress]
    else []
  | none => []

def Snapshot.diffAgainst (target live : Snapshot) : SnapshotDiff :=
  let (actions, matchedLive) := diffWindows live.windows [] target.windows
  let extra := (live.windows.filter fun w => w.address ∉ matchedLive).map fun w =>
    RestoreAction.windowNotInSnapshot w.address w.className
  ⟨actions ++ extra ++ focusActions target live⟩

/-! ### Capture -/

def Snapshot.ofReplies (name : String) (now : Int) (version : Version) (clients : List Client)
    (workspaces : List Workspace) (monitors : List Monitor) (activeWindow : Option Client)
    (activeWorkspace : ActiveWorkspace) : Snapshot where
  name := name
  createdAtUnix := now
  hyprlandVersion := version.version
  monitors := monitors.map fun m => ⟨m.name, (m.activeWorkspace.map (·.id)).getD 0⟩
  workspaces := workspaces.map fun w => ⟨w.id, w.name, w.monitor, w.windows⟩
  windows := clients.map fun c =>
    { address := c.address, pid := c.pid, initialClass := c.initialClass
      initialTitle := c.initialTitle, className := c.className, title := c.title
      workspaceId := c.workspace.id
      -- The source collects the names into a map by id, so the last monitor of an id wins.
      monitorName := ((monitors.reverse.find? fun m => m.id = c.monitor).map (·.name)).getD ""
      at_ := c.at_, size := c.size, floating := c.floating, fullscreen := c.fullscreen
      pinned := c.pinned }
  activeWindowAddress := activeWindow.map (·.address)
  activeWorkspaceId := activeWorkspace.id

/-- `Snapshot::capture`: the six queries, which the source runs concurrently; the first failure
ends the capture. -/
def Snapshot.capture (name : String) : Connection.Call (CoreResult Snapshot) :=
  (Connection.query .version).andThen fun version =>
  (Connection.query .clients).andThen fun clients =>
  (Connection.query .workspaces).andThen fun workspaces =>
  (Connection.query .monitors).andThen fun monitors =>
  (Connection.query .activeWindow).andThen fun activeWindow =>
  (Connection.query .activeWorkspace).andThen fun activeWorkspace => do
    let now ← Connection.nowUnix
    return .ok (.ofReplies name now version clients workspaces monitors activeWindow
      activeWorkspace)

end HyprPilot
