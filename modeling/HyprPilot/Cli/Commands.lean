import HyprPilot.Mcp.Protocol

/-!
# The commands that control the desktop

The commands that neither capture the screen nor run a daemon. Queries, windows and workspaces go to
Hyprland's control socket, or to the daemon with `--use-daemon`; `exec` always goes to Hyprland, and the
rest always to the daemon.
-/

namespace HyprPilot
open Interact

namespace Control

inductive QueryCmd where
  | clients | workspaces | monitors | activeWindow | activeWorkspace | version | cursorPos | binds

inductive WinCmd where
  | focus (selector : String)
  | close (selector : String)
  | kill
  | cycle (prev : Bool)
  | float
  | fullscreen (mode : FullscreenMode)
  | center
  | pin
  | move (direction : Direction)
  | resize (dx dy : Int)
  | swap (direction : Direction)

/-- `clap` reads the targets with `WorkspaceRef::parse`. -/
inductive WsCmd where
  | switch (target : WorkspaceRef)
  | send (target : WorkspaceRef)
  | sendSilent (target : WorkspaceRef)
  | toMonitor (monitor : String)
  | focusMonitor (nameOrDirection : String)

inductive InputCmd where
  | type (text : List String)
  | keys (combo : String)
  | shortcut (combo target : String)
  | mouseMove (x y : Int) (absolute : Bool)
  | mouseClick (button : String)

inductive RulesCmd where
  | list | validate | path

inductive SnapshotCmd where
  | save (name : String)
  | list
  | diff (name : String)
  | restore (name : String)
  | delete (name : String)

inductive DaemonCmd where
  | ping | stop | status

inductive Command where
  | query (q : QueryCmd)
  | win (w : WinCmd)
  | ws (w : WsCmd)
  | exec (command : List String)
  | daemon (c : DaemonCmd)
  | undo
  | undoList
  | snapshot (s : SnapshotCmd)
  | rules (r : RulesCmd)
  | input (i : InputCmd)

structure Options where
  useDaemon : Bool
  daemonSocket : String

inductive Cmd where
  /-- `Connection::new`: the instance is discovered. -/
  | discover
  | hypr (c : Connection.Cmd)
  | connect (socket : String)
  | call (request : Request)

@[reducible] def Ans : Cmd → Type
  | .discover => CoreResult Unit
  | .hypr c => Connection.Ans c
  | .connect _ => Except ClientError Unit
  | .call _ => Except ClientError Reply

abbrev Session (α : Type) := Prog Cmd Ans α

inductive Failure where
  | message (text : String)
  | input (e : InputError)
  | core (e : CoreError)
  | client (e : ClientError)
  | context (text : String) (e : ClientError)

/-- What is printed after `error: `. -/
def Failure.text : Failure → String
  | .message text => text
  | .input e => e.text
  | .core e => e.text
  | .client e => e.text
  | .context text e => text ++ ": " ++ e.text

/-- What a command prints when it succeeds; a reply is printed as JSON or as text. -/
inductive Printed where
  | ok
  | spawned (command : String)
  | reply (value : Reply)
  | status (unreachable : Option ClientError)

abbrev Outcome := Except Failure Printed

/-- The failure of a step, under the name that the command line gives it. -/
def attempt {ε α : Type} (wrap : ε → Failure) (p : Session (Except ε α)) : Session (Except Failure α) := do
  return (← p).mapError wrap

def openHyprland : Session (Except Failure Unit) := attempt .core (.call Cmd.discover)

def onHyprland {α : Type} (p : Connection.Call (CoreResult α)) : Session (Except Failure α) :=
  attempt .core (p.relabel .hypr fun _ x => x)

def openDaemon (socket : String) : Session (Except Failure Unit) :=
  attempt (.context ("connect to daemon at " ++ socket)) (.call (Cmd.connect socket))

def callDaemon (request : Request) : Session Outcome := do
  return (← attempt .client (.call (Cmd.call request))).map .reply

/-- The arguments are only read once the daemon is connected. -/
def viaDaemon (socket : String) (request : Except Failure Request) : Session Outcome :=
  (openDaemon socket).andThen fun () =>
    match request with
    | .error e => return .error e
    | .ok request => callDaemon request

def viaHyprland (d : Except Failure Dispatcher) : Session Outcome :=
  openHyprland.andThen fun () =>
    match d with
    | .error e => return .error e
    | .ok d => (onHyprland (Connection.dispatch d)).andThen fun () => return .ok .ok

def parseSelector (s : String) : Except Failure WindowSelector := (WindowSelector.parse s).mapError .message

def parseCombo (s : String) : Except Failure KeyCombo := (KeyCombo.parse s).mapError .input

/-! ### Queries -/

def QueryCmd.request : QueryCmd → Request
  | .clients => .queryClients
  | .workspaces => .queryWorkspaces
  | .monitors => .queryMonitors
  | .activeWindow => .queryActiveWindow
  | .activeWorkspace => .queryActiveWorkspace
  | .version => .queryVersion
  | .cursorPos => .queryCursorPos
  | .binds => .queryBinds

def QueryCmd.ask : QueryCmd → Connection.Call (CoreResult Reply)
  | .clients => do return (← Connection.query .clients).map .clients
  | .workspaces => do return (← Connection.query .workspaces).map .workspaces
  | .monitors => do return (← Connection.query .monitors).map .monitors
  | .activeWindow => do return (← Connection.query .activeWindow).map .activeWindow
  | .activeWorkspace => do return (← Connection.query .activeWorkspace).map .activeWorkspace
  | .version => do return (← Connection.query .version).map .version
  | .cursorPos => do return (← Connection.query .cursorPos).map .cursorPos
  | .binds => do return (← Connection.binds).map .binds

def runQuery (q : QueryCmd) (o : Options) : Session Outcome :=
  if o.useDaemon then viaDaemon o.daemonSocket (.ok q.request)
  else openHyprland.andThen fun () => (onHyprland q.ask).andThen fun reply => return .ok (.reply reply)

/-! ### Windows and workspaces -/

def WinCmd.request : WinCmd → Except Failure Request
  | .focus s => do return .dispatchFocusWindow (← parseSelector s)
  | .close s => do return .dispatchCloseWindow (← parseSelector s)
  | .kill => .ok .dispatchKillActive
  | .cycle prev => .ok (if prev then .dispatchCyclePrev else .dispatchCycleNext)
  | .float => .ok .dispatchToggleFloating
  | .fullscreen mode => .ok (.dispatchFullscreen mode)
  | .center => .ok .dispatchCenterActive
  | .pin => .ok .dispatchPinActive
  | .move direction => .ok (.dispatchMoveActive direction)
  | .resize dx dy => .ok (.dispatchResizeActive dx dy)
  | .swap direction => .ok (.dispatchSwapActive direction)

def WinCmd.dispatcher : WinCmd → Except Failure Dispatcher
  | .focus s => do return .focusWindow (← parseSelector s)
  | .close s => do return .closeWindow (← parseSelector s)
  | .kill => .ok .killActive
  | .cycle prev => .ok (if prev then .cyclePrev else .cycleNext)
  | .float => .ok .toggleFloating
  | .fullscreen mode => .ok (.setFullscreen mode)
  | .center => .ok .centerActive
  | .pin => .ok .pinActive
  | .move direction => .ok (.moveActive direction)
  | .resize dx dy => .ok (.resizeActive dx dy)
  | .swap direction => .ok (.swapActive direction)

def runWin (w : WinCmd) (o : Options) : Session Outcome :=
  if o.useDaemon then viaDaemon o.daemonSocket w.request else viaHyprland w.dispatcher

def WsCmd.request : WsCmd → Request
  | .switch target => .dispatchSwitchWorkspace target
  | .send target => .dispatchMoveToWorkspace target
  | .sendSilent target => .dispatchMoveToWorkspaceSilent target
  | .toMonitor monitor => .dispatchMoveWorkspaceToMonitor monitor
  | .focusMonitor nameOrDirection => .dispatchFocusMonitor nameOrDirection

def WsCmd.dispatcher : WsCmd → Dispatcher
  | .switch target => .switchWorkspace target
  | .send target => .moveActiveToWorkspace target
  | .sendSilent target => .moveActiveToWorkspaceSilent target
  | .toMonitor monitor => .moveWorkspaceToMonitor monitor
  | .focusMonitor nameOrDirection => .focusMonitor nameOrDirection

def runWs (w : WsCmd) (o : Options) : Session Outcome :=
  if o.useDaemon then viaDaemon o.daemonSocket (.ok w.request) else viaHyprland (.ok w.dispatcher)

def runExec (command : List String) : Session Outcome :=
  let command := Text.joinWith " " command
  openHyprland.andThen fun () =>
    (onHyprland (Connection.dispatch (.exec command))).andThen fun () => return .ok (.spawned command)

/-! ### Through the daemon -/

def InputCmd.request : InputCmd → Except Failure Request
  | .type text => .ok (.inputType (Text.joinWith " " text))
  | .keys combo => do return .inputKeys (← parseCombo combo)
  | .shortcut combo target => do return .inputShortcut (← parseCombo combo) (← parseSelector target)
  | .mouseMove x y absolute => .ok (.inputMouseMove x y absolute)
  | .mouseClick button => do return .inputMouseClick (← (MouseButton.parse button).mapError .input)

def RulesCmd.request : RulesCmd → Request
  | .list => .rulesList
  | .validate => .rulesValidate
  | .path => .rulesPath

/-- `diff` asks for the preview, which has the summary of the diff. -/
def SnapshotCmd.request : SnapshotCmd → Request
  | .save name => .snapshotSave name
  | .list => .snapshotList
  | .diff name => .snapshotPreview name
  | .restore name => .snapshotRestore name
  | .delete name => .snapshotDelete name

def runDaemonCmd (c : DaemonCmd) (o : Options) : Session Outcome :=
  match c with
  | .ping => viaDaemon o.daemonSocket (.ok .ping)
  | .stop => viaDaemon o.daemonSocket (.ok .shutdown)
  | .status => do
    match ← (.call (Cmd.connect o.daemonSocket) : Session (Except ClientError Unit)) with
    | .ok () => return .ok (.status none)
    | .error e => return .ok (.status (some e))

def run (command : Command) (o : Options) : Session Outcome :=
  match command with
  | .query q => runQuery q o
  | .win w => runWin w o
  | .ws w => runWs w o
  | .exec command => runExec command
  | .daemon c => runDaemonCmd c o
  | .undo => viaDaemon o.daemonSocket (.ok .undo)
  | .undoList => viaDaemon o.daemonSocket (.ok .undoList)
  | .snapshot s => viaDaemon o.daemonSocket (.ok s.request)
  | .rules r => viaDaemon o.daemonSocket (.ok r.request)
  | .input i => viaDaemon o.daemonSocket i.request

end Control

end HyprPilot
