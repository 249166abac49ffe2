import HyprPilot.Base.Decimal
import HyprPilot.Base.Through
import HyprPilot.Cli.Commands
import HyprPilot.Daemon.Rules
import HyprPilot.Mcp.Authority

/-!
# Four ways to one dispatcher

A rule's action, a tool call and a command of the command line, with or without the daemon, may ask for
the same thing. Whichever way is taken, Hyprland gets that dispatcher at most once and no other, and
success is reported exactly where Hyprland accepted it and no answer was lost.
-/

namespace HyprPilot
open Interact

/-! ### What is asked for -/

/-- The action that a request asks for. -/
def Request.action : Request → Option Engine.Action
  | .dispatchKillActive => some .killActive
  | .dispatchCloseWindow selector => some (.closeWindow selector)
  | .dispatchFocusWindow selector => some (.focusWindow selector)
  | .dispatchCycleNext => some .cycleNext
  | .dispatchCyclePrev => some .cyclePrev
  | .dispatchSwitchWorkspace workspace => some (.switchWorkspace workspace)
  | .dispatchMoveToWorkspace workspace => some (.moveToWorkspace workspace)
  | .dispatchMoveToWorkspaceSilent workspace => some (.moveToWorkspaceSilent workspace)
  | .dispatchToggleFloating => some .toggleFloating
  | .dispatchFullscreen mode => some (.setFullscreen mode)
  | .dispatchCenterActive => some .centerActive
  | .dispatchPinActive => some .pinActive
  | .dispatchMoveActive direction => some (.moveActive direction)
  | .dispatchResizeActive dx dy => some (.resizeActive dx dy)
  | .dispatchSwapActive direction => some (.swapActive direction)
  | .dispatchExec command => some (.exec command)
  | .dispatchFocusMonitor name => some (.focusMonitor name)
  | .dispatchMoveWorkspaceToMonitor monitor => some (.moveWorkspaceToMonitor monitor)
  | _ => none

/-- The action that a command asks for; a selector has to parse. -/
def Control.Command.action : Control.Command → Option Engine.Action
  | .win (.focus s) => (WindowSelector.parse s).toOption.map .focusWindow
  | .win (.close s) => (WindowSelector.parse s).toOption.map .closeWindow
  | .win .kill => some .killActive
  | .win (.cycle prev) => some (if prev then .cyclePrev else .cycleNext)
  | .win .float => some .toggleFloating
  | .win (.fullscreen mode) => some (.setFullscreen mode)
  | .win .center => some .centerActive
  | .win .pin => some .pinActive
  | .win (.move direction) => some (.moveActive direction)
  | .win (.resize dx dy) => some (.resizeActive dx dy)
  | .win (.swap direction) => some (.swapActive direction)
  | .ws (.switch target) => some (.switchWorkspace target)
  | .ws (.send target) => some (.moveToWorkspace target)
  | .ws (.sendSilent target) => some (.moveToWorkspaceSilent target)
  | .ws (.toMonitor monitor) => some (.moveWorkspaceToMonitor monitor)
  | .ws (.focusMonitor nameOrDirection) => some (.focusMonitor nameOrDirection)
  | .exec command => some (.exec (Text.joinWith " " command))
  | _ => none

/-! ### What is seen of a run -/

/-- What Hyprland was sent, with its answer, and where the daemon's client failed. -/
inductive Seen where
  | sent (d : Dispatcher) (answer : CoreResult Unit)
  | lost (e : ClientError)

def Seen.dispatched : Seen → Option (Dispatcher × CoreResult Unit)
  | .sent d answer => some (d, answer)
  | .lost _ => none

/-- The dispatcher was sent at most once and no other was; success is reported exactly where it was
accepted and the client did not fail. -/
structure AtMostOnce (d : Dispatcher) (done : Bool) (seen : List Seen) : Prop where
  only : seen.filterMap Seen.dispatched = [] ∨
    ∃ answer, seen.filterMap Seen.dispatched = [(d, answer)]
  done_iff : done = true ↔ .sent d (.ok ()) ∈ seen ∧ ∀ e, .lost e ∉ seen

section AtMostOnce

variable {d : Dispatcher}

theorem atMostOnce_nothing : AtMostOnce d false [] := ⟨.inl rfl, by simp⟩

theorem atMostOnce_sent (answer : CoreResult Unit) : AtMostOnce d answer.isOk [.sent d answer] := by
  refine ⟨.inr ⟨answer, rfl⟩, ?_⟩
  cases answer <;> simp [Except.isOk, Except.toBool]

/-- Whatever was sent, a failing client reports no success. -/
theorem AtMostOnce.lost {done : Bool} {seen : List Seen} (once : AtMostOnce d done seen) (e : ClientError) :
    AtMostOnce d false (seen ++ [.lost e]) := by
  have same : (seen ++ [Seen.lost e]).filterMap Seen.dispatched = seen.filterMap Seen.dispatched := by
    rw [List.filterMap_append]
    exact List.append_nil _
  refine ⟨by rw [same]; exact once.only, ?_⟩
  simp only [Bool.false_eq_true, false_iff, not_and]
  exact fun _ kept => kept e (by simp)

end AtMostOnce

/-! ### The daemon's handlers -/

namespace Daemon

variable {κ : Type}

def seen : Sigma (Ans (κ := κ)) → Option Seen
  | ⟨.cache (.hypr (.dispatch d)), answer⟩ => some (.sent d answer)
  | _ => none

def Response.isOk : HyprPilot.Response → Bool
  | .ok _ => true
  | .err .. => false

/-- The handler sends the dispatcher alone, and answers with success exactly if it was accepted. -/
abbrev Sends (d : Dispatcher) (p : Handler κ HyprPilot.Response) : Prop :=
  p.Leaves seen (fun response shown => AtMostOnce d (Response.isOk response) shown) []

/-- The last step that Hyprland sees: an error ends the handler, and what follows success is silent. -/
theorem sends_dispatch {d : Dispatcher} {k : CoreResult Unit → Handler κ HyprPilot.Response}
    (failed : ∀ e, k (.error e) = .ret (.ofCoreError e))
    (quiet : (k (.ok ())).Leaves seen (fun response shown => Response.isOk response = true ∧
      shown = [.sent d (.ok ())]) [.sent d (.ok ())]) :
    Sends d (.ask (.cache (.hypr (.dispatch d))) k) := by
  apply Prog.leaves_ask
  intro answer
  cases answer with
  | error e =>
    rw [failed e]
    exact atMostOnce_sent (.error e)
  | ok _ =>
    apply quiet.mono
    rintro response _ ⟨done, rfl⟩
    rw [done]
    exact atMostOnce_sent (.ok ())

theorem sends_void (d : Dispatcher) : Sends d (void d : Handler κ HyprPilot.Response) :=
  sends_dispatch (fun _ => rfl) ⟨rfl, rfl⟩

theorem sends_killActive : Sends .killActive (killActiveRecorded : Handler κ HyprPilot.Response) := by
  apply Prog.leaves_ask_silent fun _ => rfl
  intro window
  rcases window with e | (_ | active)
  · exact atMostOnce_nothing
  · exact atMostOnce_nothing
  · apply Prog.leaves_ask_silent fun _ => rfl
    intro bytes
    apply sends_dispatch fun _ => rfl
    cases readProcCmdline bytes with
    | none => exact ⟨rfl, rfl⟩
    | some command => exact Prog.leaves_ask_silent (fun _ => rfl) fun _ => ⟨rfl, rfl⟩

theorem sends_moveToWorkspace (workspace : WorkspaceRef) (silent : Bool) :
    Sends (if silent then .moveActiveToWorkspaceSilent workspace else .moveActiveToWorkspace workspace)
      (moveToWorkspaceRecorded workspace silent : Handler κ HyprPilot.Response) := by
  apply Prog.leaves_ask_silent fun _ => rfl
  intro window
  rcases window with e | (_ | active)
  · exact atMostOnce_nothing
  · exact atMostOnce_nothing
  · apply sends_dispatch fun _ => rfl
    exact Prog.leaves_ask_silent (fun _ => rfl) fun _ => ⟨rfl, rfl⟩

theorem sends_closeWindow (selector : WindowSelector) :
    Sends (.closeWindow selector) (closeWindowRecorded selector : Handler κ HyprPilot.Response) := by
  apply Prog.leaves_ask_silent fun _ => rfl
  intro clients
  cases clients with
  | error e => exact atMostOnce_nothing
  | ok clients =>
    show Prog.Leaves _ _ (inverseForMatched (clients.find? (selectorMatches selector)) >>= _) _
    cases clients.find? (selectorMatches selector) with
    | none =>
      apply sends_dispatch fun _ => rfl
      exact ⟨rfl, rfl⟩
    | some c =>
      apply Prog.leaves_ask_silent fun _ => rfl
      intro bytes
      apply sends_dispatch fun _ => rfl
      cases readProcCmdline bytes with
      | none => exact ⟨rfl, rfl⟩
      | some command => exact Prog.leaves_ask_silent (fun _ => rfl) fun _ => ⟨rfl, rfl⟩

theorem sends_handleRequest (state : State κ) {request : Request} {action : Engine.Action}
    (asks : request.action = some action) : Sends action.dispatcher (handleRequest state request) := by
  cases request with
  | dispatchKillActive =>
    cases asks
    exact sends_killActive
  | dispatchCloseWindow selector =>
    cases asks
    exact sends_closeWindow selector
  | dispatchMoveToWorkspace workspace =>
    cases asks
    exact sends_moveToWorkspace workspace false
  | dispatchMoveToWorkspaceSilent workspace =>
    cases asks
    exact sends_moveToWorkspace workspace true
  | _ => cases asks <;> exact sends_void _

end Daemon

/-! ### The daemon's clients -/

namespace Mcp.Stack

variable {κ : Type} (state : Daemon.State κ)

def seen : Sigma (Ans (κ := κ)) → Option Seen
  | ⟨.daemon c, x⟩ => Daemon.seen ⟨c, x⟩
  | ⟨.reach, some e⟩ => some (.lost e)
  | _ => none

/-- A call of the daemon's client. -/
theorem sends_serve {request : Request} {action : Engine.Action} (asks : request.action = some action) :
    (serve state (.daemon request)).Leaves seen
      (fun answer shown => AtMostOnce action.dispatcher answer.isOk shown) [] := by
  apply Prog.leaves_ask
  intro reached
  cases reached with
  | some e => exact atMostOnce_nothing.lost e
  | none =>
    show Prog.Leaves _ _ (handled state request >>= _) _
    refine Prog.leaves_bind.mpr (Prog.Leaves.mono ?_
      ((Daemon.sends_handleRequest state asks).relabel fun _ _ => rfl))
    intro response shown once
    apply Prog.leaves_ask
    intro reached
    cases reached with
    | some e => exact once.lost e
    | none =>
      have same : (outcome response).isOk = Daemon.Response.isOk response := by cases response <;> rfl
      show AtMostOnce _ (outcome response).isOk (shown ++ [])
      rwa [same, List.append_nil]

end Mcp.Stack

/-! ### The ways -/

/-- The tool did what it was called for: neither an error nor a result marked as one. -/
def JsonRpcResponse.done (response : JsonRpcResponse) : Bool :=
  match response.result with
  | some (.called result) => !result.isError
  | _ => false

theorem done_toolError (id : Json) (code : ErrorCode) (message : String) :
    (toolError id code message).done = false := by cases code <;> rfl

namespace Routes

/-- What happens on the way to the daemon, and what server and daemon do themselves. -/
inductive Cmd (κ : Type) where
  | discover
  | connect (socket : String)
  | stack (c : Mcp.Stack.Cmd κ)

@[reducible] def Ans {κ : Type} : Cmd κ → Type
  | .discover => CoreResult Unit
  | .connect _ => Except ClientError Unit
  | .stack c => Mcp.Stack.Ans c

variable {κ : Type} (state : Daemon.State κ)

/-- Everybody uses the same control socket. -/
@[reducible] def hypr (c : Connection.Cmd) : Cmd κ := .stack (.daemon (.cache (.hypr c)))

def serve : (c : Control.Cmd) → Prog (Cmd κ) Ans (Control.Ans c)
  | .discover => .call Cmd.discover
  | .hypr c => .call (hypr c)
  | .connect socket => .call (Cmd.connect socket)
  | .call request => (Mcp.Stack.serve state (.daemon request)).relabel Cmd.stack fun _ x => x

inductive Route where
  | rule (text : String)
  | tool (server : Mcp.Server) (id : Json) (params : CallToolParams)
  | command (command : Control.Command) (options : Control.Options)

/-- Whether success is reported: to the log, to the session, or by the exit code. -/
def Route.run : Route → Prog (Cmd κ) Ans Bool
  | .rule text =>
    match Engine.Action.parse text with
    | .error _ => return false
    | .ok action => do return (← action.execute.relabel hypr fun _ x => x).isOk
  | .tool server id params => do
    let call := (server.callTool id params).through (Mcp.Stack.serve state)
    return (← call.relabel Cmd.stack fun _ x => x).done
  | .command c options => do return (← (Control.run c options).through (serve state)).isOk

inductive Route.Means : Route → Engine.Action → Prop
  | rule {text : String} {action : Engine.Action} :
    Engine.Action.parse text = .ok action → Means (.rule text) action
  | tool {server : Mcp.Server} {id : Json} {params : CallToolParams} {request : Request}
      {action : Engine.Action} :
    Tools.dispatch params.name params.arguments = .ok (.forward request) →
    request.action = some action → Means (.tool server id params) action
  | command {command : Control.Command} {options : Control.Options} {action : Engine.Action} :
    command.action = some action → Means (.command command options) action

def seen : Sigma (Ans (κ := κ)) → Option Seen
  | ⟨.stack c, x⟩ => Mcp.Stack.seen ⟨c, x⟩
  | _ => none

/-! ### A rule -/

theorem sends_execute (action : Engine.Action) :
    (action.execute.relabel hypr fun _ x => x : Prog (Cmd κ) Ans (CoreResult Unit)).Leaves seen
      (fun answer shown => AtMostOnce action.dispatcher answer.isOk shown) [] := by
  apply Prog.leaves_ask
  intro answer
  exact atMostOnce_sent answer

/-! ### A tool call -/

theorem sends_forward (id : Json) {request : Request} {action : Engine.Action}
    (asks : request.action = some action) :
    ((Mcp.forward id request).through (Mcp.Stack.serve state)).Leaves Mcp.Stack.seen
      (fun response shown => AtMostOnce action.dispatcher response.done shown) [] := by
  show Prog.Leaves _ _ (Mcp.Stack.serve state (.daemon request) >>= _) _
  refine Prog.leaves_bind.mpr (Prog.Leaves.mono ?_ (Mcp.Stack.sends_serve state asks))
  intro answer shown once
  cases answer with
  | error e =>
    apply Prog.leaves_ask_silent fun _ => rfl
    intro _
    show AtMostOnce _ (toolError id _ _).done shown
    rw [done_toolError]
    exact once
  | ok value => exact once

theorem sends_callTool (server : Mcp.Server) (id : Json) {params : CallToolParams} {request : Request}
    {action : Engine.Action} (accepted : Tools.dispatch params.name params.arguments = .ok (.forward request))
    (asks : request.action = some action) :
    ((server.callTool id params).through (Mcp.Stack.serve state)).Leaves Mcp.Stack.seen
      (fun response shown => AtMostOnce action.dispatcher response.done shown) [] := by
  have refused (code : ErrorCode) (message : String) :
      AtMostOnce action.dispatcher (toolError id code message).done [] := by
    rw [done_toolError]
    exact atMostOnce_nothing
  unfold Mcp.Server.callTool
  cases named : Tool.named params.name with
  | none => exact refused _ _
  | some tool =>
    dsimp only
    split
    · rw [accepted]
      exact sends_forward state id asks
    · exact refused _ _

/-! ### A command -/

/-- Success is reported exactly if the command ended well. -/
abbrev Ends (d : Dispatcher) (p : Control.Session Control.Outcome) : Prop :=
  (p.through (serve state)).Leaves seen (fun outcome shown => AtMostOnce d outcome.isOk shown) []

/-- A dispatcher sent from the command line itself. -/
theorem ends_dispatched (d : Dispatcher) (printed : Control.Printed) :
    Ends state d (Control.openHyprland.andThen fun () =>
      (Control.onHyprland (Connection.dispatch d)).andThen fun () => return .ok printed) := by
  apply Prog.leaves_ask_silent fun _ => rfl
  intro found
  cases found with
  | error e => exact atMostOnce_nothing
  | ok _ =>
    apply Prog.leaves_ask
    intro answer
    have sent := atMostOnce_sent (d := d) answer
    cases answer <;> exact sent

theorem ends_viaDaemon (socket : String) {request : Request} {action : Engine.Action}
    (asks : request.action = some action) :
    Ends state action.dispatcher (Control.viaDaemon socket (.ok request)) := by
  apply Prog.leaves_ask_silent fun _ => rfl
  intro connected
  cases connected with
  | error e => exact atMostOnce_nothing
  | ok _ =>
    show Prog.Leaves _ _ ((Mcp.Stack.serve state (.daemon request)).relabel Cmd.stack _ >>= _) _
    refine Prog.leaves_bind.mpr (Prog.Leaves.mono ?_
      ((Mcp.Stack.sends_serve state asks).relabel fun _ _ => rfl))
    intro answer shown once
    cases answer <;> exact once

/-- A window command has one dispatcher, and one request that asks for the same. -/
theorem asked_win {w : Control.WinCmd} {action : Engine.Action}
    (asks : (Control.Command.win w).action = some action) : w.dispatcher = .ok action.dispatcher ∧
      ∃ request, w.request = .ok request ∧ request.action = some action := by
  cases w with
  | focus s | close s =>
    obtain ⟨selector, parsed, rfl⟩ := Option.map_eq_some_iff.mp asks
    have read : Control.parseSelector s = .ok selector := by
      cases given : WindowSelector.parse s with
      | error e => simp [given, Except.toOption] at parsed
      | ok other =>
        obtain rfl : other = selector := by simpa [given, Except.toOption] using parsed
        rw [Control.parseSelector, given]
        rfl
    simp only [Control.WinCmd.dispatcher, Control.WinCmd.request, read]
    exact ⟨rfl, _, rfl, rfl⟩
  | cycle prev =>
    cases asks
    cases prev <;> exact ⟨rfl, _, rfl, rfl⟩
  | _ =>
    cases asks
    exact ⟨rfl, _, rfl, rfl⟩

theorem asked_ws {w : Control.WsCmd} {action : Engine.Action}
    (asks : (Control.Command.ws w).action = some action) :
    w.dispatcher = action.dispatcher ∧ w.request.action = some action := by
  cases w <;> cases asks <;> exact ⟨rfl, rfl⟩

theorem ends_run {command : Control.Command} {action : Engine.Action} (asks : command.action = some action)
    (options : Control.Options) : Ends state action.dispatcher (Control.run command options) := by
  cases command with
  | win w =>
    obtain ⟨direct, request, built, requested⟩ := asked_win asks
    unfold Control.run Control.runWin
    dsimp only
    split
    · rw [built]
      exact ends_viaDaemon state _ requested
    · rw [direct]
      exact ends_dispatched state _ .ok
  | ws w =>
    obtain ⟨direct, requested⟩ := asked_ws asks
    unfold Control.run Control.runWs
    dsimp only
    split
    · exact ends_viaDaemon state _ requested
    · rw [direct]
      exact ends_dispatched state _ .ok
  | exec words =>
    cases asks
    exact ends_dispatched state _ (.spawned _)
  | _ => cases asks

/-! ### What a rule can say -/

/-- A tool call and a command ask for the action, whatever the server and the options. -/
def Askable (action : Engine.Action) : Prop :=
  (∃ params, ∀ server id, (Route.tool server id params).Means action) ∧
    ∃ command, ∀ options, (Route.command command options).Means action

section Askable

variable {action : Engine.Action}

theorem askable (name : String) (args : Json) (request : Request) (command : Control.Command)
    (accepted : Tools.dispatch name args = .ok (.forward request)) (asks : request.action = some action)
    (same : command.action = some action) : Askable action :=
  ⟨⟨⟨name, args⟩, fun _ _ => .tool accepted asks⟩, command, fun _ => .command same⟩

/-- The arguments of a call that is to be applied. -/
def wet (fields : List (String × Json)) : Json := .obj (fields ++ [("dry_run", .bool false)])

/-- A tool with one text, which has to parse. -/
theorem accepted_parsed {α : Type} (name field : String) (build : α → Request) {text : String}
    {read : Except String α} {a : α} (parsed : read = .ok a)
    (shape : Tools.dispatch name (wet [(field, .str text)]) =
      Tools.checked name read >>= fun a => .ok (.forward (build a))) :
    Tools.dispatch name (wet [(field, .str text)]) = .ok (.forward (build a)) := by
  rw [shape, parsed]
  rfl

theorem askable_focusWindow {s : String} {sel : WindowSelector} (parsed : WindowSelector.parse s = .ok sel) :
    Askable (.focusWindow sel) :=
  askable _ _ _ (.win (.focus s))
    (accepted_parsed "focus_window" "selector" .dispatchFocusWindow parsed rfl) rfl
    (by simp [Control.Command.action, parsed, Except.toOption])

theorem askable_closeWindow {s : String} {sel : WindowSelector} (parsed : WindowSelector.parse s = .ok sel) :
    Askable (.closeWindow sel) :=
  askable _ _ _ (.win (.close s))
    (accepted_parsed "close_window" "selector" .dispatchCloseWindow parsed rfl) rfl
    (by simp [Control.Command.action, parsed, Except.toOption])

theorem askable_setFullscreen (mode : FullscreenMode) : Askable (.setFullscreen mode) := by
  apply askable "set_fullscreen" (wet [("mode", .str (Tools.modeName mode))]) (.dispatchFullscreen mode)
    (.win (.fullscreen mode))
  · cases mode <;> rfl
  · rfl
  · rfl

/-- The letter of a direction, as the tools and the rules spell it. -/
def letter : Direction → String
  | .left => "l"
  | .right => "r"
  | .up => "u"
  | .down => "d"

theorem askable_resizeActive {dx dy : Int} (fits : Machine.InI32 dx ∧ Machine.InI32 dy) :
    Askable (.resizeActive dx dy) := by
  apply askable "resize_active" (wet [("dx", .int dx), ("dy", .int dy)]) (.dispatchResizeActive dx dy)
    (.win (.resize dx dy))
  · have number {n : Int} (inside : Machine.InI32 n) : Json.asI32 (.int n) = .ok n := if_pos inside
    have read : ResizeArgs.ofJson (wet [("dx", .int dx), ("dy", .int dy)]) = .ok ⟨dx, dy, false⟩ := by
      show (Json.asI32 (.int dx) >>= fun dx => Json.asI32 (.int dy) >>= fun dy =>
        .ok (⟨dx, dy, false⟩ : ResizeArgs)) = _
      rw [number fits.1, number fits.2]
      rfl
    show (Tools.checked "resize_active" (ResizeArgs.ofJson (wet _)) >>= _) = _
    rw [read]
    rfl
  · rfl
  · rfl

theorem said_plain {check : Engine.Parse Unit} {said : Engine.Action}
    (parsed : (check >>= fun _ => .ok said) = .ok action) : said = action := by
  obtain ⟨_, -, ending⟩ := Collect.bind_ok parsed
  cases ending
  rfl

theorem said_parsed {α : Type} {check : Engine.Parse Unit} {read : Engine.Parse α}
    {build : α → Engine.Action}
    (parsed : (check >>= fun _ => read >>= fun a => .ok (build a)) = .ok action) :
    ∃ a, read = .ok a ∧ build a = action := by
  obtain ⟨_, -, rest⟩ := Collect.bind_ok parsed
  obtain ⟨a, found, ending⟩ := Collect.bind_ok rest
  cases ending
  exact ⟨a, found, rfl⟩

/-- Whatever the text of a rule can say. -/
theorem askable_ofVerb {verb rest : String} (parsed : Engine.Action.ofVerb verb rest = .ok action) :
    Askable action := by
  unfold Engine.Action.ofVerb at parsed
  split at parsed
  · obtain ⟨sel, read, rfl⟩ := said_parsed parsed
    exact askable_focusWindow (Collect.mapError_ok.mp read)
  · obtain ⟨sel, read, rfl⟩ := said_parsed parsed
    exact askable_closeWindow (Collect.mapError_ok.mp read)
  · obtain rfl := said_plain parsed
    exact askable "kill_active" (wet []) _ (.win .kill) rfl rfl rfl
  · obtain rfl := said_plain parsed
    exact askable "cycle_next" (wet []) _ (.win (.cycle false)) rfl rfl rfl
  · obtain rfl := said_plain parsed
    exact askable "cycle_prev" (wet []) _ (.win (.cycle true)) rfl rfl rfl
  · obtain ⟨workspace, read, rfl⟩ := said_parsed parsed
    exact askable _ _ _ (.ws (.switch workspace)) (accepted_parsed "switch_workspace" "target"
      .dispatchSwitchWorkspace (Collect.mapError_ok.mp read) rfl) rfl rfl
  · obtain ⟨workspace, read, rfl⟩ := said_parsed parsed
    exact askable _ _ _ (.ws (.send workspace)) (accepted_parsed "move_to_workspace" "target"
      .dispatchMoveToWorkspace (Collect.mapError_ok.mp read) rfl) rfl rfl
  · obtain ⟨workspace, read, rfl⟩ := said_parsed parsed
    exact askable _ _ _ (.ws (.sendSilent workspace)) (accepted_parsed "move_to_workspace_silent" "target"
      .dispatchMoveToWorkspaceSilent (Collect.mapError_ok.mp read) rfl) rfl rfl
  · obtain rfl := said_plain parsed
    exact askable "toggle_floating" (wet []) _ (.win .float) rfl rfl rfl
  · obtain ⟨mode, -, rfl⟩ := said_parsed parsed
    exact askable_setFullscreen mode
  · obtain rfl := said_plain parsed
    exact askable "center_active" (wet []) _ (.win .center) rfl rfl rfl
  · obtain rfl := said_plain parsed
    exact askable "pin_active" (wet []) _ (.win .pin) rfl rfl rfl
  · obtain rfl := said_plain parsed
    exact askable "pin_active" (wet []) _ (.win .pin) rfl rfl rfl
  · obtain ⟨dir, -, ending⟩ := Collect.bind_ok parsed
    cases ending
    apply askable "move_active" (wet [("direction", .str (letter dir))]) (.dispatchMoveActive dir)
      (.win (.move dir)) ?_ rfl rfl
    cases dir <;> rfl
  · obtain ⟨dir, -, ending⟩ := Collect.bind_ok parsed
    cases ending
    apply askable "swap_active" (wet [("direction", .str (letter dir))]) (.dispatchSwapActive dir)
      (.win (.swap dir)) ?_ rfl rfl
    cases dir <;> rfl
  · split at parsed
    · cases parsed
    · cases parsed
    · obtain ⟨dx, first, rest⟩ := Collect.bind_ok parsed
      obtain ⟨dy, second, ending⟩ := Collect.bind_ok rest
      cases ending
      exact askable_resizeActive ⟨Text.parseI32_inI32 (Collect.mapError_ok.mp first),
        Text.parseI32_inI32 (Collect.mapError_ok.mp second)⟩
    · cases parsed
  · obtain rfl := said_plain parsed
    exact askable "exec" (wet [("command", .str _)]) _ (.exec [_]) rfl rfl rfl
  · obtain rfl := said_plain parsed
    exact askable "focus_monitor" (wet [("name_or_direction", .str _)]) _ (.ws (.focusMonitor _)) rfl rfl rfl
  · obtain rfl := said_plain parsed
    exact askable "move_workspace_to_monitor" (wet [("monitor", .str _)]) _ (.ws (.toMonitor _)) rfl rfl rfl
  · cases parsed

theorem askable_parse {text : String} (parsed : Engine.Action.parse text = .ok action) : Askable action := by
  unfold Engine.Action.parse at parsed
  dsimp only at parsed
  split at parsed
  · cases parsed
  · exact askable_ofVerb parsed

end Askable

/-! ### Whichever way is taken -/

theorem sends_route {route : Route} {action : Engine.Action} (means : route.Means action) :
    (route.run state).Leaves seen (fun done shown => AtMostOnce action.dispatcher done shown) [] := by
  cases means with
  | rule parsed =>
    simp only [Route.run, parsed]
    exact Prog.leaves_bind.mpr (sends_execute action)
  | tool accepted asks =>
    exact Prog.leaves_bind.mpr ((sends_callTool state _ _ accepted asks).relabel fun _ _ => rfl)
  | command asks => exact Prog.leaves_bind.mpr (ends_run state asks _)

variable {state}

/-- Each way sends the action's dispatcher at most once and reports success exactly where it was
accepted and the client did not fail; and what a rule can say, a tool call and a command can say too. -/
theorem routes_at_most_once {route : Route} {action : Engine.Action} (means : route.Means action)
    {tr : List (Sigma (Ans (κ := κ)))} {done : Bool} (run : Prog.Run (route.run state) tr done) :
    AtMostOnce action.dispatcher done (tr.filterMap seen) ∧
      ∀ text, Engine.Action.parse text = .ok action → Askable action :=
  ⟨(sends_route state means).of_run run, fun _ parsed => askable_parse parsed⟩

def killing : Route := .command (.win .kill) ⟨true, "/run/hyprpilot.sock"⟩

/-- The window is killed, and the connection breaks before the answer. -/
def killed : List (Sigma (Ans (κ := Daemon.StateFile))) :=
  [⟨.connect "/run/hyprpilot.sock", .ok ()⟩, ⟨.stack .reach, none⟩,
    ⟨hypr (.query .activeWindow), .ok (some Daemon.kitty)⟩,
    ⟨.stack (.daemon (.procCmdline Daemon.kitty.pid)), none⟩, ⟨hypr (.dispatch .killActive), .ok ()⟩,
    ⟨.stack .reach, some .closed⟩]

theorem run_killing : Prog.Run (killing.run Daemon.plainState) killed false :=
  .ask _ (.ask _ (.ask _ (.ask _ (.ask _ (.ask _ (.ret _))))))

theorem routes_at_most_once_lost :
    AtMostOnce .killActive false [.sent .killActive (.ok ()), .lost .closed] ∧
      ∀ text, Engine.Action.parse text = .ok .killActive → Askable .killActive :=
  @routes_at_most_once _ _ killing .killActive (.command rfl) killed false run_killing

end Routes

end HyprPilot
