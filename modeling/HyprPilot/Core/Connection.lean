import HyprPilot.Base.Prog
import HyprPilot.Core.Dispatch

/-!
# The control socket

One command is one round trip on Hyprland's control socket: a query, or a dispatcher that Hyprland
accepts or rejects. A connection is stateless, so a program over these commands is all that a
method of `Connection` is. The system clock, which a capture reads, is a command as well.
-/

namespace HyprPilot
open Interact

inductive Query where
  | version | clients | workspaces | monitors | binds | activeWorkspace | activeWindow | cursorPos
  deriving DecidableEq

@[reducible] def Query.Reply : Query → Type
  | .version => Version
  | .clients => List Client
  | .workspaces => List Workspace
  | .monitors => List Monitor
  | .binds => List Bind
  | .activeWorkspace => ActiveWorkspace
  | .activeWindow => Option Client
  | .cursorPos => CursorPos

namespace Connection

inductive Cmd where
  | query (q : Query)
  | dispatch (d : Dispatcher)
  | nowUnix

@[reducible] def Ans : Cmd → Type
  | .query q => CoreResult q.Reply
  | .dispatch _ => CoreResult Unit
  | .nowUnix => Int

abbrev Call (α : Type) := Prog Cmd Ans α

abbrev query (q : Query) : Call (CoreResult q.Reply) := .call (Cmd.query q)

abbrev dispatch (d : Dispatcher) : Call (CoreResult Unit) := .call (Cmd.dispatch d)

abbrev nowUnix : Call Int := .call Cmd.nowUnix

/-- Hyprland sends no readable modifier names, so each `modmask` is decoded after the query. -/
def binds : Call (CoreResult (List Bind)) := do
  match ← query .binds with
  | .ok binds => return .ok (binds.map fun b => { b with mods := Bind.decodeMods b.modmask })
  | .error e => return .error e

end Connection

end HyprPilot
