import HyprPilot.Base.Collect
import HyprPilot.Daemon.Engine
import HyprPilot.Daemon.Protocol

/-!
# Rules

The grammar of a rule's action strings, the compilation of a configuration, and what the engine does
with one event.
-/

namespace HyprPilot
open Interact

/-! ### Actions -/

namespace Engine

inductive ParseError where
  | empty
  | unknownVerb (verb : String)
  | wrongArgCount (verb : String) (expected got : Nat)
  | invalidArg (verb arg reason : String)
  deriving DecidableEq

def ParseError.text : ParseError → String
  | .empty => "action string is empty"
  | .unknownVerb verb => "unknown action verb `" ++ verb ++ "`"
  | .wrongArgCount verb expected got =>
    "action `" ++ verb ++ "` requires " ++ toString expected ++ " arg(s), got " ++ toString got
  | .invalidArg verb arg reason =>
    "action `" ++ verb ++ "` arg `" ++ arg ++ "` is invalid: " ++ reason

abbrev Parse (α : Type) := Except ParseError α

def requireEmpty (verb rest : String) : Parse Unit :=
  if rest = "" then .ok ()
  else .error (.wrongArgCount verb 0 (Text.splitWhitespace rest).length)

def requireNonempty (verb argName rest : String) : Parse Unit :=
  if rest = "" then .error (.invalidArg verb argName "missing required argument") else .ok ()

def parseWindow (verb s : String) : Parse WindowSelector :=
  (WindowSelector.parse s).mapError (.invalidArg verb s)

def parseWs (verb s : String) : Parse WorkspaceRef :=
  (WorkspaceRef.parse s).mapError (.invalidArg verb s)

def parseDir (verb s : String) : Parse Direction :=
  match s with
  | "l" | "left" => .ok .left
  | "r" | "right" => .ok .right
  | "u" | "up" => .ok .up
  | "d" | "down" => .ok .down
  | "" => .error (.invalidArg verb "" "missing direction (l/r/u/d)")
  | other => .error (.invalidArg verb other "expected one of l/r/u/d")

def parseMode (verb s : String) : Parse FullscreenMode :=
  match s with
  | "0" | "maximize" => .ok .maximize
  | "1" | "fullscreen" => .ok .fullscreen
  | other => .error (.invalidArg verb other "expected `0`/`maximize` or `1`/`fullscreen`")

def parseOffset (verb axis s : String) : Parse Int :=
  (Text.parseI32 s).mapError fun e => .invalidArg verb s (axis ++ ": " ++ e.text)

/-- The verb is what stands before the first blank. -/
def verbAndRest (trimmed : String) : String × String :=
  let verb := trimmed.toList.takeWhile fun c => !Text.isWhite c
  let rest := trimmed.toList.dropWhile fun c => !Text.isWhite c
  (String.ofList verb, Text.trim (String.ofList (rest.drop 1)))

def Action.ofVerb (verb rest : String) : Parse Action :=
  match verb with
  | "focus_window" => do
    requireNonempty verb "selector" rest
    return .focusWindow (← parseWindow verb rest)
  | "close_window" => do
    requireNonempty verb "selector" rest
    return .closeWindow (← parseWindow verb rest)
  | "kill_active" => do requireEmpty verb rest; return .killActive
  | "cycle_next" => do requireEmpty verb rest; return .cycleNext
  | "cycle_prev" => do requireEmpty verb rest; return .cyclePrev
  | "switch_workspace" => do
    requireNonempty verb "workspace" rest
    return .switchWorkspace (← parseWs verb rest)
  | "move_to_workspace" => do
    requireNonempty verb "workspace" rest
    return .moveToWorkspace (← parseWs verb rest)
  | "move_to_workspace_silent" => do
    requireNonempty verb "workspace" rest
    return .moveToWorkspaceSilent (← parseWs verb rest)
  | "toggle_floating" => do requireEmpty verb rest; return .toggleFloating
  | "fullscreen" => do
    requireNonempty verb "mode" rest
    return .setFullscreen (← parseMode verb rest)
  | "center_active" => do requireEmpty verb rest; return .centerActive
  | "pin" | "pin_active" => do requireEmpty verb rest; return .pinActive
  | "move_active" => return .moveActive (← parseDir verb rest)
  | "swap_active" => return .swapActive (← parseDir verb rest)
  | "resize_active" =>
    match Text.splitWhitespace rest with
    | [] => .error (.wrongArgCount verb 2 0)
    | [_] => .error (.wrongArgCount verb 2 1)
    | [dx, dy] => do
      let dx ← parseOffset verb "dx" dx
      let dy ← parseOffset verb "dy" dy
      return .resizeActive dx dy
    | _ => .error (.wrongArgCount verb 2 3)
  | "exec" => do
    requireNonempty verb "command" rest
    return .exec rest
  | "focus_monitor" => do
    requireNonempty verb "monitor" rest
    return .focusMonitor rest
  | "move_workspace_to_monitor" => do
    requireNonempty verb "monitor" rest
    return .moveWorkspaceToMonitor rest
  | other => .error (.unknownVerb other)

def Action.parse (input : String) : Parse Action :=
  let trimmed := Text.trim input
  if trimmed = "" then .error .empty
  else
    let (verb, rest) := verbAndRest trimmed
    Action.ofVerb verb rest

/-- The error carries the index of the string that does not parse. -/
def parseAll (actions : List String) : Except (Nat × ParseError) (List Action) :=
  Collect.collect (fun i s => (Action.parse s).mapError fun e => (i, e)) 0 actions

end Engine

/-! ### Rules -/

namespace Rule

def label (rule : Rule) (index : Nat) : String :=
  match rule.name with
  | some name => name
  | none => "rule[" ++ toString index ++ "] on=" ++ rule.on

def predicateMatches (rule : Rule) (fields : List (String × String)) : Bool :=
  rule.when.all fun (key, value) => fields.lookup key = some value

end Rule

namespace Engine

def compileRule (i : Nat) (rule : Rule) : Except String CompiledRule := do
  let actions ← (parseAll rule.actions).mapError fun (idx, e) =>
    rule.label i ++ ": action[" ++ toString idx ++ "]: " ++ e.text
  return { label := rule.label i, on := rule.on, when := rule.when, actions := actions }

def compile (config : RuleConfig) : Except String (List CompiledRule) :=
  Collect.collect compileRule 0 config.rules

example : compile ⟨[⟨some "slack", "openwindow", [], ["pin", "frobnicate"]⟩]⟩ =
    .error "slack: action[1]: unknown action verb `frobnicate`" := by rfl

example : compile ⟨[⟨none, "openwindow", [("class", "Slack")], [" resize_active  10 -20", "pin"]⟩]⟩ =
    .ok [⟨"rule[0] on=openwindow", "openwindow", [("class", "Slack")],
      [.resizeActive 10 (-20), .pinActive]⟩] := by rfl

/-! ### One event -/

/-- The result of an action only goes to the log. -/
def executeAll : List Action → Connection.Call Unit
  | [] => return ()
  | action :: rest => do
    let _ ← action.execute
    executeAll rest

def executeFirst (event : Event) : List CompiledRule → Connection.Call Unit
  | [] => return ()
  | rule :: rules =>
    if rule.on ≠ event.kind then executeFirst event rules
    else if ¬ predicateMatches rule.when event.fields then executeFirst event rules
    else executeAll rule.actions

def handleEvent (rules : List CompiledRule) (guard : ReentranceGuard) (event : Event) :
    Connection.Call Unit :=
  if guard.isInhibited then return () else executeFirst event rules

end Engine

end HyprPilot
