import HyprPilot.Base.Prog
import HyprPilot.Input.Chords
import HyprPilot.Input.VirtualPointer

/-!
# The input runner

The backends that the daemon finds at its start, and the programs by which it types, strikes a combo
and moves or clicks the pointer: over the processes it starts, the files it looks for and the virtual
pointer's worker.
-/

namespace HyprPilot
open Interact

/-! ### What is found at startup -/

structure BackendAvailability where
  wtype : Option String
  ydotool : Option String
  ydotooldSocket : String
  deriving DecidableEq

/-- `Path::join` with a relative name. -/
def pushPath (dir name : String) : String :=
  if dir.isEmpty || dir.toList.getLast? = some '/' then dir ++ name else dir ++ "/" ++ name

/-- The first directory of `$PATH` with an executable of the name. -/
def which (path : Option String) (isExecutable : String → Bool) (name : String) : Option String :=
  match path with
  | none => none
  | some path => ((Text.splitOn ':' path).map (pushPath · name)).find? isExecutable

def ydotooldSocketPath (env : String → Option String) : String :=
  match env "YDOTOOL_SOCKET" with
  | some explicit => explicit
  | none =>
    match env "XDG_RUNTIME_DIR" with
    | some runtime => pushPath runtime ".ydotool_socket"
    | none => "/tmp/.ydotool_socket"

def BackendAvailability.detect (env : String → Option String) (isExecutable : String → Bool) :
    BackendAvailability where
  wtype := which (env "PATH") isExecutable "wtype"
  ydotool := which (env "PATH") isExecutable "ydotool"
  ydotooldSocket := ydotooldSocketPath env

/-- `virtualPointer` tells whether the compositor's protocol could be attached. -/
structure InputRunner where
  backends : BackendAvailability
  virtualPointer : Bool
  deriving DecidableEq

namespace InputRunner

/-- `selection` is the environment's `HYPRPILOT_INPUT_BACKEND`. -/
def detectWith (selection : Option String) (backends : BackendAvailability) (attached : Bool) :
    Except InputError InputRunner :=
  match selection with
  | none | some "" | some "wtype" => .ok ⟨backends, attached⟩
  | some "libei" => .error (.invalidBackendSelection "libei (rebuild with `--features libei`)")
  | some other => .error (.invalidBackendSelection other)

/-- A refused selection falls back to the default backends. -/
def detect (env : String → Option String) (isExecutable : String → Bool) (attached : Bool) : InputRunner :=
  let backends := BackendAvailability.detect env isExecutable
  match detectWith (env "HYPRPILOT_INPUT_BACKEND") backends attached with
  | .ok runner => runner
  | .error _ => ⟨backends, attached⟩

/-! ### Processes -/

/-- `piped` tells whether the process reads from the runner; otherwise it has no input. -/
structure Command where
  program : String
  args : List String
  env : List (String × String)
  piped : Bool
  deriving DecidableEq

/-- A process that a signal ended has no code. -/
structure Output where
  code : Option Int
  stderr : List UInt8

/-- What the handle of the pointer's worker learns of a command. -/
inductive PointerReply where
  | gone
  | dropped
  | replied (result : Except InputError Unit)

inductive Cmd where
  | socketExists (path : String)
  | spawn (command : Command)
  | writeAll (child : Nat) (text : String)
  | waitWithOutput (child : Nat)
  | pointer (command : VirtualPointer.Cmd)

@[reducible] def Ans : Cmd → Type
  | .socketExists _ => Bool
  | .spawn _ => Except String Nat
  | .writeAll _ _ => Except String Unit
  | .waitWithOutput _ => Except String Output
  | .pointer _ => PointerReply

abbrev Call (α : Type) := Prog Cmd Ans α

abbrev Outcome := Except InputError Unit

abbrev host (c : Cmd) : Call (Ans c) := .call c

def finish (backend : String) (output : Output) : Outcome :=
  if output.code = some 0 then .ok ()
  else .error (.backendFailed backend ((output.code.map toString).getD "<signal>")
    (Text.trim (Text.utf8Lossy output.stderr)))

def waited (backend : String) (child : Nat) : Call Outcome := do
  match ← host (.waitWithOutput child) with
  | .error e => return .error (.io e)
  | .ok output => return finish backend output

/-- A process without input runs to its end. -/
def run (backend : String) (command : Command) : Call Outcome := do
  match ← host (.spawn command) with
  | .error e => return .error (.io e)
  | .ok child => waited backend child

/-- The text goes to a piped process, of which nothing more is awaited when that fails. -/
def feed (backend : String) (command : Command) (text : String) : Call Outcome := do
  match ← host (.spawn command) with
  | .error e => return .error (.io e)
  | .ok child =>
    match ← host (.writeAll child text) with
    | .error e => return .error (.io e)
    | .ok () => waited backend child

/-! ### The `wtype` and `ydotool` backend -/

section Backends

variable (backends : BackendAvailability)

def wtypeCommand (wtype : String) (args : List String) (piped : Bool) : Command := ⟨wtype, args, [], piped⟩

def ydotoolCommand (ydotool : String) (args : List String) : Command :=
  ⟨ydotool, args, [("YDOTOOL_SOCKET", backends.ydotooldSocket)], false⟩

def typeTextWtype (text : String) : Call Outcome :=
  match backends.wtype with
  | none => return .error (.backendMissing "wtype")
  | some wtype => if text.isEmpty then return .ok () else feed "wtype" (wtypeCommand wtype ["-"] true) text

def pressKeysWtype (combo : KeyCombo) : Call Outcome :=
  match backends.wtype with
  | none => return .error (.backendMissing "wtype")
  | some wtype => run "wtype" (wtypeCommand wtype combo.encodeWtype false)

/-- `ydotool` first, whose keys the compositor's binds see; `wtype` where that cannot strike the key. -/
def pressKeysBackend (combo : KeyCombo) : Call Outcome :=
  match backends.ydotool with
  | none => pressKeysWtype backends combo
  | some ydotool => do
    match ← host (.socketExists backends.ydotooldSocket) with
    | true =>
      match combo.encodeYdotoolKey with
      | .ok argv => run "ydotool" (ydotoolCommand backends ydotool ("key" :: argv))
      | .error _ => pressKeysWtype backends combo
    | false => pressKeysWtype backends combo

/-- The pointer by `ydotool`, which must be installed and its daemon reachable. -/
def viaYdotool (args : List String) : Call Outcome :=
  match backends.ydotool with
  | none => return .error (.backendMissing "ydotool")
  | some ydotool => do
    match ← host (.socketExists backends.ydotooldSocket) with
    | false => return .error (.daemonNotReachable "ydotoold")
    | true => run "ydotool" (ydotoolCommand backends ydotool args)

end Backends

/-- `--` ends the options, so that no coordinate is read as one. -/
def ydotoolMousemoveArgv (x y : Int) (absolute : Bool) : List String :=
  ["mousemove"] ++ (if absolute then ["-a"] else []) ++ ["--", toString x, toString y]

end InputRunner

def MouseButton.ydotoolClickCode : MouseButton → String
  | .left => "0xC0"
  | .right => "0xC1"
  | .middle => "0xC2"
  | .x1 => "0xC3"
  | .x2 => "0xC4"

namespace InputRunner

/-! ### The virtual pointer's handle -/

def pointerCall (command : VirtualPointer.Cmd) : Call Outcome := do
  match ← host (.pointer command) with
  | .gone => return .error (.virtualPointer "worker thread is gone")
  | .dropped => return .error (.virtualPointer "worker dropped reply channel")
  | .replied result => return result

/-! ### The runner -/

variable (runner : InputRunner)

def typeText (text : String) : Call Outcome := typeTextWtype runner.backends text

def pressKeys (combo : KeyCombo) : Call Outcome := pressKeysBackend runner.backends combo

def mouseMove (x y : Int) (absolute : Bool) : Call Outcome :=
  if runner.virtualPointer then pointerCall (if absolute then .moveAbs x y else .moveRel x y)
  else viaYdotool runner.backends (ydotoolMousemoveArgv x y absolute)

def mouseClick (button : MouseButton) : Call Outcome :=
  if runner.virtualPointer then pointerCall (.click (VirtualPointer.evdevButton button))
  else viaYdotool runner.backends ["click", button.ydotoolClickCode]

end InputRunner

end HyprPilot
