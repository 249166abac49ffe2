import HyprPilot.Base.Int32

/-!
# Views of Hyprland's replies

The records that Hyprland's queries return, with the fields that the program reads, and the error
type of the core crate. `i32` fields are `Int`; a monitor's scale is an exact rational.
-/

namespace HyprPilot

structure ClientWorkspace where
  id : Int
  name : String
  deriving DecidableEq

structure Client where
  address : String
  at_ : Int × Int
  size : Int × Int
  workspace : ClientWorkspace
  floating : Bool
  monitor : Int
  className : String
  title : String
  initialClass : String
  initialTitle : String
  pid : Int
  pinned : Bool
  /-- 0 = none, 1 = maximize, 2 = fullscreen. -/
  fullscreen : Int
  tags : List String
  focusHistoryId : Int
  deriving DecidableEq

structure Workspace where
  id : Int
  name : String
  monitor : String
  monitorId : Int
  windows : Nat
  hasfullscreen : Bool
  lastwindow : String
  lastwindowtitle : String
  deriving DecidableEq

/-- `activeworkspace` has the shape of a workspace entry. -/
abbrev ActiveWorkspace := Workspace

structure Monitor where
  id : Int
  name : String
  width : Int
  height : Int
  x : Int
  y : Int
  scale : ℚ
  focused : Bool
  activeWorkspace : Option ClientWorkspace
  deriving DecidableEq

structure Bind where
  mods : List String
  modmask : Nat
  key : String
  submap : String
  dispatcher : String
  arg : String
  mouse : Bool
  deriving DecidableEq

/-- Modifier names of Hyprland's bitmask; lock bits are ignored. -/
def Bind.decodeMods (modmask : Nat) : List String :=
  (if modmask &&& 1 ≠ 0 then ["SHIFT"] else []) ++
  (if modmask &&& 4 ≠ 0 then ["CTRL"] else []) ++
  (if modmask &&& 8 ≠ 0 then ["ALT"] else []) ++
  (if modmask &&& 64 ≠ 0 then ["SUPER"] else [])

example : Bind.decodeMods 69 = ["SHIFT", "CTRL", "SUPER"] := by decide

structure Version where
  version : String
  commit : String
  branch : String
  deriving DecidableEq

structure CursorPos where
  x : Int
  y : Int
  deriving DecidableEq

/-- The core crate's `Error`. The texts of an I/O failure and of a JSON failure come from the
libraries that report them. -/
inductive CoreError where
  | noRuntimeDir
  | noInstance (path : String)
  | socketMissing (path : String)
  | io (text : String)
  | json (text : String)
  | rejected (verb message : String)
  | unknownDispatcher (verb : String)
  | protocol (text : String)
  | validation (text : String)
  | notFound (text : String)
  deriving DecidableEq

def CoreError.text : CoreError → String
  | .noRuntimeDir => "XDG_RUNTIME_DIR is not set; cannot locate Hyprland sockets"
  | .noInstance path =>
    "no live Hyprland instance found (HYPRLAND_INSTANCE_SIGNATURE unset and " ++
      "no instance directory with a .socket.sock under " ++ path ++ ")"
  | .socketMissing path => "Hyprland control socket not found at " ++ path
  | .io text => "I/O failure talking to Hyprland: " ++ text
  | .json text => "failed to parse Hyprland JSON response: " ++ text
  | .rejected verb message => "Hyprland rejected dispatcher `" ++ verb ++ "`: " ++ message
  | .unknownDispatcher verb => "Hyprland does not recognise dispatcher `" ++ verb ++ "`"
  | .protocol text => "unexpected Hyprland response: " ++ text
  | .validation text => "validation error: " ++ text
  | .notFound text => "not found: " ++ text

abbrev CoreResult := Except CoreError

end HyprPilot
