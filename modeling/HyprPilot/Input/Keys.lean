import HyprPilot.Base.Text
import Mathlib.Data.Finset.Insert

/-!
# Key combos and mouse buttons

The typed form of `ctrl+shift+t`, its parser and the texts it is printed as, and the errors of the
input layer.
-/

namespace HyprPilot

/-- `backend` and `op` are the names that the runner gives. -/
inductive InputError where
  | backendMissing (backend : String)
  | daemonNotReachable (daemon : String)
  | invalidCombo (text : String)
  | invalidButton (text : String)
  | backendFailed (backend status stderr : String)
  | notImplemented (backend op : String)
  | invalidBackendSelection (text : String)
  | io (text : String)
  | virtualPointer (text : String)
  deriving DecidableEq

def InputError.text : InputError → String
  | .backendMissing backend =>
    "input backend `" ++ backend ++ "` is not installed (or not on PATH)"
  | .daemonNotReachable daemon =>
    "input daemon `" ++ daemon ++ "` is not reachable: socket missing. " ++
      "Start ydotoold (e.g. `systemctl --user start ydotoold` or `sudo ydotoold &`); " ++
      "set $YDOTOOL_SOCKET if your socket lives at a non-default path " ++
      "(default `/tmp/.ydotool_socket`)."
  | .invalidCombo text => "invalid key combo: " ++ text
  | .invalidButton text =>
    "invalid mouse button `" ++ text ++ "`; expected left/right/middle/x1/x2"
  | .backendFailed backend status stderr =>
    "input backend `" ++ backend ++ "` exited with status " ++ status ++ ": " ++ stderr
  | .notImplemented backend op =>
    "input backend `" ++ backend ++ "` does not yet implement `" ++ op ++ "`"
  | .invalidBackendSelection text => "invalid input-backend selection `" ++ text ++ "`"
  | .io text => "I/O error invoking input backend: " ++ text
  | .virtualPointer text => "wlr-virtual-pointer transport failed: " ++ text

inductive Modifier where
  | ctrl | shift | alt | super
  deriving DecidableEq

namespace Modifier

def parse (s : String) : Option Modifier :=
  let lower := Text.asciiLower s
  if lower ∈ ["ctrl", "control"] then some .ctrl
  else if lower = "shift" then some .shift
  else if lower ∈ ["alt", "meta"] then some .alt
  else if lower ∈ ["super", "win", "windows", "mod4", "cmd", "command"] then some .super
  else none

def wtypeName : Modifier → String
  | .ctrl => "ctrl"
  | .shift => "shift"
  | .alt => "alt"
  | .super => "logo"

def hyprctlName : Modifier → String
  | .ctrl => "CTRL"
  | .shift => "SHIFT"
  | .alt => "ALT"
  | .super => "SUPER"

end Modifier

/-- An ordered set; `iter` lists it in the order of the declaration. -/
abbrev ModifierSet := Finset Modifier

def ModifierSet.iter (s : ModifierSet) : List Modifier :=
  [.ctrl, .shift, .alt, .super].filter (· ∈ s)

structure KeyCombo where
  modifiers : ModifierSet
  key : String
  deriving DecidableEq

namespace KeyCombo

def parseModifiers (trimmed : String) : List String → Except InputError ModifierSet
  | [] => .ok ∅
  | m :: rest =>
    match Modifier.parse m with
    | none =>
      .error (.invalidCombo ("`" ++ m ++ "` in `" ++ trimmed ++ "` is not a recognised modifier; " ++
        "expected ctrl, shift, alt, or super"))
    | some modifier =>
      match parseModifiers trimmed rest with
      | .ok modifiers => .ok (insert modifier modifiers)
      | .error e => .error e

/-- The last token is the key, each one before it a modifier. -/
def parse (s : String) : Except InputError KeyCombo :=
  let trimmed := Text.trim s
  if trimmed.isEmpty then .error (.invalidCombo "empty combo")
  else
    let parts := (Text.splitOn '+' trimmed).map Text.trim
    if parts.any (·.isEmpty) then
      .error (.invalidCombo ("`" ++ trimmed ++
        "` has an empty token (consecutive or leading/trailing `+`)"))
    else
      match parseModifiers trimmed parts.dropLast with
      | .ok modifiers => .ok ⟨modifiers, parts.getLastD ""⟩
      | .error e => .error e

def encodeHyprctlMods (combo : KeyCombo) : String :=
  Text.joinWith " " (combo.modifiers.iter.map Modifier.hyprctlName)

def text (combo : KeyCombo) : String :=
  combo.modifiers.iter.foldr (fun m rest => m.wtypeName ++ "+" ++ rest) combo.key

example : parse " Ctrl + shift+t" = .ok ⟨{.ctrl, .shift}, "t"⟩ := by decide

end KeyCombo

inductive MouseButton where
  | left | right | middle | x1 | x2
  deriving DecidableEq

def MouseButton.parse (s : String) : Except InputError MouseButton :=
  let lower := Text.asciiLower s
  if lower ∈ ["left", "l", "1"] then .ok .left
  else if lower ∈ ["right", "r", "2"] then .ok .right
  else if lower ∈ ["middle", "m", "3"] then .ok .middle
  else if lower ∈ ["x1", "back", "4"] then .ok .x1
  else if lower ∈ ["x2", "forward", "5"] then .ok .x2
  else .error (.invalidButton lower)

end HyprPilot
