import HyprPilot.Core.Types
import HyprPilot.Input.Keys

/-!
# Keybinds

The configured keybind that a combo fires, and the dispatcher call it stands for.
-/

namespace HyprPilot.Binds

def comboModSet (combo : KeyCombo) : List String := combo.modifiers.iter.map Modifier.hyprctlName

/-- The default submap is reported as the empty text or as `global`. -/
def submapOk (bind : Bind) : Option String → Bool
  | some s => bind.submap = s
  | none => bind.submap = "" ∨ bind.submap = "global"

/-- Keyboard binds only; modifiers are compared as sets, the key without regard to ASCII case. -/
def bindMatches (bind : Bind) (combo : KeyCombo) (submap : Option String) : Bool :=
  !bind.mouse && submapOk bind submap &&
    Text.asciiLower bind.key == Text.asciiLower combo.key &&
    bind.mods.toFinset == (comboModSet combo).toFinset

def resolve (binds : List Bind) (combo : KeyCombo) (submap : Option String) : Option Bind :=
  binds.find? fun b => bindMatches b combo submap

def bindAction (bind : Bind) : String :=
  if bind.arg.isEmpty then bind.dispatcher else bind.dispatcher ++ " " ++ bind.arg

end HyprPilot.Binds
