import HyprPilot.Core.Dispatch
import HyprPilot.Mcp.Json

/-!
# Tool parameters

One parameter struct for each shape of tool arguments, read from JSON with the defaults of the
source.
-/

namespace HyprPilot
open Json

structure MutNoArgs where
  dryRun : Bool

def MutNoArgs.ofJson : Json → Result MutNoArgs :=
  struct "MutNoArgs" 1 fun args => do return ⟨← args.dryRun 0⟩

theorem MutNoArgs.dryRun_read {args : Json} {p : MutNoArgs} (read : MutNoArgs.ofJson args = .ok p) :
    args.dryRun 0 = .ok p.dryRun := by
  obtain ⟨dry, flag, ending⟩ := Collect.bind_ok (struct_ok read)
  cases ending
  exact flag

structure TextArgs where
  text : String
  dryRun : Bool

def TextArgs.read (name field : String) : Json → Result TextArgs :=
  struct name 2 fun args => do
    let text ← args.required name 2 0 field asString
    return ⟨text, ← args.dryRun 1⟩

theorem TextArgs.dryRun_read {name field : String} {args : Json} {p : TextArgs}
    (read : TextArgs.read name field args = .ok p) : args.dryRun 1 = .ok p.dryRun := by
  obtain ⟨text, -, rest⟩ := Collect.bind_ok (struct_ok read)
  obtain ⟨dry, flag, ending⟩ := Collect.bind_ok rest
  cases ending
  exact flag

theorem TextArgs.text_read {name field : String} {args : Json} {p : TextArgs}
    (read : TextArgs.read name field args = .ok p) : args.param 0 field = some (.str p.text) := by
  obtain ⟨text, given, rest⟩ := Collect.bind_ok (struct_ok read)
  obtain ⟨dry, -, ending⟩ := Collect.bind_ok rest
  cases ending
  exact required_string given

def SelectorArgs.ofJson : Json → Result TextArgs := TextArgs.read "SelectorArgs" "selector"
def WorkspaceArgs.ofJson : Json → Result TextArgs := TextArgs.read "WorkspaceArgs" "target"
def FocusMonitorArgs.ofJson : Json → Result TextArgs :=
  TextArgs.read "FocusMonitorArgs" "name_or_direction"
def MonitorArgs.ofJson : Json → Result TextArgs := TextArgs.read "MonitorArgs" "monitor"
def ExecArgs.ofJson : Json → Result TextArgs := TextArgs.read "ExecArgs" "command"
def InputTextArgs.ofJson : Json → Result TextArgs := TextArgs.read "InputTextArgs" "text"
def InputKeysArgs.ofJson : Json → Result TextArgs := TextArgs.read "InputKeysArgs" "combo"
def InputMouseClickArgs.ofJson : Json → Result TextArgs :=
  TextArgs.read "InputMouseClickArgs" "button"
def SnapshotMutArgs.ofJson : Json → Result TextArgs := TextArgs.read "SnapshotMutArgs" "name"

structure SnapshotNameArgs where
  name : String

def SnapshotNameArgs.ofJson : Json → Result SnapshotNameArgs :=
  struct "SnapshotNameArgs" 1 fun args => do
    return ⟨← args.required "SnapshotNameArgs" 1 0 "name" asString⟩

theorem SnapshotNameArgs.name_read {args : Json} {p : SnapshotNameArgs}
    (read : SnapshotNameArgs.ofJson args = .ok p) : args.param 0 "name" = some (.str p.name) := by
  obtain ⟨name, given, ending⟩ := Collect.bind_ok (struct_ok read)
  cases ending
  exact required_string given

structure DirectionArgs where
  direction : Direction
  dryRun : Bool

def DirectionArgs.ofJson : Json → Result DirectionArgs :=
  struct "DirectionArgs" 2 fun args => do
    let direction ← args.required "DirectionArgs" 2 0 "direction"
      (asVariant [("l", .left), ("r", .right), ("u", .up), ("d", .down)])
    return ⟨direction, ← args.dryRun 1⟩

theorem DirectionArgs.dryRun_read {args : Json} {p : DirectionArgs} (read : DirectionArgs.ofJson args = .ok p) :
    args.dryRun 1 = .ok p.dryRun := by
  obtain ⟨_, -, rest⟩ := Collect.bind_ok (struct_ok read)
  obtain ⟨_, flag, ending⟩ := Collect.bind_ok rest
  cases ending
  exact flag

structure ResizeArgs where
  dx : Int
  dy : Int
  dryRun : Bool

def ResizeArgs.ofJson : Json → Result ResizeArgs :=
  struct "ResizeArgs" 3 fun args => do
    let dx ← args.required "ResizeArgs" 3 0 "dx" asI32
    let dy ← args.required "ResizeArgs" 3 1 "dy" asI32
    return ⟨dx, dy, ← args.dryRun 2⟩

theorem ResizeArgs.dryRun_read {args : Json} {p : ResizeArgs} (read : ResizeArgs.ofJson args = .ok p) :
    args.dryRun 2 = .ok p.dryRun := by
  obtain ⟨_, -, rest1⟩ := Collect.bind_ok (struct_ok read)
  obtain ⟨_, -, rest2⟩ := Collect.bind_ok rest1
  obtain ⟨_, flag, ending⟩ := Collect.bind_ok rest2
  cases ending
  exact flag

structure FullscreenArgs where
  mode : FullscreenMode
  dryRun : Bool

def FullscreenArgs.ofJson : Json → Result FullscreenArgs :=
  struct "FullscreenArgs" 2 fun args => do
    let mode ← args.required "FullscreenArgs" 2 0 "mode"
      (asVariant [("maximize", .maximize), ("fullscreen", .fullscreen)])
    return ⟨mode, ← args.dryRun 1⟩

theorem FullscreenArgs.dryRun_read {args : Json} {p : FullscreenArgs} (read : FullscreenArgs.ofJson args = .ok p) :
    args.dryRun 1 = .ok p.dryRun := by
  obtain ⟨_, -, rest⟩ := Collect.bind_ok (struct_ok read)
  obtain ⟨_, flag, ending⟩ := Collect.bind_ok rest
  cases ending
  exact flag

structure InputShortcutArgs where
  combo : String
  selector : String
  dryRun : Bool

def InputShortcutArgs.ofJson : Json → Result InputShortcutArgs :=
  struct "InputShortcutArgs" 3 fun args => do
    let combo ← args.required "InputShortcutArgs" 3 0 "combo" asString
    let selector ← args.required "InputShortcutArgs" 3 1 "selector" asString
    return ⟨combo, selector, ← args.dryRun 2⟩

theorem InputShortcutArgs.dryRun_read {args : Json} {p : InputShortcutArgs} (read : InputShortcutArgs.ofJson args = .ok p) :
    args.dryRun 2 = .ok p.dryRun := by
  obtain ⟨_, -, rest1⟩ := Collect.bind_ok (struct_ok read)
  obtain ⟨_, -, rest2⟩ := Collect.bind_ok rest1
  obtain ⟨_, flag, ending⟩ := Collect.bind_ok rest2
  cases ending
  exact flag

structure InputMouseMoveArgs where
  x : Int
  y : Int
  absolute : Bool
  dryRun : Bool

def InputMouseMoveArgs.ofJson : Json → Result InputMouseMoveArgs :=
  struct "InputMouseMoveArgs" 4 fun args => do
    let x ← args.required "InputMouseMoveArgs" 4 0 "x" asI32
    let y ← args.required "InputMouseMoveArgs" 4 1 "y" asI32
    let absolute ← args.optional 2 "absolute" asBool false
    return ⟨x, y, absolute, ← args.dryRun 3⟩

theorem InputMouseMoveArgs.dryRun_read {args : Json} {p : InputMouseMoveArgs} (read : InputMouseMoveArgs.ofJson args = .ok p) :
    args.dryRun 3 = .ok p.dryRun := by
  obtain ⟨_, -, rest1⟩ := Collect.bind_ok (struct_ok read)
  obtain ⟨_, -, rest2⟩ := Collect.bind_ok rest1
  obtain ⟨_, -, rest3⟩ := Collect.bind_ok rest2
  obtain ⟨_, flag, ending⟩ := Collect.bind_ok rest3
  cases ending
  exact flag

/-! ### Vision -/

inductive ImageFormatArg where
  | png | jpeg
  deriving DecidableEq

def imageFormat (index : Nat) (args : Json) : Result ImageFormatArg :=
  args.optional index "format" (asVariant [("png", .png), ("jpeg", .jpeg)]) .png

structure ScreenshotArgs where
  monitor : Option String
  cursor : Bool
  format : ImageFormatArg

def ScreenshotArgs.ofJson : Json → Result ScreenshotArgs :=
  struct "ScreenshotArgs" 3 fun args => do
    let monitor ← args.optional 0 "monitor" (asOption asString) none
    let cursor ← args.optional 1 "cursor" asBool false
    return ⟨monitor, cursor, ← imageFormat 2 args⟩

structure ScreenshotRegionArgs where
  x : Int
  y : Int
  w : Nat
  h : Nat
  cursor : Bool
  format : ImageFormatArg

def ScreenshotRegionArgs.ofJson : Json → Result ScreenshotRegionArgs :=
  struct "ScreenshotRegionArgs" 6 fun args => do
    let x ← args.required "ScreenshotRegionArgs" 6 0 "x" asI32
    let y ← args.required "ScreenshotRegionArgs" 6 1 "y" asI32
    let w ← args.required "ScreenshotRegionArgs" 6 2 "w" asU32
    let h ← args.required "ScreenshotRegionArgs" 6 3 "h" asU32
    let cursor ← args.optional 4 "cursor" asBool false
    return ⟨x, y, w, h, cursor, ← imageFormat 5 args⟩

structure ScreenshotMonitorArgs where
  name : String
  cursor : Bool
  format : ImageFormatArg

def ScreenshotMonitorArgs.ofJson : Json → Result ScreenshotMonitorArgs :=
  struct "ScreenshotMonitorArgs" 3 fun args => do
    let name ← args.required "ScreenshotMonitorArgs" 3 0 "name" asString
    let cursor ← args.optional 1 "cursor" asBool false
    return ⟨name, cursor, ← imageFormat 2 args⟩

def defaultLang : String := "eng"

structure OcrScreenArgs where
  lang : String
  psm : Nat
  activeWindow : Bool

def OcrScreenArgs.ofJson : Json → Result OcrScreenArgs :=
  struct "OcrScreenArgs" 3 fun args => do
    let lang ← args.optional 0 "lang" asString defaultLang
    let psm ← args.optional 1 "psm" asU8 6
    return ⟨lang, psm, ← args.optional 2 "active_window" asBool false⟩

structure OcrRegionArgs where
  x : Int
  y : Int
  w : Nat
  h : Nat
  lang : String
  psm : Nat

def OcrRegionArgs.ofJson : Json → Result OcrRegionArgs :=
  struct "OcrRegionArgs" 6 fun args => do
    let x ← args.required "OcrRegionArgs" 6 0 "x" asI32
    let y ← args.required "OcrRegionArgs" 6 1 "y" asI32
    let w ← args.required "OcrRegionArgs" 6 2 "w" asU32
    let h ← args.required "OcrRegionArgs" 6 3 "h" asU32
    let lang ← args.optional 4 "lang" asString defaultLang
    return ⟨x, y, w, h, lang, ← args.optional 5 "psm" asU8 6⟩

structure ScanArgs where
  query : String
  x : Option Int
  y : Option Int
  w : Option Nat
  h : Option Nat
  caseSensitive : Bool
  minConfidence : Int
  psm : Nat
  lang : String
  activeWindow : Bool

/-- The fields that `FindTextPositionArgs` and `ClickTextArgs` share, in the same places. -/
def ScanArgs.read (name : String) (arity : Nat) (args : Json) : Result ScanArgs := do
  let query ← args.required name arity 0 "query" asString
  let x ← args.optional 1 "x" (asOption asI32) none
  let y ← args.optional 2 "y" (asOption asI32) none
  let w ← args.optional 3 "w" (asOption asU32) none
  let h ← args.optional 4 "h" (asOption asU32) none
  let caseSensitive ← args.optional 5 "case_sensitive" asBool false
  let minConfidence ← args.optional 6 "min_confidence" asI32 50
  let psm ← args.optional 7 "psm" asU8 11
  let lang ← args.optional 8 "lang" asString defaultLang
  let activeWindow ← args.optional 9 "active_window" asBool false
  return ⟨query, x, y, w, h, caseSensitive, minConfidence, psm, lang, activeWindow⟩

def FindTextPositionArgs.ofJson : Json → Result ScanArgs :=
  struct "FindTextPositionArgs" 10 (ScanArgs.read "FindTextPositionArgs" 10)

structure ClickTextArgs where
  scan : ScanArgs
  button : Option String
  matchIndex : Option Nat
  requireUnique : Bool
  dryRun : Bool

def ClickTextArgs.ofJson : Json → Result ClickTextArgs :=
  struct "ClickTextArgs" 14 fun args => do
    let scan ← ScanArgs.read "ClickTextArgs" 14 args
    let button ← args.optional 10 "button" (asOption asString) none
    let matchIndex ← args.optional 11 "match_index" (asOption asUsize) none
    let requireUnique ← args.optional 12 "require_unique" asBool true
    return ⟨scan, button, matchIndex, requireUnique, ← args.dryRun 13⟩

theorem ClickTextArgs.dryRun_read {args : Json} {p : ClickTextArgs} (read : ClickTextArgs.ofJson args = .ok p) :
    args.dryRun 13 = .ok p.dryRun := by
  obtain ⟨_, -, rest1⟩ := Collect.bind_ok (struct_ok read)
  obtain ⟨_, -, rest2⟩ := Collect.bind_ok rest1
  obtain ⟨_, -, rest3⟩ := Collect.bind_ok rest2
  obtain ⟨_, -, rest4⟩ := Collect.bind_ok rest3
  obtain ⟨_, flag, ending⟩ := Collect.bind_ok rest4
  cases ending
  exact flag

/-! ### Accessibility and binds -/

structure A11yTreeArgs where
  pid : Option Int
  maxNodes : Option Nat

def A11yTreeArgs.ofJson : Json → Result A11yTreeArgs :=
  struct "A11yTreeArgs" 2 fun args => do
    let pid ← args.optional 0 "pid" (asOption asI32) none
    return ⟨pid, ← args.optional 1 "max_nodes" (asOption asUsize) none⟩

structure A11yFindArgs where
  query : String
  role : Option String
  pid : Option Int
  maxNodes : Option Nat

def A11yFindArgs.ofJson : Json → Result A11yFindArgs :=
  struct "A11yFindArgs" 4 fun args => do
    let query ← args.optional 0 "query" asString ""
    let role ← args.optional 1 "role" (asOption asString) none
    let pid ← args.optional 2 "pid" (asOption asI32) none
    return ⟨query, role, pid, ← args.optional 3 "max_nodes" (asOption asUsize) none⟩

structure A11yClickArgs where
  query : String
  role : Option String
  pid : Option Int
  button : Option String
  matchIndex : Option Nat
  requireUnique : Bool
  maxNodes : Option Nat
  dryRun : Bool

def A11yClickArgs.ofJson : Json → Result A11yClickArgs :=
  struct "A11yClickArgs" 8 fun args => do
    let query ← args.required "A11yClickArgs" 8 0 "query" asString
    let role ← args.optional 1 "role" (asOption asString) none
    let pid ← args.optional 2 "pid" (asOption asI32) none
    let button ← args.optional 3 "button" (asOption asString) none
    let matchIndex ← args.optional 4 "match_index" (asOption asUsize) none
    let requireUnique ← args.optional 5 "require_unique" asBool true
    let maxNodes ← args.optional 6 "max_nodes" (asOption asUsize) none
    return ⟨query, role, pid, button, matchIndex, requireUnique, maxNodes, ← args.dryRun 7⟩

theorem A11yClickArgs.dryRun_read {args : Json} {p : A11yClickArgs} (read : A11yClickArgs.ofJson args = .ok p) :
    args.dryRun 7 = .ok p.dryRun := by
  obtain ⟨_, -, rest1⟩ := Collect.bind_ok (struct_ok read)
  obtain ⟨_, -, rest2⟩ := Collect.bind_ok rest1
  obtain ⟨_, -, rest3⟩ := Collect.bind_ok rest2
  obtain ⟨_, -, rest4⟩ := Collect.bind_ok rest3
  obtain ⟨_, -, rest5⟩ := Collect.bind_ok rest4
  obtain ⟨_, -, rest6⟩ := Collect.bind_ok rest5
  obtain ⟨_, -, rest7⟩ := Collect.bind_ok rest6
  obtain ⟨_, flag, ending⟩ := Collect.bind_ok rest7
  cases ending
  exact flag

structure RunBindArgs where
  combo : String
  submap : Option String
  dryRun : Bool

def RunBindArgs.ofJson : Json → Result RunBindArgs :=
  struct "RunBindArgs" 3 fun args => do
    let combo ← args.required "RunBindArgs" 3 0 "combo" asString
    let submap ← args.optional 1 "submap" (asOption asString) none
    return ⟨combo, submap, ← args.dryRun 2⟩

theorem RunBindArgs.dryRun_read {args : Json} {p : RunBindArgs} (read : RunBindArgs.ofJson args = .ok p) :
    args.dryRun 2 = .ok p.dryRun := by
  obtain ⟨_, -, rest1⟩ := Collect.bind_ok (struct_ok read)
  obtain ⟨_, -, rest2⟩ := Collect.bind_ok rest1
  obtain ⟨_, flag, ending⟩ := Collect.bind_ok rest2
  cases ending
  exact flag

end HyprPilot
