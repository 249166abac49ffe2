import HyprPilot.Core.Selector
import HyprPilot.Daemon.Protocol
import HyprPilot.Mcp.Args
import HyprPilot.Mcp.Capability
import HyprPilot.Vision.Ocr

/-!
# Tools

The registry of the tools with their groups, and the dispatch of a call: its arguments are read and
it becomes a request for the daemon, a dry-run preview, or an operation that the server runs.
-/

namespace HyprPilot

inductive Tool where
  | queryClients | queryWorkspaces | queryMonitors | queryActiveWindow | queryActiveWorkspace
  | queryVersion | queryCursorPos | queryBinds
  | focusWindow | cycleNext | cyclePrev | toggleFloating | setFullscreen | centerActive | pinActive
  | moveActive | resizeActive | swapActive
  | switchWorkspace | moveToWorkspace | moveToWorkspaceSilent | focusMonitor
  | moveWorkspaceToMonitor
  | killActive | closeWindow
  | exec
  | undo | undoList
  | snapshotSave | snapshotList | snapshotDiff | snapshotRestore | snapshotDelete
  | rulesList | rulesValidate | rulesPath
  | inputType | inputKeys | inputShortcut | inputMouseMove | inputMouseClick
  | screenshot | screenshotRegion | screenshotMonitor | ocrScreen | ocrRegion | findTextPosition
  | clickText
  | a11yTree | a11yFind | a11yClick
  | runBind
  deriving DecidableEq

/-- A registry entry; descriptions and schemas are texts for the agent. -/
structure ToolDef where
  name : String
  group : ToolGroup
  mutating : Bool

def Tool.toDef : Tool → ToolDef
  | .queryClients => ⟨"query_clients", .read, false⟩
  | .queryWorkspaces => ⟨"query_workspaces", .read, false⟩
  | .queryMonitors => ⟨"query_monitors", .read, false⟩
  | .queryActiveWindow => ⟨"query_active_window", .read, false⟩
  | .queryActiveWorkspace => ⟨"query_active_workspace", .read, false⟩
  | .queryVersion => ⟨"query_version", .read, false⟩
  | .queryCursorPos => ⟨"query_cursor_pos", .read, false⟩
  | .queryBinds => ⟨"query_binds", .read, false⟩
  | .focusWindow => ⟨"focus_window", .window, true⟩
  | .cycleNext => ⟨"cycle_next", .window, true⟩
  | .cyclePrev => ⟨"cycle_prev", .window, true⟩
  | .toggleFloating => ⟨"toggle_floating", .window, true⟩
  | .setFullscreen => ⟨"set_fullscreen", .window, true⟩
  | .centerActive => ⟨"center_active", .window, true⟩
  | .pinActive => ⟨"pin_active", .window, true⟩
  | .moveActive => ⟨"move_active", .window, true⟩
  | .resizeActive => ⟨"resize_active", .window, true⟩
  | .swapActive => ⟨"swap_active", .window, true⟩
  | .switchWorkspace => ⟨"switch_workspace", .workspace, true⟩
  | .moveToWorkspace => ⟨"move_to_workspace", .workspace, true⟩
  | .moveToWorkspaceSilent => ⟨"move_to_workspace_silent", .workspace, true⟩
  | .focusMonitor => ⟨"focus_monitor", .workspace, true⟩
  | .moveWorkspaceToMonitor => ⟨"move_workspace_to_monitor", .workspace, true⟩
  | .killActive => ⟨"kill_active", .destructive, true⟩
  | .closeWindow => ⟨"close_window", .destructive, true⟩
  | .exec => ⟨"exec", .process, true⟩
  | .undo => ⟨"undo", .undo, true⟩
  | .undoList => ⟨"undo_list", .undo, false⟩
  | .snapshotSave => ⟨"snapshot_save", .snapshot, true⟩
  | .snapshotList => ⟨"snapshot_list", .snapshot, false⟩
  | .snapshotDiff => ⟨"snapshot_diff", .snapshot, false⟩
  | .snapshotRestore => ⟨"snapshot_restore", .snapshot, true⟩
  | .snapshotDelete => ⟨"snapshot_delete", .snapshot, true⟩
  | .rulesList => ⟨"rules_list", .rules, false⟩
  | .rulesValidate => ⟨"rules_validate", .rules, false⟩
  | .rulesPath => ⟨"rules_path", .rules, false⟩
  | .inputType => ⟨"input_type", .input, true⟩
  | .inputKeys => ⟨"input_keys", .input, true⟩
  | .inputShortcut => ⟨"input_shortcut", .input, true⟩
  | .inputMouseMove => ⟨"input_mouse_move", .input, true⟩
  | .inputMouseClick => ⟨"input_mouse_click", .input, true⟩
  | .screenshot => ⟨"screenshot", .vision, false⟩
  | .screenshotRegion => ⟨"screenshot_region", .vision, false⟩
  | .screenshotMonitor => ⟨"screenshot_monitor", .vision, false⟩
  | .ocrScreen => ⟨"ocr_screen", .vision, false⟩
  | .ocrRegion => ⟨"ocr_region", .vision, false⟩
  | .findTextPosition => ⟨"find_text_position", .vision, false⟩
  | .clickText => ⟨"click_text", .input, true⟩
  | .a11yTree => ⟨"a11y_tree", .a11y, false⟩
  | .a11yFind => ⟨"a11y_find", .a11y, false⟩
  | .a11yClick => ⟨"a11y_click", .input, true⟩
  | .runBind => ⟨"run_bind", .binds, true⟩

def Tool.all : List Tool :=
  [.queryClients, .queryWorkspaces, .queryMonitors, .queryActiveWindow, .queryActiveWorkspace,
    .queryVersion, .queryCursorPos, .queryBinds, .focusWindow, .cycleNext, .cyclePrev,
    .toggleFloating, .setFullscreen, .centerActive, .pinActive, .moveActive, .resizeActive,
    .swapActive, .switchWorkspace, .moveToWorkspace, .moveToWorkspaceSilent, .focusMonitor,
    .moveWorkspaceToMonitor, .killActive, .closeWindow, .exec, .undo, .undoList, .snapshotSave,
    .snapshotList, .snapshotDiff, .snapshotRestore, .snapshotDelete, .rulesList, .rulesValidate,
    .rulesPath, .inputType, .inputKeys, .inputShortcut, .inputMouseMove, .inputMouseClick,
    .screenshot, .screenshotRegion, .screenshotMonitor, .ocrScreen, .ocrRegion, .findTextPosition,
    .clickText, .a11yTree, .a11yFind, .a11yClick, .runBind]

def registry : List ToolDef := Tool.all.map Tool.toDef

def Tool.named (name : String) : Option Tool := Tool.all.find? fun t => t.toDef.name = name

theorem Tool.mem_all (t : Tool) : t ∈ Tool.all := by cases t <;> decide

theorem Tool.names_nodup : (Tool.all.map fun t => t.toDef.name).Nodup := by decide +kernel

theorem Tool.named_name (t : Tool) : Tool.named t.toDef.name = some t := by
  cases found : Tool.named t.toDef.name with
  | none => exact absurd (decide_eq_true rfl) (List.find?_eq_none.mp found t t.mem_all)
  | some other =>
    rw [Tool.named] at found
    have same : other.toDef.name = t.toDef.name := of_decide_eq_true (List.find?_some found :)
    rw [List.inj_on_of_nodup_map names_nodup (List.mem_of_find?_eq_some found) t.mem_all same]

/-! ### Operations of the server -/

inductive CaptureOp where
  | full (monitor : Option String) (cursor : Bool) (format : ImageFormat)
  | region (region : Region) (cursor : Bool) (format : ImageFormat)

inductive OcrOp where
  | screen (lang : String) (psm : Psm)
  | region (region : Region) (lang : String) (psm : Psm)
  | activeWindow (lang : String) (psm : Psm)

structure FindTextOp where
  query : String
  region : Option Region
  activeWindow : Bool
  caseSensitive : Bool
  minConfidence : Int
  psm : Psm
  lang : String

structure ClickTextOp extends FindTextOp where
  button : MouseButton
  matchIndex : Nat
  requireUnique : Bool
  dryRun : Bool

structure A11yClickOp where
  query : String
  role : Option String
  pid : Option Int
  button : MouseButton
  matchIndex : Nat
  requireUnique : Bool
  maxNodes : Option Nat
  dryRun : Bool

inductive Dispatch where
  | forward (request : Request)
  | preview (text : String)
  | previewSnapshotRestore (name : String)
  | capture (op : CaptureOp)
  | ocr (op : OcrOp)
  | findText (op : FindTextOp)
  | clickText (op : ClickTextOp)
  | a11yClick (op : A11yClickOp)

inductive DispatchError where
  | unknownTool (name : String)
  | invalidArgs (tool message : String)
  deriving DecidableEq

namespace Tools

abbrev Parsed := Except DispatchError

/-! ### Parsing -/

def invalid {α : Type} (tool message : String) : Parsed α := .error (.invalidArgs tool message)

def checked {α : Type} (tool : String) : Except String α → Parsed α
  | .ok a => .ok a
  | .error message => invalid tool message

/-- Null and missing arguments are an empty object. -/
def orEmpty : Json → Json
  | .null => .obj []
  | args => args

def parseArgs {α : Type} (tool : String) (read : Json → Json.Result α) (args : Json) : Parsed α :=
  checked tool (read (orEmpty args))

theorem checked_ok {α : Type} {tool : String} {result : Except String α} {a : α}
    (accepted : checked tool result = .ok a) : result = .ok a := by
  cases result with
  | ok b =>
    cases accepted
    rfl
  | error e => cases accepted

theorem orEmpty_param (args : Json) (index : Nat) (name : String) :
    (orEmpty args).param index name = args.param index name := by
  cases args <;> rfl

def noArgs : Json → Json.Result Unit := Json.struct "NoArgs" 0 fun _ => .ok ()

def parseNoArgs (name : String) (args : Json) (request : Request) : Parsed Dispatch := do
  let () ← parseArgs name noArgs args
  return .forward request

def forwardOrPreview (dryRun : Bool) (request : Request) (preview : String) : Dispatch :=
  if dryRun then .preview preview else .forward request

def parseMutNoArgs (name : String) (args : Json) (request : Request) : Parsed Dispatch := do
  let p ← parseArgs name MutNoArgs.ofJson args
  return forwardOrPreview p.dryRun request ("would invoke " ++ name)

def parseSelector (name : String) (args : Json) (build : WindowSelector → Request) :
    Parsed Dispatch := do
  let p ← parseArgs name SelectorArgs.ofJson args
  let selector ← checked name (WindowSelector.parse p.text)
  return forwardOrPreview p.dryRun (build selector)
    ("would " ++ name ++ " on selector `" ++ p.text ++ "`")

def parseWorkspace (name : String) (args : Json) (build : WorkspaceRef → Request) :
    Parsed Dispatch := do
  let p ← parseArgs name WorkspaceArgs.ofJson args
  let workspace ← checked name (WorkspaceRef.parse p.text)
  return forwardOrPreview p.dryRun (build workspace)
    ("would " ++ name ++ " target=`" ++ p.text ++ "`")

def parseText (name : String) (read : Json → Json.Result TextArgs) (args : Json)
    (build : String → Request) (preview : String → String) : Parsed Dispatch := do
  let p ← parseArgs name read args
  return forwardOrPreview p.dryRun (build p.text) (preview p.text)

def parseDirection (name : String) (args : Json) (build : Direction → Request)
    (preview : Direction → String) : Parsed Dispatch := do
  let p ← parseArgs name DirectionArgs.ofJson args
  return forwardOrPreview p.dryRun (build p.direction) (preview p.direction)

def parseCombo (tool s : String) : Parsed KeyCombo :=
  checked tool ((KeyCombo.parse s).mapError InputError.text)

def parseButton (tool s : String) : Parsed MouseButton :=
  checked tool ((MouseButton.parse s).mapError InputError.text)

def buttonOr (tool : String) : Option String → Parsed MouseButton
  | none => .ok .left
  | some s => parseButton tool s

def parsePsm (tool : String) (n : Nat) : Parsed Psm :=
  if n = 3 then .ok .auto
  else if n = 6 then .ok .singleBlock
  else if n = 7 then .ok .singleLine
  else if n = 11 then .ok .sparseText
  else invalid tool ("psm must be one of 3, 6, 7, 11; got " ++ toString n)

def validated (tool : String) (r : Region) : Parsed Region :=
  match r.validate with
  | .ok () => .ok r
  | .error e => invalid tool e.text

def buildOptionalRegion (tool : String) (x y : Option Int) (w h : Option Nat) :
    Parsed (Option Region) :=
  match x, y, w, h with
  | none, none, none, none => .ok none
  | some x, some y, some w, some h => (validated tool ⟨x, y, w, h⟩).map some
  | _, _, _, _ => invalid tool "region requires all of x, y, w, h (or none of them)"

def rejectRegionWithActiveWindow (tool : String) (hasRegion activeWindow : Bool) : Parsed Unit :=
  if hasRegion ∧ activeWindow then
    invalid tool "active_window cannot be combined with an explicit x/y/w/h region"
  else .ok ()

def rejectEmptyQuery (tool query : String) : Parsed Unit :=
  if (Text.trim query).isEmpty then invalid tool "query must not be empty" else .ok ()

def scanOp (tool : String) (p : ScanArgs) : Parsed FindTextOp := do
  rejectEmptyQuery tool p.query
  let region ← buildOptionalRegion tool p.x p.y p.w p.h
  rejectRegionWithActiveWindow tool region.isSome p.activeWindow
  let psm ← parsePsm tool p.psm
  return ⟨p.query, region, p.activeWindow, p.caseSensitive, p.minConfidence, psm, p.lang⟩

/-- An accepted scan has a token to look for and a region that can be captured. -/
theorem scanOp_ok {tool : String} {p : ScanArgs} {op : FindTextOp}
    (accepted : scanOp tool p = .ok op) :
    Text.splitWhitespace op.query ≠ [] ∧ ∀ r, op.region = some r → r.validate = .ok () := by
  obtain ⟨_, nonempty, rest⟩ := Collect.bind_ok accepted
  obtain ⟨region, built, rest⟩ := Collect.bind_ok rest
  obtain ⟨_, -, rest⟩ := Collect.bind_ok rest
  obtain ⟨psm, -, ending⟩ := Collect.bind_ok rest
  cases ending
  constructor
  · intro blank
    rw [rejectEmptyQuery, if_pos (Text.trim_of_splitWhitespace blank)] at nonempty
    cases nonempty
  · intro r given
    obtain rfl : region = some r := given
    unfold buildOptionalRegion at built
    split at built
    · cases built
    · unfold validated at built
      split at built
      · rename_i valid
        cases built
        exact valid
      · cases built
    · cases built

/-! ### Previews -/

def modeName : FullscreenMode → String
  | .maximize => "maximize"
  | .fullscreen => "fullscreen"

def directionDebug : Direction → String
  | .left => "L"
  | .right => "R"
  | .up => "U"
  | .down => "D"

def buttonDebug : MouseButton → String
  | .left => "Left"
  | .right => "Right"
  | .middle => "Middle"
  | .x1 => "X1"
  | .x2 => "X2"

def formatArg : ImageFormatArg → ImageFormat
  | .png => .png
  | .jpeg => .jpeg

/-- The longest prefix of at most this many bytes. -/
def truncateChars : Nat → List Char → List Char
  | _, [] => []
  | max, c :: cs => if c.utf8Size ≤ max then c :: truncateChars (max - c.utf8Size) cs else []

def truncate (s : String) (max : Nat) : String := String.ofList (truncateChars max s.toList)

/-! ### Dispatch -/

def dispatchTool (tool : Tool) (args : Json) : Parsed Dispatch :=
  let name := tool.toDef.name
  match tool with
  | .queryClients => parseNoArgs name args .queryClients
  | .queryWorkspaces => parseNoArgs name args .queryWorkspaces
  | .queryMonitors => parseNoArgs name args .queryMonitors
  | .queryActiveWindow => parseNoArgs name args .queryActiveWindow
  | .queryActiveWorkspace => parseNoArgs name args .queryActiveWorkspace
  | .queryVersion => parseNoArgs name args .queryVersion
  | .queryCursorPos => parseNoArgs name args .queryCursorPos
  | .queryBinds => parseNoArgs name args .queryBinds
  | .undoList => parseNoArgs name args .undoList
  | .focusWindow => parseSelector name args .dispatchFocusWindow
  | .closeWindow => parseSelector name args .dispatchCloseWindow
  | .switchWorkspace => parseWorkspace name args .dispatchSwitchWorkspace
  | .moveToWorkspace => parseWorkspace name args .dispatchMoveToWorkspace
  | .moveToWorkspaceSilent => parseWorkspace name args .dispatchMoveToWorkspaceSilent
  | .cycleNext => parseMutNoArgs name args .dispatchCycleNext
  | .cyclePrev => parseMutNoArgs name args .dispatchCyclePrev
  | .toggleFloating => parseMutNoArgs name args .dispatchToggleFloating
  | .centerActive => parseMutNoArgs name args .dispatchCenterActive
  | .pinActive => parseMutNoArgs name args .dispatchPinActive
  | .killActive => parseMutNoArgs name args .dispatchKillActive
  | .undo => parseMutNoArgs name args .undo
  | .setFullscreen => do
    let p ← parseArgs name FullscreenArgs.ofJson args
    return forwardOrPreview p.dryRun (.dispatchFullscreen p.mode)
      ("would set fullscreen mode=" ++ modeName p.mode)
  | .moveActive =>
    parseDirection name args .dispatchMoveActive
      fun d => "would move active window " ++ directionDebug d
  | .swapActive =>
    parseDirection name args .dispatchSwapActive
      fun d => "would swap active window " ++ directionDebug d
  | .resizeActive => do
    let p ← parseArgs name ResizeArgs.ofJson args
    return forwardOrPreview p.dryRun (.dispatchResizeActive p.dx p.dy)
      ("would resize active window by (" ++ toString p.dx ++ ", " ++ toString p.dy ++ ") px")
  | .focusMonitor =>
    parseText name FocusMonitorArgs.ofJson args .dispatchFocusMonitor
      fun monitor => "would focus monitor `" ++ monitor ++ "`"
  | .moveWorkspaceToMonitor =>
    parseText name MonitorArgs.ofJson args .dispatchMoveWorkspaceToMonitor
      fun monitor => "would move focused workspace to monitor `" ++ monitor ++ "`"
  | .exec =>
    parseText name ExecArgs.ofJson args .dispatchExec fun command => "would spawn: " ++ command
  -- Saving and deleting take no `dry_run`.
  | .snapshotSave => do
    let p ← parseArgs name SnapshotNameArgs.ofJson args
    return .forward (.snapshotSave p.name)
  | .snapshotList => parseNoArgs name args .snapshotList
  | .snapshotDiff => do
    let p ← parseArgs name SnapshotNameArgs.ofJson args
    return .forward (.snapshotDiff p.name)
  | .snapshotRestore => do
    let p ← parseArgs name SnapshotMutArgs.ofJson args
    return if p.dryRun then .previewSnapshotRestore p.text else .forward (.snapshotRestore p.text)
  | .snapshotDelete => do
    let p ← parseArgs name SnapshotNameArgs.ofJson args
    return .forward (.snapshotDelete p.name)
  | .rulesList => parseNoArgs name args .rulesList
  | .rulesValidate => parseNoArgs name args .rulesValidate
  | .rulesPath => parseNoArgs name args .rulesPath
  | .inputType =>
    parseText name InputTextArgs.ofJson args .inputType fun text =>
      "would type " ++ toString text.utf8ByteSize ++ " bytes into the focused window: " ++
        Text.debug (truncate text 80)
  | .inputKeys => do
    let p ← parseArgs name InputKeysArgs.ofJson args
    let combo ← parseCombo name p.text
    return forwardOrPreview p.dryRun (.inputKeys combo)
      ("would press `" ++ combo.text ++ "` in the focused window")
  | .inputShortcut => do
    let p ← parseArgs name InputShortcutArgs.ofJson args
    let combo ← parseCombo name p.combo
    let selector ← checked name (WindowSelector.parse p.selector)
    return forwardOrPreview p.dryRun (.inputShortcut combo selector)
      ("would send `" ++ combo.text ++ "` to `" ++ p.selector ++ "`")
  | .inputMouseMove => do
    let p ← parseArgs name InputMouseMoveArgs.ofJson args
    return forwardOrPreview p.dryRun (.inputMouseMove p.x p.y p.absolute)
      ("would move mouse " ++ (if p.absolute then "to absolute" else "by delta") ++
        " (" ++ toString p.x ++ ", " ++ toString p.y ++ ")")
  | .inputMouseClick => do
    let p ← parseArgs name InputMouseClickArgs.ofJson args
    let button ← parseButton name p.text
    return forwardOrPreview p.dryRun (.inputMouseClick button)
      ("would click " ++ buttonDebug button ++ " at current cursor position")
  | .screenshot => do
    let p ← parseArgs name ScreenshotArgs.ofJson args
    return .capture (.full p.monitor p.cursor (formatArg p.format))
  | .screenshotRegion => do
    let p ← parseArgs name ScreenshotRegionArgs.ofJson args
    let region ← validated name ⟨p.x, p.y, p.w, p.h⟩
    return .capture (.region region p.cursor (formatArg p.format))
  | .screenshotMonitor => do
    let p ← parseArgs name ScreenshotMonitorArgs.ofJson args
    return .capture (.full (some p.name) p.cursor (formatArg p.format))
  | .ocrScreen => do
    let p ← parseArgs name OcrScreenArgs.ofJson args
    let psm ← parsePsm name p.psm
    return .ocr (if p.activeWindow then .activeWindow p.lang psm else .screen p.lang psm)
  | .ocrRegion => do
    let p ← parseArgs name OcrRegionArgs.ofJson args
    let psm ← parsePsm name p.psm
    let region ← validated name ⟨p.x, p.y, p.w, p.h⟩
    return .ocr (.region region p.lang psm)
  | .findTextPosition => do
    let p ← parseArgs name FindTextPositionArgs.ofJson args
    return .findText (← scanOp name p)
  | .clickText => do
    let p ← parseArgs name ClickTextArgs.ofJson args
    let op ← scanOp name p.scan
    let button ← buttonOr name p.button
    return .clickText
      { op with
        button := button
        matchIndex := p.matchIndex.getD 0
        requireUnique := p.requireUnique
        dryRun := p.dryRun }
  | .runBind => do
    let p ← parseArgs name RunBindArgs.ofJson args
    let combo ← parseCombo name p.combo
    return .forward (.runBind combo p.submap p.dryRun)
  | .a11yTree => do
    let p ← parseArgs name A11yTreeArgs.ofJson args
    return .forward (.a11yTree p.pid p.maxNodes)
  | .a11yFind => do
    let p ← parseArgs name A11yFindArgs.ofJson args
    return .forward (.a11yFind p.pid p.query p.role p.maxNodes)
  | .a11yClick => do
    let p ← parseArgs name A11yClickArgs.ofJson args
    rejectEmptyQuery name p.query
    let button ← buttonOr name p.button
    return .a11yClick ⟨p.query, p.role, p.pid, button, p.matchIndex.getD 0, p.requireUnique,
      p.maxNodes, p.dryRun⟩

def dispatch (name : String) (args : Json) : Parsed Dispatch :=
  match Tool.named name with
  | some tool => dispatchTool tool args
  | none => .error (.unknownTool name)

end Tools

end HyprPilot
