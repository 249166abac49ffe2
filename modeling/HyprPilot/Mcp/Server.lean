import HyprPilot.Daemon.Server
import HyprPilot.Mcp.Protocol

/-!
# The server

Each request is handled by a program over the server's effects: requests to the daemon, screen
captures and text recognition. The daemon connects when it is first asked, and again after a
failure dropped the connection.
-/

namespace HyprPilot
open Interact

namespace Mcp

inductive Cmd where
  | daemon (request : Request)
  /-- `self.daemon = None`. -/
  | dropDaemon
  | grimDetect
  | grimFull (monitor : Option String) (cursor : Bool) (format : ImageFormat)
  | grimRegion (region : Region) (cursor : Bool) (format : ImageFormat)
  | tesseractDetect
  | extractText (lang : String) (psm : Psm) (image : List UInt8)
  | extractWords (lang : String) (psm : Psm) (minConfidence : Int) (image : List UInt8)

@[reducible] def Ans : Cmd → Type
  | .daemon _ => Except ClientError Reply
  | .dropDaemon => Unit
  | .grimDetect | .tesseractDetect => Except VisionError Unit
  | .grimFull .. | .grimRegion .. => Except VisionError (List UInt8)
  | .extractText .. => Except VisionError String
  | .extractWords .. => Except VisionError (List Word)

abbrev Session (α : Type) := Prog Cmd Ans α

abbrev callDaemon (request : Request) : Session (Except ClientError Reply) :=
  .call (Cmd.daemon request)

def daemonFailed (id : Json) (e : ClientError) : Session JsonRpcResponse := do
  let () ← (.call Cmd.dropDaemon : Session Unit)
  return toolError id (classifyDaemonError e).1 (classifyDaemonError e).2

def asked (id : Json) (request : Request) : Session (Except JsonRpcResponse Reply) := do
  match ← callDaemon request with
  | .ok value => return .ok value
  | .error e => return .error (← daemonFailed id e)

/-- A reply of another shape than the request's. -/
def malformed (id : Json) (what : String) : JsonRpcResponse :=
  toolError id .toolExecution ("daemon returned malformed " ++ what ++ ": invalid type")

/-- The replies whose JSON is null. -/
def isNull : Reply → Bool
  | .null | .activeWindow none => true
  | _ => false

def forward (id : Json) (request : Request) : Session JsonRpcResponse := do
  match ← asked id request with
  | .error response => return response
  | .ok value => return .shown id (if isNull value then .text "ok" else .reply value)

def previewSnapshotRestore (id : Json) (name : String) : Session JsonRpcResponse := do
  match ← asked id (.snapshotPreview name) with
  | .error response => return response
  | .ok (.preview preview) => return .shown id (.dryRunBody preview)
  | .ok _ => return malformed id "snapshot preview"

/-! ### Vision -/

abbrev grimDetect : Session (Except VisionError Unit) := .call Cmd.grimDetect

abbrev tesseractDetect : Session (Except VisionError Unit) := .call Cmd.tesseractDetect

abbrev captureFull (monitor : Option String) (cursor : Bool) (format : ImageFormat) :
    Session (Except VisionError (List UInt8)) :=
  .call (Cmd.grimFull monitor cursor format)

def captureRegion (region : Region) (cursor : Bool) (format : ImageFormat) :
    Session (Except VisionError (List UInt8)) :=
  match region.validate with
  | .error e => return .error e
  | .ok () => .call (Cmd.grimRegion region cursor format)

/-- The raw image of a region, or of the whole screen. -/
def captureScan (region : Option Region) : Session (Except VisionError (List UInt8)) :=
  grimDetect.andThen fun () =>
    match region with
    | some region => captureRegion region false .ppm
    | none => captureFull none false .ppm

def extractText (lang : String) (psm : Psm) (image : List UInt8) :
    Session (Except VisionError String) :=
  tesseractDetect.andThen fun () => .call (Cmd.extractText lang psm image)

def extractWords (op : FindTextOp) (image : List UInt8) : Session (Except VisionError (List Word)) :=
  tesseractDetect.andThen fun () =>
    .call (Cmd.extractWords op.lang op.psm op.minConfidence image)

def handleCapture (id : Json) (op : CaptureOp) : Session JsonRpcResponse := do
  match ← grimDetect with
  | .error e => return toolError id .toolExecution e.text
  | .ok () =>
    let shown (format : ImageFormat) (result : Except VisionError (List UInt8)) :=
      match result with
      | .ok bytes => JsonRpcResponse.shown id (.image bytes format.mime)
      | .error e => toolError id .toolExecution e.text
    match op with
    | .full monitor cursor format => return shown format (← captureFull monitor cursor format)
    | .region region cursor format => return shown format (← captureRegion region cursor format)

def windowRegion (c : Client) : Region := ⟨c.at_.1, c.at_.2, c.size.1.toNat, c.size.2.toNat⟩

def resolveActiveWindowRegion (id : Json) : Session (Except JsonRpcResponse Region) := do
  let region (window : Option Client) : Except JsonRpcResponse Region :=
    match window with
    | none =>
      .error (toolError id .toolExecution
        "no active window to scope to; focus a window or pass an explicit region")
    | some c =>
      let (w, h) := c.size
      if w ≤ 0 ∨ h ≤ 0 then
        .error (toolError id .toolExecution ("active window `" ++ c.className ++
          "` has no positive size (" ++ toString w ++ "x" ++ toString h ++ ")"))
      else .ok (windowRegion c)
  match ← asked id .queryActiveWindow with
  | .error response => return .error response
  | .ok (.activeWindow window) => return region window
  | .ok .null => return region none
  | .ok _ => return .error (malformed id "active window")

/-- The region that a scan covers: the focused window, the given region or the whole screen. -/
def scanRegion (id : Json) (op : FindTextOp) : Session (Except JsonRpcResponse (Option Region)) := do
  if op.activeWindow then return (← resolveActiveWindowRegion id).map some
  else return .ok op.region

def handleOcr (id : Json) (op : OcrOp) : Session JsonRpcResponse := do
  let scan (region : Option Region) (lang : String) (psm : Psm) : Session JsonRpcResponse := do
    match ← (captureScan region).andThen (extractText lang psm) with
    | .ok text => return .shown id (.text text)
    | .error e => return toolError id .toolExecution e.text
  match op with
  | .screen lang psm => scan none lang psm
  | .region region lang psm => scan (some region) lang psm
  | .activeWindow lang psm =>
    match ← resolveActiveWindowRegion id with
    | .error response => return response
    | .ok region => scan (some region) lang psm

def translated (region : Option Region) (m : TextMatch) : TextMatch :=
  match region with
  | some r => { m with bbox := m.bbox.translate r }
  | none => m

def scanForMatches (region : Option Region) (op : FindTextOp) :
    Session (Except String (List TextMatch)) := do
  match ← (captureScan region).andThen (extractWords op) with
  | .error e => return .error e.text
  | .ok words => return .ok ((findWordRuns words op.query op.caseSensitive).map (translated region))

def handleFindText (id : Json) (op : FindTextOp) : Session JsonRpcResponse := do
  match ← scanRegion id op with
  | .error response => return response
  | .ok region =>
    match ← scanForMatches region op with
    | .ok found => return .shown id (.matched op.query found)
    | .error e => return toolError id .toolExecution e

/-! ### Clicks -/

/-- The candidate at the index, which has to be given when there are several. -/
def chooseMatch {α : Type} (id : Json) (requireUnique : Bool) (matchIndex : Nat) (found : List α)
    (missing ambiguous outOfBounds : String) : Except JsonRpcResponse α :=
  if found.isEmpty then .error (toolError id .toolExecution missing)
  else if requireUnique ∧ 1 < found.length ∧ matchIndex = 0 then
    .error (toolError id .toolExecution ambiguous)
  else
    match found[matchIndex]? with
    | some chosen => .ok chosen
    | none => .error (toolError id .invalidParams outOfBounds)

def outOfBounds (matchIndex total : Nat) (kind query : String) : String :=
  "match_index " ++ toString matchIndex ++ " out of bounds: only " ++ toString total ++ " " ++ kind ++
    " for `" ++ query ++ "`"

/-- The scale of the monitor at the region's origin, else of the focused or the first one. -/
def pickScale (monitors : List Monitor) (region : Option Region) : ℚ :=
  let fallback := ((monitors.find? (·.focused)).or monitors.head?).map (·.scale)
  match region with
  | none => fallback.getD 1
  | some r =>
    match monitors.find? fun m => Daemon.containsPoint m r.x r.y with
    | some m => m.scale
    | none => fallback.getD 1

def clickPoint (box : BBox) (scale : ℚ) (region : Option Region) : Int × Int :=
  let x := Machine.sat32 (Machine.roundHalfAway (box.center.1 / scale))
  let y := Machine.sat32 (Machine.roundHalfAway (box.center.2 / scale))
  match region with
  | some r => (Machine.wrap32 (x + r.x), Machine.wrap32 (y + r.y))
  | none => (x, y)

def clickAt (id : Json) (x y : Int) (button : MouseButton) (applied : Content) :
    Session JsonRpcResponse := do
  match ← asked id (.inputMouseMove x y true) with
  | .error response => return response
  | .ok _ =>
    match ← asked id (.inputMouseClick button) with
    | .error response => return response
    | .ok _ => return .shown id applied

def handleClickText (id : Json) (op : ClickTextOp) : Session JsonRpcResponse := do
  match ← scanRegion id op.toFindTextOp with
  | .error response => return response
  | .ok region =>
    match ← scanForMatches region op.toFindTextOp with
    | .error e => return toolError id .toolExecution e
    | .ok found =>
      match chooseMatch id op.requireUnique op.matchIndex found
          ("no on-screen text matched query `" ++ op.query ++ "`") (renderAmbiguity op.query found)
          (outOfBounds op.matchIndex found.length "match(es)" op.query) with
      | .error response => return response
      | .ok chosen =>
        match ← asked id .queryMonitors with
        | .error response => return response
        | .ok (.monitors monitors) =>
          let (x, y) := clickPoint chosen.bbox (pickScale monitors region) region
          if op.dryRun then return .shown id (.clickPreview op chosen found.length x y)
          else clickAt id x y op.button (.clickApplied chosen found.length x y)
        | .ok _ => return malformed id "monitors"

def pickWindowForPid (clients : List Client) (pid : Int) : Option Client :=
  let windows := clients.filter (·.pid = pid)
  (windows.find? (·.focusHistoryId = 0)).or windows.head?

def foundElements : Reply → Option Int × List Element
  | .elements pid _ elements => (some pid, elements)
  | _ => (none, [])

def handleA11yClick (id : Json) (op : A11yClickOp) : Session JsonRpcResponse := do
  match ← asked id (.a11yFind op.pid op.query op.role op.maxNodes) with
  | .error response => return response
  | .ok value =>
    let (resolvedPid, elements) := foundElements value
    let found := elements.filter Element.isClickable
    match chooseMatch id op.requireUnique op.matchIndex found
        ("no clickable accessibility element matched `" ++ op.query ++ "`")
        (renderA11yAmbiguity op.query found)
        (outOfBounds op.matchIndex found.length "clickable match(es)" op.query) with
    | .error response => return response
    | .ok chosen =>
      match resolvedPid with
      | none =>
        return toolError id .toolExecution
          "daemon did not report a resolved pid to anchor the click"
      | some pid =>
        match ← asked id .queryClients with
        | .error response => return response
        | .ok (.clients clients) =>
          match pickWindowForPid clients pid with
          | none =>
            return toolError id .toolExecution
              ("no window found for pid " ++ toString pid ++ " to anchor the click")
          | some window =>
            let x := Machine.wrap32 (window.at_.1 + chosen.center.1)
            let y := Machine.wrap32 (window.at_.2 + chosen.center.2)
            if op.dryRun then return .shown id (.elementPreview op chosen found.length window x y)
            else clickAt id x y op.button (.elementApplied chosen found.length x y)
        | .ok _ => return malformed id "clients"

/-! ### Requests -/

def runDispatch (id : Json) : Dispatch → Session JsonRpcResponse
  | .preview text =>
    return .shown id (.text ("[dry_run] " ++ text ++ "\n\nPass `dry_run: false` to apply."))
  | .forward request => forward id request
  | .previewSnapshotRestore name => previewSnapshotRestore id name
  | .capture op => handleCapture id op
  | .ocr op => handleOcr id op
  | .findText op => handleFindText id op
  | .clickText op => handleClickText id op
  | .a11yClick op => handleA11yClick id op

structure Server where
  profile : Profile
  serverVersion : String

namespace Server

def visibleTools (server : Server) : List ToolDef :=
  registry.filter fun t => server.profile.allows t.name t.group

def dispatchFailed (id : Json) : DispatchError → JsonRpcResponse
  | .unknownTool name => toolError id .methodNotFound ("unknown tool `" ++ name ++ "`")
  | .invalidArgs tool message =>
    toolError id .invalidParams ("invalid arguments for `" ++ tool ++ "`: " ++ message)

def callTool (server : Server) (id : Json) (params : CallToolParams) : Session JsonRpcResponse :=
  match Tool.named params.name with
  | none => return toolError id .methodNotFound ("unknown tool `" ++ params.name ++ "`")
  | some tool =>
    let tool := tool.toDef
    if server.profile.allows tool.name tool.group then
      match Tools.dispatch params.name params.arguments with
      | .error e => return dispatchFailed id e
      | .ok dispatch => runDispatch id dispatch
    else
      return toolError id .capabilityDenied ("tool `" ++ tool.name ++
        "` is not permitted by the active capability profile `" ++ server.profile.name ++
        "` (group: `" ++ tool.group.name ++ "`)")

/-- The id of a response: null for a notification. -/
def responseId (request : JsonRpcRequest) : Json := request.id.getD .null

def handleCallTool (server : Server) (request : JsonRpcRequest) : Session JsonRpcResponse :=
  let id := responseId request
  match CallToolParams.ofRequest request with
  | .error e => return .err id .invalidParams e
  | .ok params => callTool server id params

def handleInitialize (server : Server) (request : JsonRpcRequest) : JsonRpcResponse :=
  .ok (responseId request) (.initialized
    { protocolVersion := "2024-11-05"
      serverName := "hyprpilot-mcp"
      serverVersion := server.serverVersion
      instructions := "HyprPilot exposes Hyprland window/workspace control as MCP tools. " ++
        "Mutating tools default to dry_run=true; pass dry_run=false to actually apply. " ++
        "Selectors use Hyprland's grammar: `active`, `class:Name`, `pid:N`, `title:Foo`, " ++
        "`address:0x<hex>`. Workspace targets: `2`, `+1`, `prev`, `next`, `empty`, " ++
        "`name:foo`, `special:term`." })

def handleListTools (server : Server) (request : JsonRpcRequest) : JsonRpcResponse :=
  .ok (responseId request) (.tools server.visibleTools)

/-- One message; a notification gets no response. -/
def handle (server : Server) (request : JsonRpcRequest) : Session (Option JsonRpcResponse) :=
  if request.jsonrpc ≠ "2.0" then
    return request.id.map fun id => .err id .invalidRequest "jsonrpc must be \"2.0\""
  else
    match request.method with
    | "initialize" => return some (handleInitialize server request)
    | "notifications/initialized" => return none
    | "ping" => return request.id.map fun id => .ok id .pong
    | "tools/list" => return some (handleListTools server request)
    | "tools/call" => do return some (← handleCallTool server request)
    | method =>
      return request.id.map fun id =>
        .err id .methodNotFound ("method `" ++ method ++ "` is not supported")

/-- A line that is no request is answered all the same. -/
def handleLine (server : Server) : Except String JsonRpcRequest → Session (Option JsonRpcResponse)
  | .ok request => server.handle request
  | .error e => return some (.err .null .parseError e)

/-- The loop of `run_stdio` over the lines of a session, each as it was parsed. -/
def runStdio (server : Server) :
    List (Except String JsonRpcRequest) → Session (List (Option JsonRpcResponse))
  | [] => return []
  | line :: rest => do
    let reply ← server.handleLine line
    let replies ← server.runStdio rest
    return reply :: replies

end Server

def toolsCall (name : String) (args : Json) : JsonRpcRequest :=
  ⟨"2.0", some (.int 1), "tools/call", some (.obj [("name", .str name), ("arguments", args)])⟩

end Mcp

end HyprPilot
