import HyprPilot.Daemon.Protocol
import HyprPilot.Mcp.Tools

/-!
# The server's protocol

JSON-RPC envelopes and the results of the supported methods. A text that prints data as JSON is kept
as the data; `Content.rendered` gives the others.
-/

namespace HyprPilot

structure JsonRpcRequest where
  jsonrpc : String
  /-- Absent on notifications. -/
  id : Option Json
  method : String
  params : Option Json

inductive ErrorCode where
  | parseError | invalidRequest | methodNotFound | invalidParams | internalError | toolExecution
  | capabilityDenied
  deriving DecidableEq

def ErrorCode.code : ErrorCode → Int
  | .parseError => -32700
  | .invalidRequest => -32600
  | .methodNotFound => -32601
  | .invalidParams => -32602
  | .internalError => -32603
  | .toolExecution => -32000
  | .capabilityDenied => -32001

structure JsonRpcError where
  code : Int
  message : String
  deriving DecidableEq

/-! ### Contents -/

inductive Content where
  | text (s : String)
  | reply (value : Reply)
  | matched (query : String) (found : List TextMatch)
  | clickPreview (op : ClickTextOp) (chosen : TextMatch) (total : Nat) (x y : Int)
  | clickApplied (chosen : TextMatch) (total : Nat) (x y : Int)
  | elementPreview (op : A11yClickOp) (chosen : Element) (total : Nat) (window : Client) (x y : Int)
  | elementApplied (chosen : Element) (total : Nat) (x y : Int)
  | dryRunBody (preview : SnapshotRestorePreview)
  | image (bytes : List UInt8) (mime : String)

def renderPoint (x y : Int) : String := "(" ++ toString x ++ ", " ++ toString y ++ ")"

def renderBox (x y w h : Int) : String :=
  toString x ++ "," ++ toString y ++ " " ++ toString w ++ "x" ++ toString h

def renderClickPreview (op : ClickTextOp) (chosen : TextMatch) (total : Nat) (x y : Int) : String :=
  "[dry_run] click_text would " ++ Tools.buttonDebug op.button ++ "-click `" ++ chosen.text ++
    "` at compositor " ++ renderPoint x y ++ " (bbox " ++
    renderBox chosen.bbox.x chosen.bbox.y chosen.bbox.w chosen.bbox.h ++ ", conf " ++
    toString chosen.confidence ++ ", match " ++ toString op.matchIndex ++ "/" ++ toString total ++
    ").\n\nPass `dry_run: false` to apply."

def renderA11yClickPreview (op : A11yClickOp) (chosen : Element) (total : Nat) (window : Client)
    (x y : Int) : String :=
  "[dry_run] a11y_click would " ++ Tools.buttonDebug op.button ++ "-click " ++ chosen.role ++ " `" ++
    chosen.name ++ "` at compositor " ++ renderPoint x y ++ ".\nwindow `" ++ window.className ++
    "` origin " ++ renderPoint window.at_.1 window.at_.2 ++ " + element window-relative centre " ++
    renderPoint chosen.center.1 chosen.center.2 ++ "; box " ++
    renderBox chosen.x chosen.y chosen.w chosen.h ++ "; match " ++ toString op.matchIndex ++ "/" ++
    toString total ++ ".\n\nPass `dry_run: false` to apply."

/-- The text of a content block that is not JSON or an image. -/
def Content.rendered : Content → Option String
  | .text s => some s
  | .clickPreview op chosen total x y => some (renderClickPreview op chosen total x y)
  | .elementPreview op chosen total window x y =>
    some (renderA11yClickPreview op chosen total window x y)
  | _ => none

/-- At most eight candidates, and how many more there are. -/
def renderCandidates {α : Type} (row : α → String) (found : List α) : String :=
  let rows := (found.take 8).zipIdx.map fun (m, i) => "  [" ++ toString i ++ "] " ++ row m ++ "\n"
  String.join rows ++
    if 8 < found.length then "  ... and " ++ toString (found.length - 8) ++ " more\n" else ""

def renderAmbiguity (query : String) (found : List TextMatch) : String :=
  "ambiguous: `" ++ query ++ "` matched " ++ toString found.length ++
    " regions on screen. Pass `match_index` (0.." ++ toString (found.length - 1) ++
    ") to pick one, or `require_unique: false` to take the first:\n" ++
    renderCandidates (fun m : TextMatch => "`" ++ m.text ++ "` at (" ++ toString m.bbox.x ++ "," ++
      toString m.bbox.y ++ ") " ++ toString m.bbox.w ++ "x" ++ toString m.bbox.h ++ " conf=" ++
      toString m.confidence) found

def renderA11yAmbiguity (query : String) (found : List Element) : String :=
  "ambiguous: `" ++ query ++ "` matched " ++ toString found.length ++
    " clickable accessibility elements. Pass `match_index` (0.." ++ toString (found.length - 1) ++
    ") to pick one, or `require_unique: false` to take the first:\n" ++
    renderCandidates (fun m : Element => m.role ++ " `" ++ m.name ++ "` (window-rel " ++
      renderBox m.x m.y m.w m.h ++ ")") found

/-! ### Results -/

structure CallToolResult where
  content : List Content
  isError : Bool

structure InitializeResult where
  protocolVersion : String
  serverName : String
  serverVersion : String
  instructions : String

inductive McpResult where
  | initialized (result : InitializeResult)
  | pong
  | tools (tools : List ToolDef)
  | called (result : CallToolResult)

structure JsonRpcResponse where
  id : Json
  result : Option McpResult
  error : Option JsonRpcError

namespace JsonRpcResponse

def ok (id : Json) (result : McpResult) : JsonRpcResponse := ⟨id, some result, none⟩

def err (id : Json) (code : ErrorCode) (message : String) : JsonRpcResponse :=
  ⟨id, none, some ⟨code.code, message⟩⟩

def shown (id : Json) (content : Content) : JsonRpcResponse := ok id (.called ⟨[content], false⟩)

end JsonRpcResponse

/-- A failure of the tool itself is content; any other is a JSON-RPC error. -/
def toolError (id : Json) (code : ErrorCode) (message : String) : JsonRpcResponse :=
  match code with
  | .toolExecution => .ok id (.called ⟨[.text message], true⟩)
  | code => .err id code message

/-! ### Calls -/

structure CallToolParams where
  name : String
  arguments : Json

def CallToolParams.ofJson : Json → Json.Result CallToolParams :=
  Json.struct "CallToolParams" 2 fun args => do
    let name ← args.required "CallToolParams" 2 0 "name" Json.asString
    return ⟨name, ← args.optional 1 "arguments" .ok .null⟩

def CallToolParams.ofRequest (request : JsonRpcRequest) : Json.Result CallToolParams :=
  match request.params with
  | none => .error "missing params"
  | some params => CallToolParams.ofJson params

/-! ### The daemon's client -/

inductive ClientError where
  | connect (path source : String)
  | closed
  | io (text : String)
  | encode (text : String)
  | idMismatch (expected got : Nat)
  | rpc (code message : String)
  deriving DecidableEq

def ClientError.text : ClientError → String
  | .connect path source => "daemon socket not reachable at " ++ path ++ ": " ++ source
  | .closed => "daemon closed the connection unexpectedly"
  | .io text => "I/O failure talking to daemon: " ++ text
  | .encode text => "failed to encode RPC request: " ++ text
  | .idMismatch expected got =>
    "daemon returned response with mismatched id (expected " ++ toString expected ++ ", got " ++
      toString got ++ ")"
  | .rpc code message => "daemon error [" ++ code ++ "]: " ++ message

/-- Codes of bad input are errors of the parameters, all others of the execution. -/
def classifyDaemonError : ClientError → ErrorCode × String
  | .rpc code message =>
    (if code = Codes.snapshotInvalidName ∨ code = Codes.snapshotNotFound then .invalidParams
      else .toolExecution,
      "[" ++ code ++ "] " ++ message)
  | e => (.toolExecution, e.text)

end HyprPilot
