import HyprPilot.Mcp.Server

/-!
# Replies

On each of its paths a handler answers the id that it was given, with a result or with an error of
the parameters, and after a failed request it drops the connection before it asks the daemon again.
`handle` answers each request once, but its methods do not agree on what a notification is.
-/

namespace HyprPilot
open Interact

/-- A response to the id: a result, or an error of the parameters. -/
def JsonRpcResponse.Replies (id : Json) (response : JsonRpcResponse) : Prop :=
  response.id = id ∧
    ((∃ result, response.result = some result ∧ response.error = none) ∨
      ∃ message, response.result = none ∧
        response.error = some ⟨ErrorCode.invalidParams.code, message⟩)

namespace Mcp

/-! ### The connection between the requests of a call -/

/-- Whether a request on the connection has failed since it was opened. -/
def Fails : (c : Cmd) → Ans c → Bool → Bool → Prop
  | .daemon _, .ok _, _, after => after = false
  | .daemon _, .error _, _, after => after = true
  | .dropDaemon, _, _, after => after = false
  | _, _, before, after => after = before

def Sendable : Cmd → Bool → Prop
  | .daemon _, failed => failed = false
  | _, _ => True

/-- Started on a connection without a failure the program sends nothing on a failed one and leaves
none. -/
abbrev Tidy {α : Type} (post : α → Prop) (p : Session α) : Prop :=
  p.wp Fails Sendable (fun a failed => failed = false ∧ post a) false

/-- Neither the daemon nor the connection is involved. -/
def Local : Cmd → Prop
  | .daemon _ | .dropDaemon => False
  | _ => True

section Tidy

variable {α β : Type}

theorem tidy_ret {post : α → Prop} {a : α} (holds : post a) : Tidy post (.ret a) := ⟨rfl, holds⟩

theorem tidy_bind {mid : α → Prop} {post : β → Prop} {p : Session α} {f : α → Session β}
    (first : Tidy mid p) (rest : ∀ a, mid a → Tidy post (f a)) : Tidy post (p >>= f) := by
  refine Prog.wp_bind.mpr (Prog.wp_mono ?_ first)
  rintro a failed ⟨rfl, reached⟩
  exact rest a reached

theorem tidy_local {p : Session α} (inside : p.Asks Local) : Tidy (fun _ => True) p := by
  induction p with
  | ret a => exact ⟨rfl, trivial⟩
  | ask c k ih =>
    obtain ⟨here, later⟩ := inside
    refine ⟨?_, fun x failed still => ?_⟩
    · cases c with
      | daemon request => exact here.elim
      | _ => trivial
    · have same : failed = false := by
        cases c with
        | daemon request => exact here.elim
        | dropDaemon => exact here.elim
        | _ => exact still
      subst same
      exact ih x (later x)

/-- An error is a response. -/
def Failing (id : Json) : Except JsonRpcResponse α → Prop
  | .ok _ => True
  | .error response => response.Replies id

end Tidy

section Responses

variable (id : Json)

theorem replies_ok (result : McpResult) : (JsonRpcResponse.ok id result).Replies id :=
  ⟨rfl, .inl ⟨result, rfl, rfl⟩⟩

theorem replies_shown (content : Content) : (JsonRpcResponse.shown id content).Replies id :=
  replies_ok id _

theorem replies_failed (message : String) : (toolError id .toolExecution message).Replies id :=
  replies_ok id _

theorem replies_invalid (message : String) : (toolError id .invalidParams message).Replies id :=
  ⟨rfl, .inr ⟨message, rfl, rfl⟩⟩

theorem replies_daemonError (e : ClientError) :
    (toolError id (classifyDaemonError e).1 (classifyDaemonError e).2).Replies id := by
  cases e with
  | rpc code message =>
    unfold classifyDaemonError
    by_cases named : code = Codes.snapshotInvalidName ∨ code = Codes.snapshotNotFound
    · simp only [if_pos named]
      exact replies_invalid id _
    · simp only [if_neg named]
      exact replies_failed id _
  | _ => exact replies_failed id _

end Responses

abbrev Replying (id : Json) (p : Session JsonRpcResponse) : Prop :=
  Tidy (JsonRpcResponse.Replies id) p

/-! ### The handlers -/

section Handlers

variable {id : Json}

theorem asks_captureRegion (region : Region) (cursor : Bool) (format : ImageFormat) :
    (captureRegion region cursor format).Asks Local := by
  unfold captureRegion
  split
  · trivial
  · exact ⟨trivial, fun _ => trivial⟩

theorem asks_captureScan (region : Option Region) : (captureScan region).Asks Local := by
  refine ⟨trivial, fun ready => ?_⟩
  cases ready with
  | error e => trivial
  | ok _ =>
    cases region with
    | none => exact ⟨trivial, fun _ => trivial⟩
    | some r => exact asks_captureRegion r false .ppm

theorem asks_extractText (lang : String) (psm : Psm) (image : List UInt8) :
    (extractText lang psm image).Asks Local := by
  refine ⟨trivial, fun ready => ?_⟩
  cases ready with
  | error e => trivial
  | ok _ => exact ⟨trivial, fun _ => trivial⟩

theorem asks_extractWords (op : FindTextOp) (image : List UInt8) :
    (extractWords op image).Asks Local := by
  refine ⟨trivial, fun ready => ?_⟩
  cases ready with
  | error e => trivial
  | ok _ => exact ⟨trivial, fun _ => trivial⟩

theorem asks_scanForMatches (region : Option Region) (op : FindTextOp) :
    (scanForMatches region op).Asks Local := by
  refine Prog.Asks.bind ((asks_captureScan region).bind fun image => ?_) fun words => by
    cases words <;> trivial
  cases image with
  | error e => trivial
  | ok image => exact asks_extractWords op image

/-- An asked request sends nothing but the request and, when it fails, the drop of the connection. -/
theorem asked_asks {P : Cmd → Prop} {request : Request} (asks : P (.daemon request))
    (drops : P .dropDaemon) : (asked id request).Asks P := by
  refine ⟨asks, fun answer => ?_⟩
  cases answer with
  | ok value => trivial
  | error e => exact ⟨drops, fun _ => trivial⟩

theorem tidy_asked (request : Request) : Tidy (Failing id) (asked id request) := by
  refine ⟨rfl, fun answer failed after => ?_⟩
  cases answer with
  | ok value => exact ⟨after, trivial⟩
  | error e => exact ⟨trivial, fun _ dropped cleared => ⟨cleared, replies_daemonError id e⟩⟩

theorem tidy_forward (request : Request) : Replying id (forward id request) := by
  refine tidy_bind (tidy_asked request) fun result failing => ?_
  cases result with
  | ok value => exact tidy_ret (replies_shown id _)
  | error response => exact tidy_ret failing

theorem tidy_previewSnapshotRestore (name : String) :
    Replying id (previewSnapshotRestore id name) := by
  refine tidy_bind (tidy_asked _) fun result failing => ?_
  rcases result with response | value
  · exact tidy_ret failing
  · cases value with
    | preview preview => exact tidy_ret (replies_shown id _)
    | _ => exact tidy_ret (replies_failed id _)

theorem tidy_handleCapture (op : CaptureOp) : Replying id (handleCapture id op) := by
  refine tidy_bind (tidy_local (p := grimDetect) ⟨trivial, fun _ => trivial⟩) fun ready _ => ?_
  cases ready with
  | error e => exact tidy_ret (replies_failed id _)
  | ok _ =>
    cases op with
    | full monitor cursor format =>
      refine tidy_bind (tidy_local (p := captureFull monitor cursor format)
        ⟨trivial, fun _ => trivial⟩) fun result _ => ?_
      cases result with
      | ok bytes => exact tidy_ret (replies_shown id _)
      | error e => exact tidy_ret (replies_failed id _)
    | region region cursor format =>
      refine tidy_bind (tidy_local (asks_captureRegion region cursor format)) fun result _ => ?_
      cases result with
      | ok bytes => exact tidy_ret (replies_shown id _)
      | error e => exact tidy_ret (replies_failed id _)

theorem tidy_resolveActiveWindowRegion : Tidy (Failing id) (resolveActiveWindowRegion id) := by
  refine tidy_bind (tidy_asked _) fun result failing => ?_
  rcases result with response | value
  · exact tidy_ret failing
  · cases value with
    | activeWindow window =>
      cases window with
      | none => exact tidy_ret (replies_failed id _)
      | some c =>
        refine tidy_ret ?_
        show Failing id (if c.size.1 ≤ 0 ∨ c.size.2 ≤ 0 then _ else _)
        split
        · exact replies_failed id _
        · trivial
    | null => exact tidy_ret (replies_failed id _)
    | _ => exact tidy_ret (replies_failed id _)

theorem tidy_scanRegion (op : FindTextOp) : Tidy (Failing id) (scanRegion id op) := by
  unfold scanRegion
  split
  · refine tidy_bind tidy_resolveActiveWindowRegion fun result failing => ?_
    cases result with
    | ok region => exact tidy_ret trivial
    | error response => exact tidy_ret failing
  · exact tidy_ret trivial

theorem tidy_handleOcr (op : OcrOp) : Replying id (handleOcr id op) := by
  have scan (region : Option Region) (lang : String) (psm : Psm)
      {f : Except VisionError String → Session JsonRpcResponse} (shown : ∀ text, Replying id (f (.ok text)))
      (failed : ∀ e, Replying id (f (.error e))) :
      Replying id ((captureScan region).andThen (extractText lang psm) >>= f) := by
    have inside : ((captureScan region).andThen (extractText lang psm)).Asks Local := by
      refine (asks_captureScan region).bind fun image => ?_
      cases image with
      | error e => trivial
      | ok image => exact asks_extractText lang psm image
    refine tidy_bind (tidy_local inside) fun result _ => ?_
    cases result with
    | ok text => exact shown text
    | error e => exact failed e
  have shown (text : String) : Replying id (.ret (.shown id (.text text))) := tidy_ret (replies_shown id _)
  have failed (e : VisionError) : Replying id (.ret (toolError id .toolExecution e.text)) :=
    tidy_ret (replies_failed id _)
  cases op with
  | screen lang psm => exact scan none lang psm shown failed
  | region region lang psm => exact scan (some region) lang psm shown failed
  | activeWindow lang psm =>
    refine tidy_bind tidy_resolveActiveWindowRegion fun result failing => ?_
    cases result with
    | ok region => exact scan (some region) lang psm shown failed
    | error response => exact tidy_ret failing

theorem tidy_handleFindText (op : FindTextOp) : Replying id (handleFindText id op) := by
  refine tidy_bind (tidy_scanRegion op) fun result failing => ?_
  cases result with
  | error response => exact tidy_ret failing
  | ok region =>
    refine tidy_bind (tidy_local (asks_scanForMatches region op)) fun found _ => ?_
    cases found with
    | ok found => exact tidy_ret (replies_shown id _)
    | error e => exact tidy_ret (replies_failed id _)

theorem replies_chooseMatch {α : Type} {requireUnique : Bool} {matchIndex : Nat} {found : List α}
    {missing ambiguous outOfBounds : String} {response : JsonRpcResponse}
    (refused : chooseMatch id requireUnique matchIndex found missing ambiguous outOfBounds =
      .error response) : response.Replies id := by
  unfold chooseMatch at refused
  split at refused
  · cases refused
    exact replies_failed id _
  · split at refused
    · cases refused
      exact replies_failed id _
    · split at refused
      · cases refused
      · cases refused
        exact replies_invalid id _

theorem tidy_clickAt (x y : Int) (button : MouseButton) (applied : Content) :
    Replying id (clickAt id x y button applied) := by
  refine tidy_bind (tidy_asked _) fun moved failing => ?_
  cases moved with
  | error response => exact tidy_ret failing
  | ok _ =>
    refine tidy_bind (tidy_asked _) fun clicked failing => ?_
    cases clicked with
    | error response => exact tidy_ret failing
    | ok _ => exact tidy_ret (replies_shown id _)

theorem tidy_handleClickText (op : ClickTextOp) : Replying id (handleClickText id op) := by
  refine tidy_bind (tidy_scanRegion _) fun result failing => ?_
  cases result with
  | error response => exact tidy_ret failing
  | ok region =>
    refine tidy_bind (tidy_local (asks_scanForMatches region _)) fun found _ => ?_
    cases found with
    | error e => exact tidy_ret (replies_failed id _)
    | ok found =>
      dsimp only
      split
      · rename_i refused
        exact tidy_ret (replies_chooseMatch refused)
      · refine tidy_bind (tidy_asked _) fun answer failing => ?_
        rcases answer with response | value
        · exact tidy_ret failing
        · cases value with
          | monitors monitors =>
            show Replying id (if op.dryRun then _ else _)
            split
            · exact tidy_ret (replies_shown id _)
            · exact tidy_clickAt _ _ _ _
          | _ => exact tidy_ret (replies_failed id _)

theorem tidy_handleA11yClick (op : A11yClickOp) : Replying id (handleA11yClick id op) := by
  refine tidy_bind (tidy_asked _) fun result failing => ?_
  rcases result with response | value
  · exact tidy_ret failing
  · dsimp only
    split
    · rename_i refused
      exact tidy_ret (replies_chooseMatch refused)
    · split
      · exact tidy_ret (replies_failed id _)
      · refine tidy_bind (tidy_asked _) fun answer failing => ?_
        rcases answer with response | reply
        · exact tidy_ret failing
        · cases reply with
          | clients clients =>
            dsimp only
            split
            · exact tidy_ret (replies_failed id _)
            · show Replying id (if op.dryRun then _ else _)
              split
              · exact tidy_ret (replies_shown id _)
              · exact tidy_clickAt _ _ _ _
          | _ => exact tidy_ret (replies_failed id _)

theorem tidy_runDispatch (dispatch : Dispatch) : Replying id (runDispatch id dispatch) := by
  cases dispatch with
  | preview text => exact tidy_ret (replies_shown id _)
  | forward request => exact tidy_forward request
  | previewSnapshotRestore name => exact tidy_previewSnapshotRestore name
  | capture op => exact tidy_handleCapture op
  | ocr op => exact tidy_handleOcr op
  | findText op => exact tidy_handleFindText op
  | clickText op => exact tidy_handleClickText op
  | a11yClick op => exact tidy_handleA11yClick op

end Handlers

/-! ### One message -/

/-- A response to the id with exactly one of a result and an error. -/
def Single (id : Json) (response : JsonRpcResponse) : Prop :=
  response.id = id ∧ (response.result.isSome ↔ response.error = none)

theorem single_ok (id : Json) (result : McpResult) : Single id (.ok id result) :=
  ⟨rfl, iff_of_true rfl rfl⟩

theorem single_err (id : Json) (code : ErrorCode) (message : String) :
    Single id (.err id code message) :=
  ⟨rfl, iff_of_false nofun nofun⟩

theorem single_of_replies {id : Json} {response : JsonRpcResponse} (replies : response.Replies id) :
    Single id response := by
  rcases replies with ⟨same, ⟨result, given, clear⟩ | ⟨message, absent, failed⟩⟩
  · exact ⟨same, iff_of_true (by rw [given]; rfl) clear⟩
  · exact ⟨same, iff_of_false (by simp [absent]) (by simp [failed])⟩

theorem single_dispatchFailed (id : Json) (e : DispatchError) :
    Single id (Server.dispatchFailed id e) := by
  cases e <;> exact single_err id _ _

section Calls

variable {server : Server} {id : Json} {params : CallToolParams} {tool : Tool}

theorem callTool_unknown (unknown : Tool.named params.name = none) :
    server.callTool id params =
      .ret (toolError id .methodNotFound ("unknown tool `" ++ params.name ++ "`")) := by
  rw [Server.callTool, unknown]
  rfl

theorem callTool_denied (named : Tool.named params.name = some tool)
    (denied : server.profile.allows tool.toDef.name tool.toDef.group = false) :
    server.callTool id params = .ret (toolError id .capabilityDenied ("tool `" ++ tool.toDef.name ++
      "` is not permitted by the active capability profile `" ++ server.profile.name ++
      "` (group: `" ++ tool.toDef.group.name ++ "`)")) := by
  rw [Server.callTool, named]
  simp only [denied]
  rfl

theorem callTool_allowed (named : Tool.named params.name = some tool)
    (allowed : server.profile.allows tool.toDef.name tool.toDef.group = true) :
    server.callTool id params = match Tools.dispatchTool tool params.arguments with
      | .error e => .ret (Server.dispatchFailed id e)
      | .ok dispatch => runDispatch id dispatch := by
  rw [Server.callTool, Tools.dispatch, named]
  simp only [allowed, if_true]
  rfl

end Calls

theorem tidy_callTool (server : Server) (id : Json) (params : CallToolParams) :
    Tidy (Single id) (server.callTool id params) := by
  cases named : Tool.named params.name with
  | none =>
    rw [callTool_unknown named]
    exact tidy_ret (single_err id _ _)
  | some tool =>
    cases allowed : server.profile.allows tool.toDef.name tool.toDef.group with
    | false =>
      rw [callTool_denied named allowed]
      exact tidy_ret (single_err id _ _)
    | true =>
      rw [callTool_allowed named allowed]
      split
      · exact tidy_ret (single_dispatchFailed id _)
      · exact Prog.wp_mono (fun _ _ done => ⟨done.1, single_of_replies done.2⟩)
          (tidy_runDispatch _)

theorem tidy_handleCallTool (server : Server) (request : JsonRpcRequest) :
    Tidy (Single (Server.responseId request)) (server.handleCallTool request) := by
  unfold Server.handleCallTool
  split
  · exact tidy_ret (single_err _ _ _)
  · exact tidy_callTool server _ _

theorem tidy_run {α : Type} {post : α → Prop} {p : Session α} {tr : List (Sigma Ans)} {a : α}
    (tidy : Tidy post p) (run : Prog.Run p tr a) : post a := by
  have total : ∀ c x s, ∃ t, Fails c x s t := by
    intro c x s
    cases c with
    | daemon request => cases x <;> exact ⟨_, rfl⟩
    | _ => exact ⟨_, rfl⟩
  obtain ⟨_, -, holds⟩ := Prog.run_wp total tidy run
  exact holds

/-- No response exactly to a notification, and one response to every other request. -/
def Disciplined (request : JsonRpcRequest) (reply : Option JsonRpcResponse) : Prop :=
  (reply = none ↔ request.id = none) ∧
    ∀ id, request.id = some id → ∃ response, reply = some response ∧ Single id response

/-- The method is not one that is answered, or left unanswered, whatever the id. -/
def FollowsId (request : JsonRpcRequest) : Prop :=
  match request.id with
  | some _ => request.method ≠ "notifications/initialized"
  | none => request.method ≠ "initialize" ∧ request.method ≠ "tools/list" ∧
      request.method ≠ "tools/call"

theorem disciplined_map {request : JsonRpcRequest} {answer : Json → JsonRpcResponse}
    (single : ∀ id, Single id (answer id)) : Disciplined request (request.id.map answer) := by
  refine ⟨Option.map_eq_none_iff, fun id given => ⟨answer id, ?_, single id⟩⟩
  rw [given, Option.map_some]

theorem disciplined_some {request : JsonRpcRequest} {response : JsonRpcResponse}
    (single : Single (Server.responseId request) response) :
    Disciplined request (some response) ↔ request.id.isSome := by
  unfold Disciplined
  cases given : request.id with
  | none => simp
  | some id =>
    rw [Server.responseId, given] at single
    simpa using single

theorem followsId_answered {request : JsonRpcRequest}
    (answered : request.method ∈ ["initialize", "tools/list", "tools/call"]) :
    FollowsId request ↔ request.id.isSome := by
  have spoken : request.method ≠ "notifications/initialized" := by
    intro same
    rw [same] at answered
    revert answered
    decide
  unfold FollowsId
  cases request.id with
  | none => simpa [imp_iff_not_or, or_assoc] using answered
  | some id => simpa using spoken

theorem followsId_other {request : JsonRpcRequest}
    (other : request.method ∉ ["initialize", "notifications/initialized", "tools/list", "tools/call"]) :
    FollowsId request := by
  simp only [List.mem_cons, List.not_mem_nil, or_false, not_or] at other
  unfold FollowsId
  cases request.id with
  | none => exact ⟨other.1, other.2.2⟩
  | some id => exact other.2.1

/-- A request gets the reply that its id calls for exactly when its version is refused or its
method is answered by the id. -/
theorem Server.reply_discipline {server : Server} {request : JsonRpcRequest}
    {tr : List (Sigma Ans)} {reply : Option JsonRpcResponse}
    (run : Prog.Run (server.handle request) tr reply) :
    Disciplined request reply ↔ (request.jsonrpc = "2.0" → FollowsId request) := by
  unfold handle at run
  by_cases version : request.jsonrpc ≠ "2.0"
  · rw [if_pos version] at run
    obtain ⟨-, rfl⟩ := Prog.run_ret.mp run
    exact iff_of_true (disciplined_map fun id => single_err id _ _) fun same => absurd same version
  rw [if_neg version] at run
  rw [imp_iff_right (not_not.mp version)]
  split at run
  · rename_i method
    obtain ⟨-, rfl⟩ := Prog.run_ret.mp run
    exact (disciplined_some (single_ok _ _)).trans (followsId_answered (by simp [method])).symm
  · rename_i method
    obtain ⟨-, rfl⟩ := Prog.run_ret.mp run
    unfold Disciplined FollowsId
    cases request.id <;> simp [method]
  · rename_i method
    obtain ⟨-, rfl⟩ := Prog.run_ret.mp run
    refine iff_of_true (disciplined_map fun id => single_ok id _) (followsId_other ?_)
    simp [method]
  · rename_i method
    obtain ⟨-, rfl⟩ := Prog.run_ret.mp run
    exact (disciplined_some (single_ok _ _)).trans (followsId_answered (by simp [method])).symm
  · rename_i method
    rw [followsId_answered (by simp [method])]
    have tidy : Tidy (fun reply => Disciplined request reply ↔ request.id.isSome)
        (server.handleCallTool request >>= fun response => pure (some response)) :=
      tidy_bind (tidy_handleCallTool server request) fun _ single => tidy_ret (disciplined_some single)
    have replied := tidy_run tidy run
    exact replied
  · rename_i opens opened pings lists calls
    obtain ⟨-, rfl⟩ := Prog.run_ret.mp run
    refine iff_of_true (disciplined_map fun id => single_err id _ _) (followsId_other ?_)
    simp only [List.mem_cons, List.not_mem_nil, or_false, not_or]
    exact ⟨opens, opened, lists, calls⟩

def ping (id : Option Json) : JsonRpcRequest := ⟨"2.0", id, "ping", none⟩

theorem Server.reply_discipline_ping :
    Disciplined (ping (some (.int 7))) (some (.ok (.int 7) .pong)) := by
  have run : Prog.Run ((⟨.defaultSafe, "0.2"⟩ : Server).handle (ping (some (.int 7)))) []
      (some (JsonRpcResponse.ok (.int 7) .pong)) := .ret _
  have spoken : "ping" ≠ "notifications/initialized" := by decide
  exact (reply_discipline run).mpr fun _ => spoken

/-- A notification with the method `tools/list` is answered. -/
theorem Server.notification_answered :
    ∃ reply, Prog.Run ((⟨.defaultSafe, "0.2"⟩ : Server).handle ⟨"2.0", none, "tools/list", none⟩) []
      (some reply) ∧ ¬Disciplined ⟨"2.0", none, "tools/list", none⟩ (some reply) :=
  ⟨_, .ret _, fun disciplined => nomatch disciplined.1.mpr rfl⟩

end Mcp

end HyprPilot
