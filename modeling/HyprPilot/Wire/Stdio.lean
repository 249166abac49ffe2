import HyprPilot.Mcp.Replies
import HyprPilot.Wire.Framing
import HyprPilot.Wire.JsonRpc
import Mathlib.Data.List.ReduceOption

/-!
# The server on standard input and output

The server reads its input a line at a time and prints a line for each response. Whatever the input
is, the printed lines are the answers to its messages in their order, each with the id of its message.
-/

namespace HyprPilot
open Interact

namespace Wire

def isLineEnd (c : Char) : Bool := c == '\n' || c == '\r'

def trimLine (s : String) : String := dropEnd isLineEnd s

/-- The lines of a stream; bytes that are no text end it. -/
def texts : Nat → List UInt8 → List String
  | 0, _ => []
  | fuel + 1, bytes =>
    if bytes = [] then []
    else
      let (line, rest) := (Lines.cut isNewline bytes).getD (bytes, [])
      match Text.fromUtf8 line with
      | none => []
      | some text => text :: texts fuel rest

theorem texts_line {text : String} (oneLine : '\n' ∉ text.toList) (fuel : Nat) (rest : List UInt8) :
    texts (fuel + 1) (line text ++ rest) = (text ++ "\n") :: texts fuel rest := by
  have isLine := isLine_line oneLine
  have nonempty : line text ++ rest ≠ [] := List.append_ne_nil_of_left_ne_nil isLine.ne_nil rest
  rw [texts, if_neg nonempty, Lines.cut_append isLine, Option.getD_some]
  dsimp only
  rw [fromUtf8_line]

theorem texts_lines {lines : List String} (oneLine : ∀ text ∈ lines, '\n' ∉ text.toList) {fuel : Nat}
    (enough : lines.length ≤ fuel) :
    texts fuel (lines.flatMap line) = lines.map fun text => text ++ "\n" := by
  induction lines generalizing fuel with
  | nil => cases fuel <;> rfl
  | cons text lines ih =>
    obtain ⟨first, rest⟩ := List.forall_mem_cons.mp oneLine
    obtain ⟨fuel, rfl⟩ := Nat.exists_eq_add_of_le' (Nat.le_of_add_left_le enough)
    rw [List.length_cons] at enough
    rw [List.flatMap_cons, texts_line first, ih rest (by omega)]
    rfl

theorem length_le_lines (lines : List String) : lines.length ≤ (lines.flatMap line).length := by
  induction lines with
  | nil => simp
  | cons text lines ih =>
    rw [List.flatMap_cons, List.length_append, line, List.length_append, List.length_cons,
      List.length_singleton]
    omega

end Wire

namespace Mcp
open Wire

variable (serde : Serde) (printing : Printing)

def parseRequest (text : String) : Except String JsonRpcRequest :=
  match (serde.fromStr text).bind (JsonRpcRequest.read serde.rounded) with
  | some request => .ok request
  | none => .error (serde.explain text)

def printed : Option JsonRpcResponse → List UInt8
  | some response => line (serde.toString (printing.response response))
  | none => []

namespace Server

/-- The loop of `run_stdio`: what it prints for its input. -/
def stdioLoop (server : Server) : Nat → List UInt8 → Session (List UInt8)
  | 0, _ => return []
  | fuel + 1, bytes =>
    if bytes = [] then return []
    else
      let (line, rest) := (Lines.cut isNewline bytes).getD (bytes, [])
      match Text.fromUtf8 line with
      | none => return []
      | some text =>
        let trimmed := trimLine text
        if trimmed = "" then server.stdioLoop fuel rest
        else do
          let response ← server.handleLine (parseRequest serde trimmed)
          let later ← server.stdioLoop fuel rest
          return printed serde printing response ++ later

def stdio (server : Server) (bytes : List UInt8) : Session (List UInt8) :=
  server.stdioLoop serde printing bytes.length bytes

end Server

/-- The message of a line; an empty line has none. -/
def message (text : String) : Option (Except String JsonRpcRequest) :=
  if trimLine text = "" then none else some (parseRequest serde (trimLine text))

def messages (bytes : List UInt8) : List (Except String JsonRpcRequest) :=
  (texts bytes.length bytes).filterMap (message serde)

/-- The loop on bytes is the loop on the messages in them. -/
theorem Server.stdioLoop_eq (server : Server) (fuel : Nat) (bytes : List UInt8) :
    server.stdioLoop serde printing fuel bytes =
      server.runStdio ((texts fuel bytes).filterMap (message serde)) >>= fun replies =>
        .ret (replies.flatMap (printed serde printing)) := by
  induction fuel generalizing bytes with
  | zero => rfl
  | succ fuel ih =>
    rw [stdioLoop, texts]
    split
    · rfl
    · dsimp only
      cases decoded : Text.fromUtf8 ((Lines.cut isNewline bytes).getD (bytes, [])).1 with
      | none => rfl
      | some text =>
        dsimp only
        by_cases empty : trimLine text = ""
        · have none : message serde text = none := if_pos empty
          rw [if_pos empty, List.filterMap_cons_none none, ih]
        · have some_ : message serde text = some (parseRequest serde (trimLine text)) := if_neg empty
          rw [if_neg empty, List.filterMap_cons_some some_, runStdio, ih]
          simp only [Prog.bind_assoc, Prog.pure_eq, Prog.ret_bind, List.flatMap_cons]

/-! ### The input -/

/-- A line of the input: the text of a request or any other text. -/
inductive Input where
  | request (request : JsonRpcRequest)
  | other (text : String)

namespace Input

def text : Input → String
  | .request r => serde.toString r.write
  | .other text => text

def message : Input → Option (Except String JsonRpcRequest)
  | .request r => some (.ok (r.held serde.rounded))
  | .other text => Mcp.message serde text

/-- The requests can be written, and a line has no line end inside. -/
def Valid : Input → Prop
  | .request r => r.Valid serde.Holds
  | .other text => '\n' ∉ text.toList

end Input

def inputText (crlf : Bool) (input : Input) : String := input.text serde ++ if crlf then "\r" else ""

section Input

variable {serde} (complete : serde.Complete)

include complete

theorem trimLine_request {request : JsonRpcRequest} (valid : request.Valid serde.Holds) :
    trimLine (serde.toString request.write) = serde.toString request.write := by
  obtain ⟨front, last⟩ := complete.brace (complete.isFloat (JsonRpcRequest.fits_write valid))
  exact dropEnd_of_last last (by decide)

theorem message_request {request : JsonRpcRequest} (valid : request.Valid serde.Holds) :
    message serde (serde.toString request.write) = some (.ok (request.held serde.rounded)) := by
  have fits := JsonRpcRequest.fits_write valid
  obtain ⟨front, last⟩ := complete.brace (complete.isFloat fits)
  have nonempty : trimLine (serde.toString request.write) ≠ "" := by
    rw [trimLine_request complete valid]
    intro empty
    have chars : (serde.toString request.write).toList = [] := by rw [empty]; rfl
    rw [JsonRpcRequest.write, last] at chars
    simp at chars
  rw [message, if_neg nonempty, parseRequest, trimLine_request complete valid, complete.whole fits,
    Option.bind_some, JsonRpcRequest.read_write]

theorem oneLine_text {input : Input} (valid : input.Valid serde) : '\n' ∉ (input.text serde).toList := by
  cases input with
  | request request =>
    exact complete.oneLine (complete.isFloat (JsonRpcRequest.fits_write valid))
  | other text => exact valid

theorem message_inputText {input : Input} (valid : input.Valid serde) (crlf : Bool) :
    message serde (inputText serde crlf input ++ "\n") = input.message serde := by
  have ended : trimLine (inputText serde crlf input ++ "\n") = trimLine (input.text serde) := by
    have newline : trimLine (inputText serde crlf input ++ "\n") = trimLine (inputText serde crlf input) :=
      dropEnd_singleton (by decide : isLineEnd '\n' = true) _
    rw [newline]
    cases crlf with
    | true => exact dropEnd_singleton (by decide : isLineEnd '\r' = true) _
    | false => rw [inputText, if_neg (by decide), String.append_empty]
  have same : message serde (inputText serde crlf input ++ "\n") = message serde (input.text serde) := by
    rw [message, ended, message]
  rw [same]
  cases input with
  | request request => exact message_request complete valid
  | other text => rfl

theorem oneLine_inputText {input : Input} (valid : input.Valid serde) (crlf : Bool) :
    '\n' ∉ (inputText serde crlf input).toList := by
  have clear := oneLine_text complete valid
  cases crlf <;> simpa [inputText] using clear

/-- Each line is heard for itself, with either end and whatever stands on the lines around it. -/
theorem messages_inputs {inputs : List (Input × Bool)} (valid : ∀ i ∈ inputs, i.1.Valid serde) :
    messages serde (inputs.flatMap fun i => line (inputText serde i.2 i.1)) =
      inputs.filterMap fun i => i.1.message serde := by
  have oneLine : ∀ text ∈ inputs.map (fun i => inputText serde i.2 i.1), '\n' ∉ text.toList := by
    intro text inside
    obtain ⟨i, given, rfl⟩ := List.mem_map.mp inside
    exact oneLine_inputText complete (valid i given) i.2
  have shape : (inputs.flatMap fun i => line (inputText serde i.2 i.1)) =
      (inputs.map fun i => inputText serde i.2 i.1).flatMap line := by rw [List.flatMap_map]
  rw [messages, shape, texts_lines oneLine (length_le_lines _), List.map_map, List.filterMap_map]
  apply List.filterMap_congr
  intro i inside
  exact message_inputText complete (valid i inside) i.2

end Input

/-- A call whose id is an object, its keys out of order, and whose parameters have a fraction. -/
def wideCall : JsonRpcRequest :=
  ⟨"2.0", some (.obj [("b", .int 1), ("a", .null)]), "ping", some (.arr [.float "0.5"])⟩

theorem wideCall_valid : wideCall.Valid Serde.plain.Holds where
  id v given := by
    cases given
    exact .obj (by simp) (by simpa using ⟨.int (by simp [JsonText.InRange]), .null⟩)
  params v given := by
    cases given
    exact .arr (by simpa using .float ⟨rfl, List.all_eq_true.mp rfl⟩)

/-- The keys of the id are in order, and the empty line is no message. -/
theorem messages_inputs_three :
    messages .plain ([(.request wideCall, true), (.other "", false), (.other "[", true)].flatMap
      fun i => line (inputText .plain i.2 i.1)) =
    [.ok ⟨"2.0", some (.obj [("a", .null), ("b", .int 1)]), "ping", some (.arr [.float "0.5"])⟩,
      .error "expected value"] := by
  have order : ¬"b" < "a" := by decide
  have held : wideCall.held id =
      ⟨"2.0", some (.obj [("a", .null), ("b", .int 1)]), "ping", some (.arr [.float "0.5"])⟩ := by
    simp [wideCall, JsonRpcRequest.held, JsonRpcRequest.given, Json.held, Json.heldItems,
      Json.heldFields, Json.keep, order]
  have bad : (Input.other "[").message .plain = some (.error "expected value") := rfl
  have empty : (Input.other "").message .plain = none := rfl
  rw [messages_inputs Serde.plain_complete (by simp [Input.Valid, wideCall_valid])]
  simp only [List.filterMap_cons, List.filterMap_nil, empty, bad]
  rw [← held]
  rfl

/-! ### Replies -/

/-- The id of the response to a message, if there is one. -/
def answeredId : Except String JsonRpcRequest → Option Json
  | .error _ => some .null
  | .ok request =>
    if request.jsonrpc ≠ "2.0" then request.id
    else if request.method ∈ ["initialize", "tools/list", "tools/call"] then
      some (Server.responseId request)
    else if request.method = "notifications/initialized" then none
    else request.id

/-- A result or an error with one of the server's codes. -/
def Proper (id : Json) (response : JsonRpcResponse) : Prop :=
  Single id response ∧ ∀ e ∈ response.error, ∃ code : ErrorCode, e.code = code.code

theorem proper_ok (id : Json) (result : McpResult) : Proper id (.ok id result) :=
  ⟨single_ok id result, fun _ given => by cases given⟩

theorem proper_err (id : Json) (code : ErrorCode) (message : String) : Proper id (.err id code message) := by
  refine ⟨single_err id code message, fun e given => ?_⟩
  cases given
  exact ⟨code, rfl⟩

theorem proper_of_replies {id : Json} {response : JsonRpcResponse} (replies : response.Replies id) :
    Proper id response := by
  refine ⟨single_of_replies replies, fun e given => ?_⟩
  obtain ⟨-, ⟨result, -, clear⟩ | ⟨message, -, failed⟩⟩ := replies
  · rw [clear] at given
    cases given
  · rw [failed] at given
    cases given
    exact ⟨.invalidParams, rfl⟩

theorem proper_dispatchFailed (id : Json) (e : DispatchError) : Proper id (Server.dispatchFailed id e) := by
  cases e <;> exact proper_err id _ _

theorem tidy_callTool_proper (server : Server) (id : Json) (params : CallToolParams) :
    Tidy (Proper id) (server.callTool id params) := by
  cases named : Tool.named params.name with
  | none =>
    rw [callTool_unknown named]
    exact tidy_ret (proper_err id _ _)
  | some tool =>
    cases allowed : server.profile.allows tool.toDef.name tool.toDef.group with
    | false =>
      rw [callTool_denied named allowed]
      exact tidy_ret (proper_err id _ _)
    | true =>
      rw [callTool_allowed named allowed]
      split
      · exact tidy_ret (proper_dispatchFailed id _)
      · exact Prog.wp_mono (fun _ _ done => ⟨done.1, proper_of_replies done.2⟩) (tidy_runDispatch _)

theorem tidy_handleCallTool_proper (server : Server) (request : JsonRpcRequest) :
    Tidy (Proper (Server.responseId request)) (server.handleCallTool request) := by
  unfold Server.handleCallTool
  split
  · exact tidy_ret (proper_err _ _ _)
  · exact tidy_callTool_proper server _ _

/-- The reply to a message: with the message's id and only where it is answered. -/
def Replied (m : Except String JsonRpcRequest) (reply : Option JsonRpcResponse) : Prop :=
  reply.map (·.id) = answeredId m ∧ (∀ response ∈ reply, Proper response.id response) ∧
    ∀ e, m = .error e → reply = some (.err .null .parseError e)

section Replied

variable {request : JsonRpcRequest}

theorem replied_some {id : Json} {response : JsonRpcResponse} (proper : Proper id response)
    (answered : answeredId (.ok request) = some id) : Replied (.ok request) (some response) := by
  have same : response.id = id := proper.1.1
  refine ⟨?_, fun r given => ?_, fun e failed => by cases failed⟩
  · rw [answered, ← same]
    rfl
  · cases given
    rw [same]
    exact proper

theorem replied_map {answer : Json → JsonRpcResponse} (proper : ∀ id, Proper id (answer id))
    (answered : answeredId (.ok request) = request.id) :
    Replied (.ok request) (request.id.map answer) := by
  cases given : request.id with
  | none =>
    rw [given] at answered
    exact ⟨answered.symm, by simp, by simp⟩
  | some id =>
    rw [given] at answered
    exact replied_some (proper id) answered

theorem replied_handle {server : Server} {tr : List (Sigma Ans)} {reply : Option JsonRpcResponse}
    (run : Prog.Run (server.handle request) tr reply) : Replied (.ok request) reply := by
  unfold Server.handle at run
  by_cases version : request.jsonrpc ≠ "2.0"
  · rw [if_pos version] at run
    obtain ⟨-, rfl⟩ := Prog.run_ret.mp run
    exact replied_map (fun id => proper_err id _ _) (if_pos version)
  rw [if_neg version] at run
  have answered : answeredId (.ok request) =
      if request.method ∈ ["initialize", "tools/list", "tools/call"] then some (Server.responseId request)
      else if request.method = "notifications/initialized" then none
      else request.id := if_neg version
  split at run
  · rename_i method
    obtain ⟨-, rfl⟩ := Prog.run_ret.mp run
    exact replied_some (proper_ok _ _) (by simp [answered, method])
  · rename_i method
    obtain ⟨-, rfl⟩ := Prog.run_ret.mp run
    exact ⟨by simp [answered, method], by simp, by simp⟩
  · rename_i method
    obtain ⟨-, rfl⟩ := Prog.run_ret.mp run
    exact replied_map (fun id => proper_ok id _) (by simp [answered, method])
  · rename_i method
    obtain ⟨-, rfl⟩ := Prog.run_ret.mp run
    exact replied_some (proper_ok _ _) (by simp [answered, method])
  · rename_i method
    have tidy : Tidy (Replied (.ok request))
        (server.handleCallTool request >>= fun response => pure (some response)) := by
      refine tidy_bind (tidy_handleCallTool_proper server request) fun response proper => ?_
      exact tidy_ret (replied_some proper (by simp [answered, method]))
    exact tidy_run tidy run
  · rename_i opens opened pings lists calls
    obtain ⟨-, rfl⟩ := Prog.run_ret.mp run
    have unlisted : request.method ∉ ["initialize", "tools/list", "tools/call"] := by
      simp only [List.mem_cons, List.not_mem_nil, or_false, not_or]
      exact ⟨opens, lists, calls⟩
    rw [if_neg unlisted, if_neg opened] at answered
    exact replied_map (fun id => proper_err id _ _) answered

end Replied

theorem replied_handleLine {server : Server} {m : Except String JsonRpcRequest} {tr : List (Sigma Ans)}
    {reply : Option JsonRpcResponse} (run : Prog.Run (server.handleLine m) tr reply) : Replied m reply := by
  cases m with
  | ok request => exact replied_handle run
  | error e =>
    obtain ⟨-, rfl⟩ := Prog.run_ret.mp run
    refine ⟨rfl, fun response given => ?_, fun e' same => ?_⟩
    · cases given
      exact proper_err _ _ _
    · cases same
      rfl

theorem replied_runStdio {server : Server} {ms : List (Except String JsonRpcRequest)}
    {tr : List (Sigma Ans)} {replies : List (Option JsonRpcResponse)}
    (run : Prog.Run (server.runStdio ms) tr replies) : List.Forall₂ Replied ms replies := by
  induction ms generalizing tr replies with
  | nil =>
    obtain ⟨-, rfl⟩ := Prog.run_ret.mp run
    exact .nil
  | cons m ms ih =>
    obtain ⟨first, _, reply, -, one, run⟩ := Prog.run_bind.mp run
    obtain ⟨_, _, rest, -, others, run⟩ := Prog.run_bind.mp run
    obtain ⟨-, rfl⟩ := Prog.run_ret.mp run
    exact .cons (replied_handleLine one) (ih others)

/-! ### The session -/

/-- The answer that a printed text holds. -/
def readAnswer (text : String) : Option RpcAnswer := (serde.fromStr text).bind RpcAnswer.read

/-- The answer to a message. -/
structure Answers (m : Except String JsonRpcRequest) (answer : RpcAnswer) : Prop where
  id : answeredId m = some answer.id
  single : answer.result.isSome ↔ answer.error = none
  malformed : ∀ e, m = .error e → answer.error = some ⟨ErrorCode.parseError.code, e⟩

theorem answers_of_replied {m : Except String JsonRpcRequest} {response : JsonRpcResponse}
    (replied : Replied m (some response)) : Answers m (printing.answer response) := by
  obtain ⟨id, proper, malformed⟩ := replied
  refine ⟨id.symm, ?_, fun e failed => ?_⟩
  · have single : response.result.isSome ↔ response.error = none := (proper response rfl).1.2
    simpa [Printing.answer] using single
  · cases malformed e failed
    rfl

theorem answers_of_replies {ms : List (Except String JsonRpcRequest)}
    {replies : List (Option JsonRpcResponse)} (replied : List.Forall₂ Replied ms replies)
    (ids : ∀ m ∈ ms, ∀ id ∈ answeredId m, JsonText.Fits serde.Holds 126 id) :
    List.Forall₂ (fun m response => Answers m (printing.answer response) ∧
        Proper response.id response ∧ JsonText.Fits serde.Holds 126 response.id)
      (ms.filter fun m => (answeredId m).isSome) replies.reduceOption := by
  induction replied with
  | nil => exact .nil
  | @cons m reply ms replies first _ ih =>
    obtain ⟨here, later⟩ := List.forall_mem_cons.mp ids
    cases reply with
    | none =>
      have silent : answeredId m = none := first.1.symm
      rw [List.reduceOption_cons_of_none, List.filter_cons_of_neg (by simp [silent])]
      exact ih later
    | some response =>
      have id : answeredId m = some response.id := first.1.symm
      rw [List.reduceOption_cons_of_some, List.filter_cons_of_pos (by simp [id])]
      exact .cons ⟨answers_of_replied printing first, first.2.1 response rfl, here _ id⟩ (ih later)

theorem flatMap_printed (replies : List (Option JsonRpcResponse)) :
    replies.flatMap (printed serde printing) =
      (replies.reduceOption.map fun response => serde.toString (printing.response response)).flatMap line := by
  induction replies with
  | nil => rfl
  | cons reply replies ih =>
    cases reply with
    | none => simpa [printed, List.reduceOption_cons_of_none] using ih
    | some response => simp [printed, List.reduceOption_cons_of_some, ih]

section Session

variable {serde printing} (complete : serde.Complete)
  (schemas : ∀ name, JsonText.Fits serde.Holds 122 (printing.inputSchema name))

theorem code_small (code : ErrorCode) : Machine.InI32 code.code := by
  cases code <;> decide

include schemas in
theorem printable {response : JsonRpcResponse} (proper : Proper response.id response)
    (id : JsonText.Fits serde.Holds 126 response.id) :
    JsonText.Fits serde.Holds 127 (printing.response response) ∧
      ∀ e ∈ response.error, Machine.InI32 e.code := by
  have codes : ∀ e ∈ response.error, Machine.InI32 e.code := by
    intro e given
    obtain ⟨code, same⟩ := proper.2 e given
    rw [same]
    exact code_small code
  exact ⟨Printing.response_fits schemas id codes, codes⟩

include complete

/-- The id of an answer was read, so it can be printed. -/
theorem answeredId_fits {text : String} :
    ∀ id ∈ answeredId (parseRequest serde text), JsonText.Fits serde.Holds 126 id := by
  intro id answered
  unfold parseRequest at answered
  split at answered
  · next request found =>
    obtain ⟨v, read, found⟩ := Option.bind_eq_some_iff.mp found
    have own := JsonRpcRequest.read_id_fits (complete.reads read) found
    have given : id ∈ request.id ∨ id = .null := by
      simp only [answeredId, Server.responseId] at answered
      cases same : request.id <;> rw [same] at answered <;> grind
    rcases given with own' | rfl
    · exact own id own'
    · exact .null
  · cases answered
    exact .null

theorem messages_fit {bytes : List UInt8} :
    ∀ m ∈ messages serde bytes, ∀ id ∈ answeredId m, JsonText.Fits serde.Holds 126 id := by
  intro m heard
  obtain ⟨text, -, found⟩ := List.mem_filterMap.mp heard
  unfold message at found
  split at found
  · cases found
  · cases found
    exact answeredId_fits complete

theorem readAnswer_printed {response : JsonRpcResponse}
    (fits : JsonText.Fits serde.Holds 127 (printing.response response))
    (codes : ∀ e ∈ response.error, Machine.InI32 e.code) :
    readAnswer serde (serde.toString (printing.response response)) = some (printing.answer response) := by
  rw [readAnswer, complete.whole fits, Option.bind_some, Printing.read_response codes]

/-- A text on a line of its own that says the answer to a message. -/
structure Says (serde : Serde) (m : Except String JsonRpcRequest) (text : String) : Prop where
  oneLine : '\n' ∉ text.toList
  answer : ∃ answer, readAnswer serde text = some answer ∧ Answers m answer

/-- The output is a line for each message that has an answer, in their order, and says the answer. -/
theorem Server.session_answers {server : Server} {bytes : List UInt8} {tr : List (Sigma Ans)}
    {out : List UInt8} (schemas : ∀ name, JsonText.Fits serde.Holds 122 (printing.inputSchema name))
    (run : Prog.Run (server.stdio serde printing bytes) tr out) :
    ∃ texts : List String, out = texts.flatMap line ∧
      List.Forall₂ (Says serde) ((messages serde bytes).filter fun m => (answeredId m).isSome) texts := by
  rw [stdio, stdioLoop_eq] at run
  obtain ⟨first, last, replies, -, begun, ended⟩ := Prog.run_bind.mp run
  obtain ⟨-, rfl⟩ := Prog.run_ret.mp ended
  have answers := answers_of_replies serde printing (replied_runStdio begun) (messages_fit complete)
  refine ⟨_, flatMap_printed serde printing replies, ?_⟩
  rw [List.forall₂_map_right_iff]
  refine answers.imp fun m response => ?_
  rintro ⟨answer, proper, id⟩
  obtain ⟨fits, codes⟩ := printable schemas proper id
  exact ⟨complete.oneLine (complete.isFloat fits), _, readAnswer_printed complete fits codes, answer⟩

end Session

/-- A call whose id has a fraction, and a line that is none. -/
def halfCall : JsonRpcRequest := ping (some (.float "1.5"))

theorem halfCall_valid : halfCall.Valid Serde.plain.Holds where
  id v given := by
    cases given
    exact .float ⟨rfl, List.all_eq_true.mp rfl⟩
  params v given := by cases given

def twoLines : List UInt8 :=
  [inputText .plain true (.request halfCall), inputText .plain false (.other "[")].flatMap line

theorem messages_twoLines : messages .plain twoLines = [.ok halfCall, .error "expected value"] := by
  have asked : (Input.request halfCall).Valid .plain := halfCall_valid
  have broken : (Input.other "[").Valid .plain := by simp [Input.Valid]
  have first := oneLine_inputText Serde.plain_complete asked true
  have second := oneLine_inputText Serde.plain_complete broken false
  have bad : (Input.other "[").message .plain = some (.error "expected value") := rfl
  rw [messages, twoLines, texts_lines (by simpa using ⟨first, second⟩) (length_le_lines _)]
  simp only [List.map_cons, List.map_nil, List.filterMap_cons,
    message_inputText Serde.plain_complete asked, message_inputText Serde.plain_complete broken, bad]
  rfl

theorem Server.session_answers_twoLines :
    ∃ out, Prog.Run ((⟨.defaultSafe, "0.2"⟩ : Server).stdio .plain .plain twoLines) [] out ∧
      ∃ texts : List String, out = texts.flatMap line ∧
        List.Forall₂ (Says .plain) [.ok halfCall, .error "expected value"] texts := by
  obtain ⟨out, same⟩ : ∃ out, (⟨.defaultSafe, "0.2"⟩ : Server).stdio .plain .plain twoLines = .ret out := by
    rw [Server.stdio, Server.stdioLoop_eq, ← messages, messages_twoLines]
    exact ⟨_, rfl⟩
  have run : Prog.Run ((⟨.defaultSafe, "0.2"⟩ : Server).stdio .plain .plain twoLines) [] out := by
    rw [same]
    exact .ret out
  have schemas : ∀ name, JsonText.Fits Serde.plain.Holds 122 (Printing.plain.inputSchema name) :=
    fun _ => .obj (by simp) (by simp)
  have answers := session_answers Serde.plain_complete schemas run
  rw [messages_twoLines] at answers
  exact ⟨out, run, answers⟩

end Mcp

end HyprPilot
