import HyprPilot.Mcp.Attribution
import HyprPilot.Wire.Responses

/-!
# The connection's codec

The envelopes of the connection between server and daemon as compact JSON, each in a line. What the
connection asks of its codec holds of these: no line breaks inside, nothing is made of a response that
was cut off, and each side reads what the other wrote.
-/

namespace HyprPilot
open JsonText (IsFloat)

namespace Wire

section Codec

variable (serde : Serde) (encode : Reply → Json) (decode : Json → Reply)

/-- What the client makes of a line before it looks at the number. -/
def parseResponse (line : List UInt8) : Except ClientError ResponseEnvelope :=
  match Text.fromUtf8 line with
  | none => .error (.io "stream did not contain valid UTF-8")
  | some text =>
    match (serde.fromStr (trimEnd text)).bind (ResponseEnvelope.read serde.rounded) with
    | none => .error (.encode (serde.explain (trimEnd text)))
    | some env => .ok env

def response (env : ResponseEnvelope) : Nat × Response :=
  (env.id, match env.response with
    | .ok result => .ok (decode result)
    | .err code message => .err code message)

def parseRequest (line : List UInt8) : Except String (Nat × Request) :=
  match Text.fromUtf8 line with
  | none => .error "stream did not contain valid UTF-8"
  | some text =>
    match hear serde text with
    | .request env => .ok (env.id, env.request)
    | .malformed error => .error error

open Classical in
/-- A number that no `u64` or `i32` is has no text, and neither has a result that does not fit. -/
noncomputable def codec : Mcp.Link.Codec where
  request id request :=
    if RequestEnvelope.form.Valid ⟨id, request⟩ then Text.utf8Bytes (requestText serde ⟨id, request⟩) else []
  response id response :=
    if ResponseEnvelope.Valid serde.Holds ⟨id, rpcResponse encode response⟩ then
      Text.utf8Bytes (responseText serde ⟨id, rpcResponse encode response⟩)
    else []
  parseRequest := parseRequest serde
  parseResponse line :=
    match parseResponse serde line with
    | .ok env => .ok (response decode env)
    | .error e => .error e

end Codec

section Complete

variable {serde : Serde} {encode : Reply → Json} {decode : Json → Reply}

/-- The end of a line is trimmed before it is read. -/
theorem parseResponse_eq {first second : List UInt8} {s t : String} (read : Text.fromUtf8 first = some s)
    (read' : Text.fromUtf8 second = some t) (same : trimEnd s = trimEnd t) :
    parseResponse serde first = parseResponse serde second := by
  unfold parseResponse
  rw [read, read']
  dsimp only
  rw [same]

variable (complete : serde.Complete)

include complete

theorem parseResponse_cutOff {env : ResponseEnvelope} (valid : env.Valid IsFloat) {part : List UInt8}
    {got : ResponseEnvelope} (begins : part <+: line (responseText serde env))
    (parsed : parseResponse serde part = .ok got) :
    parseResponse serde part = parseResponse serde (line (responseText serde env)) := by
  cases decoded : Text.fromUtf8 part with
  | none =>
    rw [parseResponse, decoded] at parsed
    cases parsed
  | some text =>
    rcases part_of_line begins decoded with rfl | inside
    · rfl
    · rw [parseResponse, decoded] at parsed
      dsimp only at parsed
      cases json : serde.fromStr (trimEnd text) with
      | none =>
        rw [json] at parsed
        cases parsed
      | some w =>
        -- What is read of a beginning is read of the whole text, so the beginning is the whole text.
        have whole : trimEnd text = responseText serde env := by
          obtain ⟨fields, object⟩ := env.write_object
          have fits := ResponseEnvelope.fits_write valid
          rw [object] at fits
          rw [responseText, object] at inside ⊢
          exact complete.cutOff (v := .obj fields) trivial fits ((trimEnd_begins text).trans inside) json
        refine parseResponse_eq decoded (fromUtf8_line _) ?_
        rw [trimEnd_newline, trimEnd_responseText complete.toDocumented valid, whole]

theorem codec_compact : (codec serde encode decode).Compact where
  request id request := by
    unfold codec
    dsimp only
    split
    · next valid =>
      intro inside
      have other := newline_notMem (requestText_oneLine complete.toDocumented valid) _ inside
      exact absurd other (by decide)
    · exact List.not_mem_nil
  response id response := by
    unfold codec
    dsimp only
    split
    · next valid =>
      intro inside
      have other := newline_notMem (responseText_oneLine complete.toDocumented (valid.isFloat complete)) _ inside
      exact absurd other (by decide)
    · exact List.not_mem_nil
  cutOff id response part x begins parsed := by
    simp only [codec, Mcp.Link.Codec.responseLine] at begins parsed ⊢
    cases read : parseResponse serde part with
    | error e =>
      rw [read] at parsed
      cases parsed
    | ok got =>
      split at begins
      · next valid =>
        rw [if_pos valid]
        have same := parseResponse_cutOff complete (valid.isFloat complete) begins read
        rw [read] at parsed same
        exact same ▸ parsed
      · next invalid =>
        rw [if_neg invalid]
        have blank : part = [] ∨ part = [Mcp.Link.newline] := by
          rcases List.prefix_concat_iff.mp begins with same | short
          · exact .inr same
          · exact .inl (List.prefix_nil.mp short)
        rcases blank with rfl | rfl
        · have same : parseResponse serde [] = parseResponse serde ([] ++ [Mcp.Link.newline]) :=
            parseResponse_eq (s := "") (t := "\n") (Text.fromUtf8_eq_some.mpr rfl) (Text.fromUtf8_eq_some.mpr rfl)
              (by decide)
          rw [← same]
          exact parsed
        · exact parsed

theorem parseRequest_line {id : Nat} {request : Request} (valid : RequestEnvelope.form.Valid ⟨id, request⟩) :
    (codec serde encode decode).parseRequest ((codec serde encode decode).requestLine id request) =
      .ok (id, request) := by
  simp only [codec, Mcp.Link.Codec.requestLine, if_pos valid, parseRequest]
  have heard : hear serde (requestText serde ⟨id, request⟩ ++ "\n") = .request ⟨id, request⟩ :=
    hear_of_trimEnd complete.toDocumented valid
      ((trimEnd_newline _).trans (trimEnd_requestText complete.toDocumented valid))
  have decoded : Text.fromUtf8 (Text.utf8Bytes (requestText serde ⟨id, request⟩) ++ [Mcp.Link.newline]) =
      some (requestText serde ⟨id, request⟩ ++ "\n") := fromUtf8_line _
  rw [decoded]
  dsimp only
  rw [heard]

/-- A line without a text is no request. -/
theorem parseRequest_invalid {id : Nat} {request : Request}
    (invalid : ¬RequestEnvelope.form.Valid ⟨id, request⟩) :
    (codec serde encode decode).parseRequest ((codec serde encode decode).requestLine id request) =
      .error (serde.explain "") := by
  simp only [codec, Mcp.Link.Codec.requestLine, if_neg invalid, parseRequest]
  have decoded : Text.fromUtf8 ([] ++ [Mcp.Link.newline]) = some "\n" := Text.fromUtf8_eq_some.mpr rfl
  have blank : trimEnd "\n" = "" := by decide
  rw [decoded]
  dsimp only
  rw [hear, blank, complete.empty]
  rfl

/-- A response as the client has it: its result was read from a text. -/
def reread (serde : Serde) (encode : Reply → Json) (decode : Json → Reply) : Response → Response
  | .ok reply => .ok (decode (serde.value (encode reply)))
  | .err code message => .err code message

theorem parseResponse_line {id : Nat} {response : Response}
    (valid : ResponseEnvelope.Valid serde.Holds ⟨id, rpcResponse encode response⟩) :
    (codec serde encode decode).parseResponse ((codec serde encode decode).responseLine id response) =
      .ok (id, reread serde encode decode response) := by
  have floats := valid.isFloat complete
  have parsed : serde.fromStr (responseText serde ⟨id, rpcResponse encode response⟩) =
      some (ResponseEnvelope.write ⟨id, rpcResponse encode response⟩) :=
    complete.whole (ResponseEnvelope.fits_write valid)
  have decoded : Text.fromUtf8 (Text.utf8Bytes (responseText serde ⟨id, rpcResponse encode response⟩) ++
      [Mcp.Link.newline]) = some (responseText serde ⟨id, rpcResponse encode response⟩ ++ "\n") := fromUtf8_line _
  have read : parseResponse serde (Text.utf8Bytes (responseText serde ⟨id, rpcResponse encode response⟩) ++
      [Mcp.Link.newline]) = .ok (ResponseEnvelope.held serde.rounded ⟨id, rpcResponse encode response⟩) := by
    rw [parseResponse, decoded]
    dsimp only
    rw [trimEnd_newline, trimEnd_responseText complete.toDocumented floats, parsed, Option.bind_some,
      ResponseEnvelope.read_write valid]
  simp only [codec, Mcp.Link.Codec.responseLine, if_pos valid, read]
  cases response <;> rfl

/-- A line without a text is no response. -/
theorem parseResponse_invalid {id : Nat} {response : Response}
    (invalid : ¬ResponseEnvelope.Valid serde.Holds ⟨id, rpcResponse encode response⟩) :
    (codec serde encode decode).parseResponse ((codec serde encode decode).responseLine id response) =
      .error (.encode (serde.explain "")) := by
  have decoded : Text.fromUtf8 ([] ++ [Mcp.Link.newline]) = some "\n" := Text.fromUtf8_eq_some.mpr rfl
  have blank : trimEnd "\n" = "" := by decide
  simp only [codec, Mcp.Link.Codec.responseLine, if_neg invalid, parseResponse]
  rw [decoded]
  dsimp only
  rw [blank, complete.empty]
  rfl

/-- A result that a response's line gives was read from the text of the daemon's result. -/
theorem result_of_responseLine {id got : Nat} {response : Response} {v : Reply}
    (read : (codec serde encode decode).parseResponse ((codec serde encode decode).responseLine id response) =
      .ok (got, .ok v)) :
    ∃ reply, response = .ok reply ∧ v = decode (serde.value (encode reply)) := by
  by_cases valid : ResponseEnvelope.Valid serde.Holds ⟨id, rpcResponse encode response⟩
  · rw [parseResponse_line complete valid] at read
    cases response with
    | ok reply =>
      cases read
      exact ⟨reply, rfl, rfl⟩
    | err code message => cases read
  · rw [parseResponse_invalid complete valid] at read
    cases read

/-- Over JSON lines on connections that may break anywhere: each result that a call returns was sent by
the daemon for a line from which it read exactly the call's request, and is read from the text of the
result that the daemon answered with. -/
theorem results_served {path : String} {server : Mcp.Server} {lines : List (Except String JsonRpcRequest)}
    {Q : Mcp.Link.Serving} (run : Interact.Pool.Reach (Mcp.Link.World.rules (codec serde encode decode))
      (Mcp.Link.serving (codec serde encode decode) path server lines) Q) :
    ∀ c ∈ Q.shared.calls, ∀ v, c.2 = .ok v → ∃ id, ∃ e ∈ Q.shared.served, e.number ∈ c.1.written ∧
      parseRequest serde e.line = .ok (id, c.1.request) ∧
        ∃ reply, e.reply = (codec serde encode decode).responseLine id (.ok reply) ∧
          v = decode (serde.value (encode reply)) := by
  intro c called v returned
  obtain ⟨sound, -⟩ := Mcp.Link.reach_sound (codec_compact complete) run
  obtain ⟨-, attributed⟩ := sound.calls c called
  obtain ⟨id, e, served, written, asked, replied⟩ := attributed v returned
  have answers := sound.traffic.answers e served
  rw [Mcp.Link.Codec.Answers, asked] at answers
  by_cases valid : RequestEnvelope.form.Valid ⟨id, c.1.request⟩
  · have heard : (codec serde encode decode).parseRequest
        ((codec serde encode decode).requestLine id c.1.request) = .ok (id, c.1.request) :=
      parseRequest_line complete valid
    rw [heard] at answers
    obtain ⟨response, sent⟩ := answers
    rw [sent] at replied
    obtain ⟨reply, rfl, read⟩ := result_of_responseLine complete replied
    rw [← asked] at heard
    exact ⟨id, e, served, written, heard, reply, sent, read⟩
  · -- A line that is no request is answered with an error.
    rw [parseRequest_invalid complete valid] at answers
    dsimp only at answers
    rw [answers] at replied
    obtain ⟨reply, same, -⟩ := result_of_responseLine complete replied
    cases same

end Complete

/-! ### One exchange -/

section Cycle

open Mcp Mcp.Link

/-- What a text or nothing is read as. -/
def plainRead : Json → Reply
  | .str s => .text s
  | _ => .null

noncomputable def plainCodec : Codec := codec .plain plainReply plainRead

noncomputable def plainServing : Serving :=
  serving plainCodec "/run/hyprpilot" ⟨.unrestricted, "0.2"⟩
    [.ok (toolsCall "cycle_next" (.obj [("dry_run", .bool false)]))]

theorem cycle_valid : RequestEnvelope.form.Valid ⟨1, .dispatchCycleNext⟩ := by
  simp [RequestEnvelope.form, Form.u64, Request.Valid]

theorem null_valid : ResponseEnvelope.Valid Serde.plain.Holds ⟨1, rpcResponse plainReply (.ok .null)⟩ := by
  refine ⟨by simp [Form.u64], fun result same => ?_⟩
  cases same
  exact .null

/-- One call that steps the focus, over JSON. -/
theorem plain_cycle : ∃ Q, Interact.Pool.Reach (World.rules plainCodec) plainServing Q ∧
    Q.shared.calls = [(⟨.dispatchCycleNext, [0]⟩, .ok .null)] := by
  have sent : Lines.IsLine Mcp.Link.isNewline (plainCodec.requestLine 1 .dispatchCycleNext) := by
    simp only [Codec.requestLine, plainCodec, codec, if_pos cycle_valid]
    exact isLine_line (requestText_oneLine Serde.plain_documented cycle_valid)
  have answered : Lines.IsLine Mcp.Link.isNewline (plainCodec.responseLine 1 (.ok .null)) := by
    simp only [Codec.responseLine, plainCodec, codec, if_pos null_valid]
    exact isLine_line (responseText_oneLine Serde.plain_documented (null_valid.isFloat Serde.plain_complete))
  have reads : Lines.cut endsLine (tagged 0 (plainCodec.requestLine 1 .dispatchCycleNext)) = some (_, []) :=
    Lines.cut_line (isLine_tagged sent)
  have answers : plainCodec.Answers ((tagged 0 (plainCodec.requestLine 1 .dispatchCycleNext)).map Prod.snd)
      (plainCodec.responseLine 1 (.ok .null)) := by
    rw [tagged_bytes, Codec.Answers, plainCodec, parseRequest_line Serde.plain_complete cycle_valid]
    exact ⟨_, rfl⟩
  refine reaches_act (.called .dispatchCycleNext) () rfl rfl ?_
  refine reaches_act .connect (.ok 0) rfl ⟨rfl, rfl⟩ ?_
  refine reaches_act (.write 0 (plainCodec.requestLine 1 .dispatchCycleNext)) (.ok ()) rfl
    ⟨_, List.prefix_rfl, fun _ => rfl, rfl⟩ ?_
  refine reaches_env (n := 0) (.reads _ _ _ rfl reads answers) ?_
  refine reaches_env (n := 0) (.answers _ rfl) ?_
  refine reaches_act (.readLine 0) (.ok (plainCodec.responseLine 1 (.ok .null))) rfl ⟨[], rfl, ?_⟩ ?_
  · intro line same
    cases same
    exact Or.inl (Lines.cut_line answered)
  refine reaches_act (.returned (Mcp.Link.received plainCodec 1 (plainCodec.responseLine 1 (.ok .null)))) ()
    rfl rfl ⟨_, .refl, ?_⟩
  have result : Mcp.Link.received plainCodec 1 (plainCodec.responseLine 1 (.ok .null)) = .ok .null := by
    rw [Mcp.Link.received, if_neg answered.ne_nil, plainCodec,
      parseResponse_line Serde.plain_complete null_valid]
    rfl
  rw [← result]
  rfl

theorem results_served_cycle : ∃ Q, Interact.Pool.Reach (World.rules plainCodec) plainServing Q ∧
    Q.shared.calls = [(⟨.dispatchCycleNext, [0]⟩, .ok .null)] ∧
    ∃ id, ∃ e ∈ Q.shared.served, e.number ∈ [0] ∧
      Wire.parseRequest .plain e.line = .ok (id, .dispatchCycleNext) ∧
        ∃ reply, e.reply = plainCodec.responseLine id (.ok reply) ∧
          .null = plainRead (Serde.plain.value (plainReply reply)) := by
  obtain ⟨Q, run, calls⟩ := plain_cycle
  have called : (⟨.dispatchCycleNext, [0]⟩, .ok .null) ∈ Q.shared.calls := by simp [calls]
  exact ⟨Q, run, calls, results_served Serde.plain_complete run _ called .null rfl⟩

end Cycle

end Wire

end HyprPilot
