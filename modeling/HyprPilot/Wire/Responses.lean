import HyprPilot.Daemon.Server
import HyprPilot.Mcp.Protocol
import HyprPilot.Wire.Framing

/-!
# Responses on the socket

The daemon's loop over the bytes of a connection, and what the client makes of the line it reads back.
On the bytes of a client's requests the loop is `handleClient` on the requests, and each request gets
the response to it; of an answer that was cut off there is never a result.
-/

namespace HyprPilot
open JsonText (Fits IsFloat)
open Interact

/-- A response whose result is a JSON value. -/
inductive RpcResponse where
  | ok (result : Json)
  | err (code message : String)

structure ResponseEnvelope where
  id : Nat
  response : RpcResponse

namespace ResponseEnvelope

def write (env : ResponseEnvelope) : Json :=
  match env.response with
  | .ok result => .obj [("id", Form.u64.write env.id), ("result", result)]
  | .err code message =>
    .obj [("id", Form.u64.write env.id),
      ("error", .obj [("code", Form.string.write code), ("message", Form.string.write message)])]

def readError : Json → Option RpcResponse :=
  struct 2 fun v => do
    let code ← member 0 "code" Form.string.read v
    let message ← member 1 "message" Form.string.read v
    return .err code message

/-- The first variant that fits. -/
def read (rounded : String → String) : Json → Option ResponseEnvelope
  | .obj fields => do
    let id ← field "id" Form.u64.read (.obj fields)
    match once "result" fields with
    | some (some result) => return ⟨id, .ok (result.held rounded)⟩
    | _ => return ⟨id, ← field "error" readError (.obj fields)⟩
  | _ => none

/-- A response in memory. -/
def held (rounded : String → String) (env : ResponseEnvelope) : ResponseEnvelope :=
  match env.response with
  | .ok result => ⟨env.id, .ok (result.held rounded)⟩
  | .err _ _ => env

/-- The number has 64 bits, and the result leaves room for the envelope around it. -/
def Valid (floats : String → Prop) (env : ResponseEnvelope) : Prop :=
  Form.u64.Valid env.id ∧ ∀ result, env.response = .ok result → Fits floats 126 result

theorem fits_write {floats : String → Prop} {env : ResponseEnvelope} (valid : env.Valid floats) :
    Fits floats 127 env.write := by
  obtain ⟨id, response⟩ := env
  obtain ⟨bits, result⟩ := valid
  have number : Fits floats 126 (Form.u64.write id) := by
    have small : id < 18446744073709551616 := bits
    exact .int ⟨by omega, by omega⟩
  cases response with
  | ok v =>
    have inner := result v rfl
    exact .obj (by simp) (by simpa using ⟨number, inner⟩)
  | err code message =>
    have texts : Fits floats 126 (.obj [("code", Form.string.write code),
        ("message", Form.string.write message)]) :=
      .obj (by simp) (by simpa using ⟨.str code, .str message⟩)
    exact .obj (by simp) (by simpa using ⟨number, texts⟩)

theorem Valid.isFloat {serde : Serde} (complete : serde.Complete) {env : ResponseEnvelope}
    (valid : env.Valid serde.Holds) : env.Valid IsFloat :=
  ⟨valid.1, fun v same => complete.isFloat (valid.2 v same)⟩

theorem write_object (env : ResponseEnvelope) : ∃ fields, env.write = .obj fields := by
  obtain ⟨id, response⟩ := env
  cases response <;> exact ⟨_, rfl⟩

theorem read_write {floats : String → Prop} {env : ResponseEnvelope} (valid : env.Valid floats)
    (rounded : String → String) : read rounded env.write = some (env.held rounded) := by
  obtain ⟨id, response⟩ := env
  obtain ⟨bits, -⟩ := valid
  have number : Form.u64.read (Form.u64.write id) = some id := Form.u64.back bits
  cases response with
  | ok v => simp [write, read, held, field, once, number]
  | err code message => simp [write, read, held, readError, struct, member, field, once, number]

end ResponseEnvelope

namespace Wire

variable (serde : Serde)

def responseText (env : ResponseEnvelope) : String := serde.toString env.write

def outcome (id : Nat) (env : ResponseEnvelope) : Except ClientError Json :=
  if env.id ≠ id then .error (.idMismatch id env.id)
  else
    match env.response with
    | .ok result => .ok result
    | .err code message => .error (.rpc code message)

/-- What `call_raw` returns for the line that it read. -/
def received (id : Nat) (line : List UInt8) : Except ClientError Json :=
  if line = [] then .error .closed
  else
    match Text.fromUtf8 line with
    | none => .error (.io "stream did not contain valid UTF-8")
    | some text =>
      match (serde.fromStr (trimEnd text)).bind (ResponseEnvelope.read serde.rounded) with
      | none => .error (.encode (serde.explain (trimEnd text)))
      | some env => outcome id env

section Received

variable {serde} (documented : serde.Documented) {env : ResponseEnvelope} (id : Nat)

include documented

theorem responseText_oneLine (valid : env.Valid IsFloat) : '\n' ∉ (responseText serde env).toList :=
  documented.oneLine (ResponseEnvelope.fits_write valid)

theorem trimEnd_responseText (valid : env.Valid IsFloat) :
    trimEnd (responseText serde env) = responseText serde env := by
  obtain ⟨fields, object⟩ := env.write_object
  have fits := ResponseEnvelope.fits_write valid
  rw [object] at fits
  obtain ⟨front, last⟩ := documented.brace fits
  rw [← object] at last
  exact dropEnd_of_last last (by decide)

/-- Less than the text of an answer is no result. -/
theorem received_cutOff (valid : env.Valid IsFloat) {part : List UInt8}
    (begins : part <+: Text.utf8Bytes (responseText serde env))
    (short : part ≠ Text.utf8Bytes (responseText serde env)) (v : Json) :
    received serde id part ≠ .ok v := by
  obtain ⟨fields, object⟩ := env.write_object
  have fits := ResponseEnvelope.fits_write valid
  rw [object] at fits
  rw [received]
  split
  · exact fun same => by cases same
  · split
    · exact fun same => by cases same
    · next text decoded =>
      have bytes := Text.fromUtf8_eq_some.mp decoded
      rw [← bytes] at begins
      have chars := Text.prefix_of_utf8Bytes begins
      cases parsed : serde.fromStr (trimEnd text) with
      | none => exact fun same => by cases same
      | some w =>
        have whole : trimEnd text = responseText serde env := by
          rw [responseText, object] at chars ⊢
          exact documented.cutOff (v := .obj fields) trivial fits ((trimEnd_begins text).trans chars) parsed
        have longer := trimEnd_begins text
        rw [whole] at longer
        have same : text = responseText serde env := by
          apply String.toList_inj.mp
          exact chars.eq_of_length_le longer.length_le
        exact absurd (by rw [← bytes, same]) short

omit documented in
/-- The whole line gives the outcome of its response as it is read. -/
theorem received_line (complete : serde.Complete) (valid : env.Valid serde.Holds) :
    received serde id (line (responseText serde env)) = outcome id (env.held serde.rounded) := by
  have floats := valid.isFloat complete
  have isLine := isLine_line (responseText_oneLine complete.toDocumented floats)
  have parsed : serde.fromStr (responseText serde env) = some env.write :=
    complete.whole (ResponseEnvelope.fits_write valid)
  rw [received, if_neg isLine.ne_nil, fromUtf8_line]
  dsimp only
  rw [trimEnd_newline, trimEnd_responseText complete.toDocumented floats, parsed, Option.bind_some,
    ResponseEnvelope.read_write valid]

end Received

/-! ### The connection -/

section Connection

variable {κ : Type} (encode : Reply → Json) (state : Daemon.State κ)

def rpcResponse : Response → RpcResponse
  | .ok reply => .ok (encode reply)
  | .err code message => .err code message

def serve : Heard → Daemon.Handler κ ResponseEnvelope
  | .request env => do return ⟨env.id, rpcResponse encode (← Daemon.handleRequest state env.request)⟩
  | .malformed error => return ⟨0, .err "parse_error" error⟩

/-- The loop of `handle_client` over the bytes of a connection: the lines that it writes. -/
def connection : Nat → List UInt8 → Daemon.Handler κ (List (List UInt8))
  | 0, _ => return []
  | fuel + 1, bytes =>
    if bytes = [] then return []
    else
      let (line, rest) := (Lines.cut isNewline bytes).getD (bytes, [])
      match Text.fromUtf8 line with
      | none => return []
      | some text => do
        let response ← serve encode state (hear serde text)
        let later ← connection fuel rest
        return Wire.line (responseText serde response) :: later

def handleConnection (bytes : List UInt8) : Daemon.Handler κ (List (List UInt8)) :=
  connection serde encode state bytes.length bytes

def serveAll : List Heard → Daemon.Handler κ (List (List UInt8))
  | [] => return []
  | h :: rest => do
    let response ← serve encode state h
    let later ← serveAll rest
    return Wire.line (responseText serde response) :: later

theorem connection_eq (fuel : Nat) (bytes : List UInt8) :
    connection serde encode state fuel bytes = serveAll serde encode state (hearLines serde fuel bytes) := by
  induction fuel generalizing bytes with
  | zero => rfl
  | succ fuel ih =>
    rw [connection, hearLines]
    split
    · rfl
    · dsimp only
      cases decoded : Text.fromUtf8 ((Lines.cut isNewline bytes).getD (bytes, [])).1 with
      | none => rfl
      | some text =>
        dsimp only
        rw [serveAll, ih]

/-- The lines that answer the requests. -/
def answerLines (envs : List RequestEnvelope) (responses : List Response) : List (List UInt8) :=
  List.zipWith (fun env response => line (responseText serde ⟨env.id, rpcResponse encode response⟩)) envs
    responses

theorem serveAll_requests (envs : List RequestEnvelope) :
    serveAll serde encode state (envs.map .request) =
      Daemon.handleClient state (envs.map (·.request)) >>= fun responses =>
        .ret (answerLines serde encode envs responses) := by
  induction envs with
  | nil => rfl
  | cons env envs ih =>
    rw [List.map_cons, List.map_cons, serveAll, ih, serve, Daemon.handleClient]
    simp only [Prog.bind_assoc, Prog.pure_eq, Prog.ret_bind]
    rfl

end Connection

def toResult : RpcResponse → Except ClientError Json
  | .ok result => .ok result
  | .err code message => .error (.rpc code message)

/-- The result of a response as it is read. -/
theorem outcome_own (rounded : String → String) (encode : Reply → Json) (id : Nat) (response : Response) :
    outcome id (ResponseEnvelope.held rounded ⟨id, rpcResponse encode response⟩) =
      toResult (rpcResponse (fun reply => (encode reply).held rounded) response) := by
  cases response <;> simp [outcome, ResponseEnvelope.held, rpcResponse, toResult]

section Exchange

variable {serde} {κ : Type} {encode : Reply → Json} {state : Daemon.State κ} {envs : List RequestEnvelope}
  {responses : List Response}

theorem length_handleClient {requests : List Request} {tr : List (Sigma (Daemon.Ans (κ := κ)))}
    (run : Prog.Run (Daemon.handleClient state requests) tr responses) :
    requests.length = responses.length := by
  induction requests generalizing tr responses with
  | nil =>
    obtain ⟨-, rfl⟩ := Prog.run_ret.mp run
    rfl
  | cons request requests ih =>
    obtain ⟨_, _, response, -, -, run⟩ := Prog.run_bind.mp run
    obtain ⟨_, _, later, -, others, run⟩ := Prog.run_bind.mp run
    obtain ⟨-, rfl⟩ := Prog.run_ret.mp run
    rw [List.length_cons, List.length_cons, ih others]

/-- The results leave room for the envelope around them. -/
def Fitting (encode : Reply → Json) (floats : String → Prop) (responses : List Response) : Prop :=
  ∀ reply, Response.ok reply ∈ responses → Fits floats 126 (encode reply)

theorem valid_answer {floats : String → Prop} {env : RequestEnvelope} (valid : RequestEnvelope.form.Valid env)
    (fitting : Fitting encode floats responses) {response : Response} (inside : response ∈ responses) :
    ResponseEnvelope.Valid floats ⟨env.id, rpcResponse encode response⟩ := by
  refine ⟨valid.1, fun result same => ?_⟩
  cases response with
  | ok reply =>
    cases same
    exact fitting reply inside
  | err code message => cases same

section Complete

variable (complete : serde.Complete) (valid : ∀ env ∈ envs, RequestEnvelope.form.Valid env)

include complete valid

theorem received_answerLines (fitting : Fitting encode serde.Holds responses)
    (lengths : envs.length = responses.length) :
    List.zipWith (fun env l => received serde env.id l) envs (answerLines serde encode envs responses) =
      responses.map fun response => toResult (rpcResponse (fun reply => serde.value (encode reply)) response) := by
  induction envs generalizing responses with
  | nil => rw [List.eq_nil_of_length_eq_zero lengths.symm]; rfl
  | cons env envs ih =>
    cases responses with
    | nil => cases lengths
    | cons response responses =>
      obtain ⟨first, rest⟩ := List.forall_mem_cons.mp valid
      have here := valid_answer first fitting List.mem_cons_self
      have later : Fitting encode serde.Holds responses :=
        fun reply inside => fitting reply (List.mem_cons_of_mem _ inside)
      have shorter : envs.length = responses.length := Nat.succ.inj lengths
      rw [answerLines, List.zipWith_cons_cons, List.zipWith_cons_cons, received_line env.id complete here,
        outcome_own, ← answerLines, ih rest later shorter, List.map_cons]
      rfl

theorem received_part (fitting : Fitting encode serde.Holds responses) {l : List UInt8}
    (inside : l ∈ answerLines serde encode envs responses) {part : List UInt8} (begins : part <+: l)
    (whole : part ≠ l) (ended : part ++ [newline] ≠ l) (id : Nat) (v : Json) :
    received serde id part ≠ .ok v := by
  rw [answerLines, ← List.map_uncurry_zip_eq_zipWith] at inside
  obtain ⟨⟨env, response⟩, paired, rfl⟩ := List.mem_map.mp inside
  obtain ⟨asked, answered⟩ := List.of_mem_zip paired
  rcases List.prefix_concat_iff.mp begins with same | inner
  · exact absurd same whole
  · apply received_cutOff complete.toDocumented id
      ((valid_answer (valid env asked) fitting answered).isFloat complete) inner
    rintro rfl
    exact ended rfl

/-- On a client's requests the loop is `handleClient`. -/
theorem handleConnection_written :
    handleConnection serde encode state (written serde envs) =
      Daemon.handleClient state (envs.map (·.request)) >>= fun responses =>
        .ret (answerLines serde encode envs responses) := by
  rw [handleConnection, connection_eq, hearLines_written complete.toDocumented valid (length_le_written serde envs),
    serveAll_requests]

/-- The connection serves the client's requests as `handleClient` does; each call gets the response to
its own request as it is read, and a part of a line gives no call a result, unless only the line's end
is missing. -/
theorem exchange {tr : List (Sigma (Daemon.Ans (κ := κ)))} {lines : List (List UInt8)}
    (run : Prog.Run (handleConnection serde encode state (written serde envs)) tr lines) :
    ∃ responses, Prog.Run (Daemon.handleClient state (envs.map (·.request))) tr responses ∧
      (Fitting encode serde.Holds responses →
        List.zipWith (fun env l => received serde env.id l) envs lines =
            (responses.map fun response =>
              toResult (rpcResponse (fun reply => serde.value (encode reply)) response)) ∧
          ∀ l ∈ lines, ∀ part, part <+: l → part ≠ l → part ++ [newline] ≠ l →
            ∀ id v, received serde id part ≠ .ok v) := by
  rw [handleConnection_written complete valid] at run
  obtain ⟨first, last, responses, rfl, begun, ending⟩ := Prog.run_bind.mp run
  obtain ⟨rfl, rfl⟩ := Prog.run_ret.mp ending
  rw [List.append_nil]
  refine ⟨responses, begun, fun fitting => ⟨?_, fun l inside part begins whole ended id v => ?_⟩⟩
  · have lengths := length_handleClient begun
    rw [List.length_map] at lengths
    exact received_answerLines complete valid fitting lengths
  · exact received_part complete valid fitting inside begins whole ended id v

end Complete

end Exchange

/-! ### The screens of a laptop -/

/-- A number with one decimal. -/
def tenths (q : ℚ) : String := toString (⌊q * 10⌋ / 10) ++ "." ++ toString (⌊q * 10⌋ % 10)

/-- The replies of dispatches and of a ping, and of monitors their names and scales. -/
def plainReply : Reply → Json
  | .text s => .str s
  | .monitors monitors => .arr (monitors.map fun m =>
      .obj [("name", .str m.name), ("scale", .float (tenths m.scale))])
  | _ => .null

def laptop : Monitor := ⟨0, "eDP-1", 2880, 1800, 0, 0, 3 / 2, true, none⟩

def askScreens : List RequestEnvelope := [⟨1, .queryMonitors⟩, ⟨2, .dispatchExec "foot"⟩]

theorem askScreens_valid : ∀ env ∈ askScreens, RequestEnvelope.form.Valid env := by
  simp [askScreens, RequestEnvelope.form, Form.u64, Request.Valid]

theorem fitting_laptop : Fitting plainReply Serde.plain.Holds [.ok (.monitors [laptop]), .ok .null] := by
  have scale : tenths laptop.scale = "1.5" := by decide +kernel
  have number : IsFloat "1.5" := ⟨rfl, List.all_eq_true.mp rfl⟩
  intro reply inside
  simp only [List.mem_cons, Response.ok.injEq, List.not_mem_nil, or_false] at inside
  rcases inside with rfl | rfl
  · apply Fits.arr
    simp only [List.map_cons, List.map_nil, List.mem_singleton, forall_eq, scale]
    exact .obj (by simp) (by simpa using ⟨.str "eDP-1", .float number⟩)
  · exact .null

theorem exchange_screens :
    ∃ tr lines, Prog.Run (handleConnection .plain plainReply Daemon.plainState (written .plain askScreens)) tr
        lines ∧
      List.zipWith (fun env l => received .plain env.id l) askScreens lines =
          [.ok (Serde.plain.value (plainReply (.monitors [laptop]))), .ok (Serde.plain.value .null)] ∧
        ∀ l ∈ lines, ∀ part, part <+: l → part ≠ l → part ++ [newline] ≠ l →
          ∀ id v, received .plain id part ≠ .ok v := by
  let get : Daemon.Cmd Daemon.StateFile := .cache (.get .monitors)
  let exec : Daemon.Cmd Daemon.StateFile := .cache (.hypr (.dispatch (.exec "foot")))
  have served : Prog.Run (Daemon.handleClient Daemon.plainState (askScreens.map (·.request)))
      [⟨get, (some [laptop] : Option (List Monitor))⟩, ⟨exec, Except.ok ()⟩]
      [.ok (.monitors [laptop]), .ok .null] := by
    refine Prog.Run.ask (A := Daemon.Ans) (c := get) (some [laptop] : Option (List Monitor)) ?_
    exact Prog.Run.ask (A := Daemon.Ans) (c := exec) (Except.ok ()) (.ret _)
  obtain ⟨lines, run⟩ : ∃ lines, Prog.Run
      (handleConnection .plain plainReply Daemon.plainState (written .plain askScreens))
      [⟨get, (some [laptop] : Option (List Monitor))⟩, ⟨exec, Except.ok ()⟩] lines := by
    rw [handleConnection_written Serde.plain_complete askScreens_valid]
    exact ⟨_, Prog.run_bind.mpr ⟨_, [], _, rfl, served, .ret _⟩⟩
  obtain ⟨responses, again, exchanged⟩ := exchange Serde.plain_complete askScreens_valid run
  cases again.unique served
  exact ⟨_, lines, run, exchanged fitting_laptop⟩

end Wire

end HyprPilot
