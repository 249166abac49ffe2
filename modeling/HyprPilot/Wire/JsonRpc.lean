import HyprPilot.Mcp.Server
import HyprPilot.Wire.Serde

/-!
# JSON-RPC messages

The requests that the server reads and the responses that it prints, as JSON. A result is put into a
map first, so that its keys come sorted. Fractional numbers occur only inside of texts.
-/

namespace HyprPilot
open JsonText (Fits)

/-! ### Requests -/

/-- A field that may be missing or null, the last ones of a sequence as well. -/
def defaultMember (index : Nat) (name : String) : Json → Option (Option Json)
  | .arr items =>
    match items[index]? with
    | some .null => some none
    | item => some item
  | v => optionField name some v

namespace JsonRpcRequest

section Read

variable (rounded : String → String)

def fields (v : Json) : Option JsonRpcRequest := do
  let jsonrpc ← member 0 "jsonrpc" Form.string.read v
  let id ← defaultMember 1 "id" v
  let method ← member 2 "method" Form.string.read v
  let params ← defaultMember 3 "params" v
  return ⟨jsonrpc, id.map (Json.held rounded), method, params.map (Json.held rounded)⟩

def read : Json → Option JsonRpcRequest
  | .arr items => if items.length ≤ 4 then fields rounded (.arr items) else none
  | v => fields rounded v

def given : Option Json → Option Json
  | some .null => none
  | o => o

/-- A request in memory: a null is nothing. -/
def held (request : JsonRpcRequest) : JsonRpcRequest :=
  { request with
    id := (given request.id).map (Json.held rounded)
    params := (given request.params).map (Json.held rounded) }

end Read

def write (request : JsonRpcRequest) : Json :=
  .obj ([("jsonrpc", .str request.jsonrpc)] ++ (request.id.map fun id => ("id", id)).toList ++
    [("method", .str request.method)] ++ (request.params.map fun params => ("params", params)).toList)

structure Valid (floats : String → Prop) (request : JsonRpcRequest) : Prop where
  id : ∀ v ∈ request.id, Fits floats 126 v
  params : ∀ v ∈ request.params, Fits floats 126 v

theorem defaultMember_given {index : Nat} {name : String} {fields : List (String × Json)} {o : Option Json}
    (found : once name fields = some o) : defaultMember index name (.obj fields) = some (given o) := by
  have byName : defaultMember index name (.obj fields) = optionField name some (.obj fields) := rfl
  rw [byName, optionField, found]
  cases o with
  | none => rfl
  | some v => cases v <;> rfl

theorem read_write (rounded : String → String) (request : JsonRpcRequest) :
    read rounded request.write = some (request.held rounded) := by
  obtain ⟨jsonrpc, id, method, params⟩ := request
  obtain ⟨entries, same⟩ : ∃ entries, write ⟨jsonrpc, id, method, params⟩ = .obj entries := ⟨_, rfl⟩
  have keys : once "jsonrpc" entries = some (some (.str jsonrpc)) ∧ once "id" entries = some id ∧
      once "method" entries = some (some (.str method)) ∧ once "params" entries = some params := by
    cases same
    cases id <;> cases params <;> simp [once]
  obtain ⟨version, identity, named, parameters⟩ := keys
  rw [same]
  simp only [read, fields, member, field, version, named, defaultMember_given identity,
    defaultMember_given parameters]
  rfl

theorem fits_write {floats : String → Prop} {request : JsonRpcRequest} (valid : request.Valid floats) :
    Fits floats 127 request.write := by
  obtain ⟨jsonrpc, id, method, params⟩ := request
  obtain ⟨idValid, paramsValid⟩ := valid
  cases id <;> cases params <;> refine .obj (by simp) ?_
  all_goals simp_all [Fits.str]

/-- What is found of a member can be held below the value that it was found in. -/
theorem defaultMember_fits {floats : String → Prop} {rounded : String → String} {depth index : Nat}
    {name : String} {v : Json} {o : Option Json} (fits : Fits floats (depth + 1) (v.held rounded))
    (found : defaultMember index name v = some o) : ∀ w ∈ o, Fits floats depth (w.held rounded) := by
  rintro w ⟨⟩
  unfold defaultMember at found
  split at found
  · next items =>
    rw [Json.held, Json.heldItems_eq_map] at fits
    cases fits with
    | arr each =>
      split at found
      · cases found
      · next listed =>
        rw [Option.some.injEq] at found
        exact each _ (List.mem_map_of_mem (List.mem_of_getElem? found))
  · cases v with
    | obj fields =>
      rw [Json.held] at fits
      cases fits with
      | obj distinct each =>
        rw [optionField] at found
        unfold once at found
        split at found
        · cases found
        · cases found
        · next u notNull listed =>
          cases found
          split at listed
          · cases listed
          · next f single =>
            cases listed
            exact each _ (Json.mem_heldFields rounded single)
          · cases listed
        · cases found
    | _ => cases found

theorem read_id_fits {floats : String → Prop} {rounded : String → String} {v : Json}
    {request : JsonRpcRequest} (fits : Fits floats 127 (v.held rounded))
    (found : read rounded v = some request) : ∀ id ∈ request.id, Fits floats 126 id := by
  have inner : fields rounded v = some request := by
    unfold read at found
    split at found
    · split at found
      · exact found
      · cases found
    · exact found
  obtain ⟨_, -, inner⟩ := Option.bind_eq_some_iff.mp inner
  obtain ⟨o, identity, inner⟩ := Option.bind_eq_some_iff.mp inner
  obtain ⟨_, -, inner⟩ := Option.bind_eq_some_iff.mp inner
  obtain ⟨_, -, inner⟩ := Option.bind_eq_some_iff.mp inner
  cases inner
  intro id inside
  obtain ⟨w, given, rfl⟩ := Option.map_eq_some_iff.mp inside
  exact defaultMember_fits fits identity w given

end JsonRpcRequest

/-! ### Responses -/

/-- How data that is not told as a text of its own is printed: the JSON text of a content's data, an
image's base64 text and what a tool's listing says of it. -/
structure Printing where
  pretty : Content → String
  base64 : List UInt8 → String
  description : String → String
  inputSchema : String → Json

def Printing.plain : Printing where
  pretty _ := "[]"
  base64 _ := ""
  description name := name
  inputSchema _ := .obj []

namespace Printing

variable (printing : Printing)

def block : Content → Json
  | .image bytes mime =>
    .obj [("data", .str (printing.base64 bytes)), ("mimeType", .str mime), ("type", .str "image")]
  | content =>
    .obj [("text", .str (content.rendered.getD (printing.pretty content))), ("type", .str "text")]

def tool (t : ToolDef) : Json :=
  .obj [("description", .str (printing.description t.name)),
    ("inputSchema", printing.inputSchema t.name), ("name", .str t.name)]

def result : McpResult → Json
  | .initialized r =>
    .obj [("capabilities", .obj [("tools", .obj [])]), ("instructions", .str r.instructions),
      ("protocolVersion", .str r.protocolVersion),
      ("serverInfo", .obj [("name", .str r.serverName), ("version", .str r.serverVersion)])]
  | .pong => .obj []
  | .tools tools => .obj [("tools", .arr (tools.map printing.tool))]
  | .called r =>
    .obj (("content", .arr (r.content.map printing.block)) ::
      if r.isError then [("isError", .bool true)] else [])

def error (e : JsonRpcError) : Json := .obj [("code", .int e.code), ("message", .str e.message)]

def response (r : JsonRpcResponse) : Json :=
  .obj ([("jsonrpc", .str "2.0"), ("id", r.id)] ++
    (r.result.map fun a => ("result", printing.result a)).toList ++
    (r.error.map fun e => ("error", error e)).toList)

end Printing

/-- A response as it is read back. -/
structure RpcAnswer where
  id : Json
  result : Option Json
  error : Option JsonRpcError

namespace RpcAnswer

def readError : Json → Option JsonRpcError :=
  fun v => do return ⟨← field "code" Form.i32.read v, ← field "message" Form.string.read v⟩

def read (v : Json) : Option RpcAnswer := do
  let _ ← field "jsonrpc" Form.string.read v
  let id ← field "id" some v
  let result ← optionField "result" some v
  let error ← optionField "error" readError v
  return ⟨id, result, error⟩

end RpcAnswer

namespace Printing

variable {printing : Printing}

/-- The answer that a response is printed as. -/
def answer (printing : Printing) (r : JsonRpcResponse) : RpcAnswer :=
  ⟨r.id, r.result.map printing.result, r.error⟩

theorem result_given (a : McpResult) : printing.result a ≠ .null := by
  cases a <;> exact nofun

theorem block_fits {floats : String → Prop} (content : Content) : Fits floats 1 (printing.block content) := by
  cases content <;> exact .obj (by simp) (by simp [Fits.str])

section Fits

variable {floats : String → Prop} (schemas : ∀ name, Fits floats 122 (printing.inputSchema name))

include schemas

theorem result_fits (a : McpResult) : Fits floats 125 (printing.result a) := by
  cases a with
  | initialized r =>
    have none : Fits floats 123 (.obj []) := .obj (by simp) (by simp)
    have capabilities : Fits floats 124 (.obj [("tools", .obj [])]) := .obj (by simp) (by simpa using none)
    have info : Fits floats 124 (.obj [("name", .str r.serverName), ("version", .str r.serverVersion)]) :=
      .obj (by simp) (by simp [Fits.str])
    exact .obj (by simp) (by simpa [Fits.str] using ⟨capabilities, info⟩)
  | pong => exact .obj (by simp) (by simp)
  | tools tools =>
    have each : Fits floats 124 (.arr (tools.map printing.tool)) := by
      apply Fits.arr
      intro v inside
      obtain ⟨t, -, rfl⟩ := List.mem_map.mp inside
      exact .obj (by simp) (by simpa [Fits.str] using schemas t.name)
    exact .obj (by simp) (by simpa using each)
  | called r =>
    have each : Fits floats 124 (.arr (r.content.map printing.block)) := by
      apply Fits.arr
      intro v inside
      obtain ⟨content, -, rfl⟩ := List.mem_map.mp inside
      exact (block_fits content).mono (by decide)
    rw [result]
    split
    · exact .obj (by simp) (by simpa using ⟨each, Fits.bool true⟩)
    · exact .obj (by simp) (by simpa using each)

theorem response_fits {r : JsonRpcResponse} (id : Fits floats 126 r.id)
    (codes : ∀ e ∈ r.error, Machine.InI32 e.code) : Fits floats 127 (printing.response r) := by
  have results (a : McpResult) : Fits floats 126 (printing.result a) :=
    (result_fits schemas a).mono (by decide)
  have errors (e : JsonRpcError) (given : e ∈ r.error) : Fits floats 126 (error e) := by
    have code : Fits floats 125 (.int e.code) :=
      Serde.fits_of_noFloat (Form.i32.fits_above (codes e given) (by decide))
    exact .obj (by simp) (by simpa [Fits.str] using code)
  obtain ⟨identity, result, failure⟩ := r
  cases result <;> cases failure <;> refine .obj (by simp) ?_ <;> simp_all [Fits.str]

end Fits

theorem readError_error {e : JsonRpcError} (code : Machine.InI32 e.code) :
    RpcAnswer.readError (error e) = some e := by
  have back : Form.i32.read (.int e.code) = some e.code := Form.i32.back code
  simp only [RpcAnswer.readError, error, field, once]
  simp [back, Form.string, Json.asString, Except.toOption]

theorem read_response {r : JsonRpcResponse} (codes : ∀ e ∈ r.error, Machine.InI32 e.code) :
    RpcAnswer.read (printing.response r) = some (printing.answer r) := by
  obtain ⟨identity, result, failure⟩ := r
  obtain ⟨entries, same⟩ : ∃ entries, printing.response ⟨identity, result, failure⟩ = .obj entries :=
    ⟨_, rfl⟩
  have keys : once "jsonrpc" entries = some (some (.str "2.0")) ∧ once "id" entries = some (some identity) ∧
      once "result" entries = some (result.map printing.result) ∧
      once "error" entries = some (failure.map error) := by
    cases same
    cases result <;> cases failure <;> simp [once]
  obtain ⟨version, id, results, errors⟩ := keys
  have first : field "jsonrpc" Form.string.read (.obj entries) = some "2.0" := by
    rw [field, version]
    rfl
  have second : field "id" some (.obj entries) = some identity := by rw [field, id]
  have third : optionField "result" some (.obj entries) = some (result.map printing.result) := by
    rw [optionField, results]
    cases result with
    | none => rfl
    | some a =>
      have given : printing.result a ≠ .null := result_given a
      simp only [Option.map_some]
  have fourth : optionField "error" RpcAnswer.readError (.obj entries) = some failure := by
    rw [optionField, errors]
    cases failure with
    | none => rfl
    | some e =>
      have read : RpcAnswer.readError (error e) = some e := readError_error (codes e rfl)
      exact congrArg (Option.map some) read
  rw [same]
  simp only [RpcAnswer.read, first, second, third, fourth]
  rfl

end Printing

end HyprPilot
