import HyprPilot.Mcp.Replies

/-!
# The capability gate

`tools/list` and `tools/call` filter by the same test of the profile. Everything that a session asks
of the daemon or of the screen is asked while a permitted tool is called, and a refused call asks
nothing.
-/

namespace HyprPilot
open Interact

/-! ### Errors of the dispatch -/

namespace Tools

/-- The result is not an unknown tool. -/
def Known {α : Type} (result : Parsed α) : Prop := ∀ name, result ≠ .error (.unknownTool name)

theorem known_ok {α : Type} (a : α) : Known (.ok a) := nofun

theorem known_checked {α : Type} (tool : String) (result : Except String α) :
    Known (checked tool result) := by
  cases result <;> exact nofun

theorem known_bind {α β : Type} {p : Parsed α} {f : α → Parsed β} (first : Known p)
    (rest : ∀ a, Known (f a)) : Known (p >>= f) := by
  cases p with
  | ok a => exact rest a
  | error e =>
    intro name same
    cases e with
    | unknownTool other => exact first other rfl
    | invalidArgs tool message => cases same

theorem known_map {α β : Type} {p : Parsed α} (f : α → β) (first : Known p) : Known (p.map f) := by
  cases p with
  | ok a => exact nofun
  | error e =>
    rintro name ⟨⟩
    exact first name rfl

theorem known_buttonOr (tool : String) (button : Option String) : Known (buttonOr tool button) := by
  cases button with
  | none => exact known_ok _
  | some s => exact known_checked _ _

theorem known_parsePsm (tool : String) (n : Nat) : Known (parsePsm tool n) := by
  unfold parsePsm
  repeat' split
  all_goals exact nofun

theorem known_validated (tool : String) (r : Region) : Known (validated tool r) := by
  unfold validated
  split <;> exact nofun

theorem known_rejectEmptyQuery (tool query : String) : Known (rejectEmptyQuery tool query) := by
  unfold rejectEmptyQuery
  split <;> exact nofun

theorem known_scanOp (tool : String) (p : ScanArgs) : Known (scanOp tool p) := by
  refine known_bind (known_rejectEmptyQuery _ _) fun _ => known_bind ?_ fun region =>
    known_bind ?_ fun _ => known_bind (known_parsePsm _ _) fun _ => known_ok _
  · unfold buildOptionalRegion
    split
    · exact known_ok _
    · exact known_map _ (known_validated _ _)
    · exact nofun
  · unfold rejectRegionWithActiveWindow
    split <;> exact nofun

theorem known_dispatchTool (tool : Tool) (args : Json) : Known (dispatchTool tool args) := by
  cases tool with
  | focusWindow | closeWindow | switchWorkspace | moveToWorkspace | moveToWorkspaceSilent
  | inputKeys | inputMouseClick | runBind =>
    exact known_bind (known_checked _ _) fun _ => known_bind (known_checked _ _) fun _ => known_ok _
  | inputShortcut =>
    exact known_bind (known_checked _ _) fun _ => known_bind (known_checked _ _) fun _ =>
      known_bind (known_checked _ _) fun _ => known_ok _
  | screenshotRegion =>
    exact known_bind (known_checked _ _) fun _ => known_bind (known_validated _ _) fun _ =>
      known_ok _
  | ocrScreen =>
    exact known_bind (known_checked _ _) fun _ => known_bind (known_parsePsm _ _) fun _ => known_ok _
  | ocrRegion =>
    exact known_bind (known_checked _ _) fun _ => known_bind (known_parsePsm _ _) fun _ =>
      known_bind (known_validated _ _) fun _ => known_ok _
  | findTextPosition =>
    exact known_bind (known_checked _ _) fun _ => known_bind (known_scanOp _ _) fun _ => known_ok _
  | clickText =>
    exact known_bind (known_checked _ _) fun _ => known_bind (known_scanOp _ _) fun _ =>
      known_bind (known_buttonOr _ _) fun _ => known_ok _
  | a11yClick =>
    exact known_bind (known_checked _ _) fun _ => known_bind (known_rejectEmptyQuery _ _) fun _ =>
      known_bind (known_buttonOr _ _) fun _ => known_ok _
  | _ => exact known_bind (known_checked _ _) fun _ => known_ok _

end Tools

namespace Mcp

/-! ### The listed tools -/

/-- The names in the result of `tools/list`. -/
def Server.listed (server : Server) : List String := server.visibleTools.map (·.name)

theorem named_eq {name : String} {tool : Tool} (named : Tool.named name = some tool) :
    tool.toDef.name = name := by
  simpa using List.find?_some named

theorem mem_listed {server : Server} {name : String} :
    name ∈ server.listed ↔ ∃ tool, Tool.named name = some tool ∧
      server.profile.allows tool.toDef.name tool.toDef.group = true := by
  constructor
  · intro member
    obtain ⟨entry, visible, rfl⟩ := List.mem_map.mp member
    obtain ⟨registered, allowed⟩ := List.mem_filter.mp visible
    obtain ⟨tool, -, rfl⟩ := List.mem_map.mp registered
    exact ⟨tool, Tool.named_name tool, allowed⟩
  · rintro ⟨tool, named, allowed⟩
    have registered : tool.toDef ∈ registry :=
      List.mem_map_of_mem (List.mem_of_find?_eq_some named)
    rw [← named_eq named]
    exact List.mem_map_of_mem (List.mem_filter.mpr ⟨registered, allowed⟩)

theorem not_listed_of_denied {server : Server} {name : String}
    (denied : name ∈ server.profile.denyTools) : name ∉ server.listed := by
  rw [mem_listed]
  rintro ⟨tool, named, allowed⟩
  rw [Profile.allows, named_eq named, if_pos denied] at allowed
  cases allowed

/-! ### Calls -/

def Calls (request : JsonRpcRequest) (name : String) : Prop :=
  request.jsonrpc = "2.0" ∧ request.method = "tools/call" ∧
    ∃ args, CallToolParams.ofRequest request = .ok ⟨name, args⟩

/-- The response is an error of this code. -/
def Refuses (code : ErrorCode) (response : JsonRpcResponse) : Prop :=
  ∃ e, response.error = some e ∧ e.code = code.code

/-- Refused by the profile or by the registry. -/
def TurnedAway (response : JsonRpcResponse) : Prop :=
  Refuses .capabilityDenied response ∨ Refuses .methodNotFound response

theorem not_turnedAway {id : Json} {response : JsonRpcResponse} (replies : response.Replies id) :
    ¬TurnedAway response := by
  rintro (⟨e, failed, code⟩ | ⟨e, failed, code⟩)
  all_goals
    rcases replies with ⟨-, ⟨_, -, clear⟩ | ⟨message, -, invalid⟩⟩
    · rw [clear] at failed
      cases failed
    · rw [invalid] at failed
      cases failed
      revert code
      show ¬ErrorCode.invalidParams.code = _
      decide

theorem handle_call {server : Server} {request : JsonRpcRequest} {name : String} {args : Json}
    (version : request.jsonrpc = "2.0") (method : request.method = "tools/call")
    (params : CallToolParams.ofRequest request = .ok ⟨name, args⟩) :
    server.handle request =
      server.callTool (Server.responseId request) ⟨name, args⟩ >>= fun response =>
        pure (some response) := by
  rw [Server.handle, if_neg (not_not.mpr version), method]
  show (server.handleCallTool request >>= _) = _
  rw [Server.handleCallTool, params]

section Outcome

variable {server : Server} {id : Json} {params : CallToolParams} {tr : List (Sigma Ans)}
  {response : JsonRpcResponse}

/-- A tool that is not listed is turned away, before anything is asked. -/
theorem callTool_unlisted (absent : params.name ∉ server.listed)
    (run : Prog.Run (server.callTool id params) tr response) : tr = [] ∧ TurnedAway response := by
  cases named : Tool.named params.name with
  | none =>
    rw [callTool_unknown named] at run
    obtain ⟨rfl, rfl⟩ := Prog.run_ret.mp run
    exact ⟨rfl, .inr ⟨_, rfl, rfl⟩⟩
  | some tool =>
    have denied : server.profile.allows tool.toDef.name tool.toDef.group = false :=
      Bool.eq_false_iff.mpr fun allowed => absent (mem_listed.mpr ⟨tool, named, allowed⟩)
    rw [callTool_denied named denied] at run
    obtain ⟨rfl, rfl⟩ := Prog.run_ret.mp run
    exact ⟨rfl, .inl ⟨_, rfl, rfl⟩⟩

theorem callTool_listed (present : params.name ∈ server.listed)
    (run : Prog.Run (server.callTool id params) tr response) : ¬TurnedAway response := by
  obtain ⟨tool, named, allowed⟩ := mem_listed.mp present
  rw [callTool_allowed named allowed] at run
  split at run
  · rename_i e failed
    obtain ⟨-, rfl⟩ := Prog.run_ret.mp run
    cases e with
    | unknownTool name => exact absurd failed (Tools.known_dispatchTool tool _ name)
    | invalidArgs tool message => exact not_turnedAway (replies_invalid id _)
  · exact not_turnedAway (tidy_run (tidy_runDispatch _) run)

end Outcome

/-! ### Sessions -/

/-- One line of a session: what was asked while it was handled, and the state before and after. -/
structure Exchange (σ : Type) where
  line : Except String JsonRpcRequest
  before : σ
  trace : List (Sigma Ans)
  reply : Option JsonRpcResponse
  after : σ

def Exchange.Calls {σ : Type} (e : Exchange σ) (name : String) : Prop :=
  ∃ request, e.line = .ok request ∧ Mcp.Calls request name

section Sessions

variable {σ : Type} {sem : (c : Cmd) → σ → Ans c → σ → Prop} {server : Server}

/-- The lines were handled one after the other, the first from state `s`. -/
def Served (sem : (c : Cmd) → σ → Ans c → σ → Prop) (server : Server) :
    σ → List (Exchange σ) → σ → Prop
  | s, [], t => t = s
  | s, e :: rest, t =>
    e.before = s ∧ Prog.Run (server.handleLine e.line) e.trace e.reply ∧
      Prog.Follows sem s e.trace e.after ∧ Served sem server e.after rest t

theorem served_runStdio {lines : List (Except String JsonRpcRequest)} {s t : σ}
    {replies : List (Option JsonRpcResponse)}
    (run : Prog.Exec sem (server.runStdio lines) s replies t) :
    ∃ es, Served sem server s es t ∧ es.map (·.line) = lines ∧ es.map (·.reply) = replies := by
  induction lines generalizing s replies with
  | nil =>
    obtain ⟨rfl, rfl⟩ := Prog.exec_ret.mp run
    exact ⟨[], rfl, rfl, rfl⟩
  | cons line rest ih =>
    obtain ⟨reply, u, handling, run⟩ := Prog.exec_bind.mp run
    obtain ⟨later, v, serving, ending⟩ := Prog.exec_bind.mp run
    obtain ⟨rfl, rfl⟩ := Prog.exec_ret.mp ending
    obtain ⟨tr, ran, follows⟩ := Prog.exec_iff_run.mp handling
    obtain ⟨es, served, lines, replies⟩ := ih serving
    refine ⟨⟨line, s, tr, reply, u⟩ :: es, ⟨rfl, ran, follows, served⟩, ?_, ?_⟩
    · rw [List.map_cons, lines]
    · rw [List.map_cons, replies]

theorem served_mem {es : List (Exchange σ)} {s t : σ} (served : Served sem server s es t) :
    ∀ e ∈ es, Prog.Run (server.handleLine e.line) e.trace e.reply ∧
      Prog.Follows sem e.before e.trace e.after := by
  induction es generalizing s with
  | nil => exact fun e member => nomatch member
  | cons first rest ih =>
    obtain ⟨rfl, ran, follows, later⟩ := served
    intro e member
    rcases List.mem_cons.mp member with rfl | behind
    · exact ⟨ran, follows⟩
    · exact ih later e behind

/-- What the gate promises of an exchange: the listing and the calls agree on each name, everything
asked is asked for a listed tool, a denied name is not listed and asks nothing, and a call that the
profile refuses leaves the state as it was. -/
structure Gated (server : Server) (e : Exchange σ) : Prop where
  lists : ∀ request, e.line = .ok request → request.jsonrpc = "2.0" →
    request.method = "tools/list" → ∃ response tools, e.reply = some response ∧
      response.result = some (.tools tools) ∧ tools.map (·.name) = server.listed
  calls : ∀ name, e.Calls name → ∃ response, e.reply = some response ∧
    (name ∈ server.listed ↔ ¬TurnedAway response)
  acts : e.trace ≠ [] → ∃ name ∈ server.listed, e.Calls name
  denies : ∀ name ∈ server.profile.denyTools,
    name ∉ server.listed ∧ (e.Calls name → e.trace = [])
  refuses : ∀ response, e.reply = some response → Refuses .capabilityDenied response →
    e.after = e.before

theorem run_call {request : JsonRpcRequest} {name : String} {tr : List (Sigma Ans)}
    {reply : Option JsonRpcResponse} (calls : Calls request name)
    (run : Prog.Run (server.handle request) tr reply) :
    ∃ params response, params.name = name ∧ reply = some response ∧
      Prog.Run (server.callTool (Server.responseId request) params) tr response := by
  obtain ⟨version, method, args, params⟩ := calls
  rw [handle_call version method params] at run
  obtain ⟨first, last, response, rfl, calling, ending⟩ := Prog.run_bind.mp run
  obtain ⟨rfl, rfl⟩ := Prog.run_ret.mp ending
  exact ⟨_, response, rfl, rfl, by simpa using calling⟩

/-- Only a call of a tool asks anything. -/
theorem trace_of_not_called {line : Except String JsonRpcRequest} {tr : List (Sigma Ans)}
    {reply : Option JsonRpcResponse} (run : Prog.Run (server.handleLine line) tr reply)
    (uncalled : ∀ request name, line = .ok request → ¬Calls request name) : tr = [] := by
  cases line with
  | error e => exact (Prog.run_ret.mp run).1
  | ok request =>
    have run : Prog.Run (server.handle request) tr reply := run
    unfold Server.handle at run
    by_cases version : request.jsonrpc ≠ "2.0"
    · rw [if_pos version] at run
      exact (Prog.run_ret.mp run).1
    rw [if_neg version] at run
    split at run
    case h_5 method =>
      cases params : CallToolParams.ofRequest request with
      | ok call => exact absurd ⟨not_not.mp version, method, _, params⟩ (uncalled request call.name rfl)
      | error e =>
        unfold Server.handleCallTool at run
        rw [params] at run
        exact (Prog.run_ret.mp run).1
    all_goals exact (Prog.run_ret.mp run).1

theorem trace_of_unlisted {request : JsonRpcRequest} {name : String} {tr : List (Sigma Ans)}
    {reply : Option JsonRpcResponse} (calls : Calls request name) (absent : name ∉ server.listed)
    (run : Prog.Run (server.handle request) tr reply) : tr = [] := by
  obtain ⟨params, response, rfl, rfl, calling⟩ := run_call calls run
  exact (callTool_unlisted absent calling).1

theorem gated_of_run {e : Exchange σ} (run : Prog.Run (server.handleLine e.line) e.trace e.reply)
    (follows : Prog.Follows sem e.before e.trace e.after) : Gated server e := by
  obtain ⟨line, before, tr, reply, after⟩ := e
  have acts : tr ≠ [] → ∃ name ∈ server.listed, Exchange.Calls ⟨line, before, tr, reply, after⟩ name := by
    intro asked
    by_contra none
    refine asked (trace_of_not_called run fun request name same calls => none ⟨name, ?_, request, same, calls⟩)
    by_contra absent
    subst same
    exact asked (trace_of_unlisted calls absent run)
  refine ⟨?_, ?_, acts, ?_, ?_⟩
  · rintro request rfl version method
    have listing : Prog.Run (server.handle request) tr reply := run
    rw [Server.handle, if_neg (not_not.mpr version), method] at listing
    obtain ⟨-, rfl⟩ := Prog.run_ret.mp listing
    exact ⟨_, server.visibleTools, rfl, rfl, rfl⟩
  · rintro name ⟨request, rfl, calls⟩
    obtain ⟨params, response, rfl, rfl, calling⟩ := run_call calls run
    refine ⟨response, rfl, fun present => callTool_listed present calling, fun kept => ?_⟩
    by_contra absent
    exact kept (callTool_unlisted absent calling).2
  · intro name denied
    refine ⟨not_listed_of_denied denied, ?_⟩
    rintro ⟨request, rfl, calls⟩
    exact trace_of_unlisted calls (not_listed_of_denied denied) run
  · rintro response rfl denied
    have still : tr = [] := by
      by_contra asked
      obtain ⟨name, present, request, rfl, calls⟩ := acts asked
      obtain ⟨params, other, rfl, same, calling⟩ := run_call calls run
      cases same
      exact callTool_listed present calling (.inl denied)
    subst still
    exact follows

/-- In every session of every profile each exchange keeps to the gate. -/
theorem Server.gate_complete {lines : List (Except String JsonRpcRequest)} {s t : σ}
    {replies : List (Option JsonRpcResponse)}
    (run : Prog.Exec sem (server.runStdio lines) s replies t) :
    ∃ es, Served sem server s es t ∧ es.map (·.line) = lines ∧ es.map (·.reply) = replies ∧
      ∀ e ∈ es, Gated server e := by
  obtain ⟨es, served, same, answered⟩ := served_runStdio run
  exact ⟨es, served, same, answered, fun e member =>
    gated_of_run (served_mem served e member).1 (served_mem served e member).2⟩

end Sessions

/-- The default profile refuses to spawn, and counts no request to the daemon for it. -/
theorem Server.gate_complete_exec :
    ∃ es : List (Exchange Nat), Served (fun _ n _ m => m = n + 1) ⟨.defaultSafe, "0.2"⟩ 0 es 0 ∧
      es.map (·.line) = [.ok (toolsCall "exec" .null)] ∧
      es.map (·.reply) = [some (.err (.int 1) .capabilityDenied ("tool `exec` is not permitted by " ++
        "the active capability profile `default` (group: `process`)"))] ∧
      ∀ e ∈ es, Gated ⟨.defaultSafe, "0.2"⟩ e :=
  gate_complete (.ret _ _)

end Mcp

end HyprPilot
