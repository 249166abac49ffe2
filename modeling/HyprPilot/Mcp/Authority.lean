import HyprPilot.Mcp.Grants
import HyprPilot.Mcp.Replies

/-!
# The authority of a profile

Server and daemon together: each request of a session is served by the daemon's handler. Whatever any
number of sessions do at the same time on one daemon, every effect is one that the group of a tool
grants which the session's own profile permits.
-/

namespace HyprPilot
open Interact

/-! ### What a tool asks the daemon for -/

namespace Mcp

/-- What a tool of the group asks for. Clicks read the monitors, the windows or the elements first. -/
def Covers (g : ToolGroup) : Cmd → Prop
  | .daemon request =>
    ∃ g', request.group = some g' ∧ (g' = g ∨ g' = .read ∨ g = .input ∧ g' = .a11y)
  | .dropDaemon => True
  | _ => g = .vision ∨ g = .input

end Mcp

/-- The dispatch of a tool of the group. -/
def Dispatch.Suits (g : ToolGroup) : Dispatch → Prop
  | .forward request => request.group = some g
  | .preview _ => True
  | .previewSnapshotRestore _ => g = .snapshot
  | .capture _ | .ocr _ | .findText _ => g = .vision
  | .clickText _ | .a11yClick _ => g = .input

namespace Tools

section Suits

variable {g : ToolGroup} {name : String} {args : Json} {d : Dispatch}

theorem suits_forwardOrPreview {request : Request} (grouped : request.group = some g) (dry : Bool)
    (text : String) : (forwardOrPreview dry request text).Suits g := by
  cases dry with
  | true => trivial
  | false => exact grouped

theorem suits_parseNoArgs {request : Request} (accepted : parseNoArgs name args request = .ok d)
    (grouped : request.group = some g) : d.Suits g := by
  obtain ⟨_, -, ending⟩ := Collect.bind_ok accepted
  cases ending
  exact grouped

theorem suits_parseMutNoArgs {request : Request} (accepted : parseMutNoArgs name args request = .ok d)
    (grouped : request.group = some g) : d.Suits g := by
  obtain ⟨_, -, ending⟩ := Collect.bind_ok accepted
  cases ending
  exact suits_forwardOrPreview grouped _ _

theorem suits_parseSelector {build : WindowSelector → Request}
    (accepted : parseSelector name args build = .ok d) (grouped : ∀ sel, (build sel).group = some g) :
    d.Suits g := by
  obtain ⟨_, -, rest⟩ := Collect.bind_ok accepted
  obtain ⟨selector, -, ending⟩ := Collect.bind_ok rest
  cases ending
  exact suits_forwardOrPreview (grouped selector) _ _

theorem suits_parseWorkspace {build : WorkspaceRef → Request}
    (accepted : parseWorkspace name args build = .ok d) (grouped : ∀ ws, (build ws).group = some g) :
    d.Suits g := by
  obtain ⟨_, -, rest⟩ := Collect.bind_ok accepted
  obtain ⟨workspace, -, ending⟩ := Collect.bind_ok rest
  cases ending
  exact suits_forwardOrPreview (grouped workspace) _ _

theorem suits_parseText {read : Json → Json.Result TextArgs} {build : String → Request}
    {preview : String → String} (accepted : parseText name read args build preview = .ok d)
    (grouped : ∀ text, (build text).group = some g) : d.Suits g := by
  obtain ⟨p, -, ending⟩ := Collect.bind_ok accepted
  cases ending
  exact suits_forwardOrPreview (grouped p.text) _ _

theorem suits_parseDirection {build : Direction → Request} {preview : Direction → String}
    (accepted : parseDirection name args build preview = .ok d)
    (grouped : ∀ direction, (build direction).group = some g) : d.Suits g := by
  obtain ⟨p, -, ending⟩ := Collect.bind_ok accepted
  cases ending
  exact suits_forwardOrPreview (grouped p.direction) _ _

/-- What a tool dispatches is of its own group. -/
theorem suits_dispatchTool {tool : Tool} (accepted : dispatchTool tool args = .ok d) :
    d.Suits tool.toDef.group := by
  cases tool with
  | queryClients | queryWorkspaces | queryMonitors | queryActiveWindow | queryActiveWorkspace
  | queryVersion | queryCursorPos | queryBinds | undoList | snapshotList | rulesList | rulesValidate
  | rulesPath => exact suits_parseNoArgs accepted rfl
  | focusWindow | closeWindow => exact suits_parseSelector accepted fun _ => rfl
  | switchWorkspace | moveToWorkspace | moveToWorkspaceSilent =>
    exact suits_parseWorkspace accepted fun _ => rfl
  | cycleNext | cyclePrev | toggleFloating | centerActive | pinActive | killActive | undo =>
    exact suits_parseMutNoArgs accepted rfl
  | moveActive | swapActive =>
    unfold dispatchTool at accepted
    exact suits_parseDirection accepted fun _ => rfl
  | focusMonitor | moveWorkspaceToMonitor | exec | inputType =>
    unfold dispatchTool at accepted
    exact suits_parseText accepted fun _ => rfl
  | setFullscreen | resizeActive | inputMouseMove =>
    obtain ⟨p, -, ending⟩ := Collect.bind_ok accepted
    cases ending
    exact suits_forwardOrPreview rfl _ _
  | inputKeys | inputMouseClick =>
    obtain ⟨p, -, rest⟩ := Collect.bind_ok accepted
    obtain ⟨_, -, ending⟩ := Collect.bind_ok rest
    cases ending
    exact suits_forwardOrPreview rfl _ _
  | inputShortcut =>
    obtain ⟨p, -, rest⟩ := Collect.bind_ok accepted
    obtain ⟨_, -, rest⟩ := Collect.bind_ok rest
    obtain ⟨_, -, ending⟩ := Collect.bind_ok rest
    cases ending
    exact suits_forwardOrPreview rfl _ _
  | snapshotRestore =>
    obtain ⟨p, -, ending⟩ := Collect.bind_ok accepted
    cases ending
    cases p.dryRun <;> rfl
  | screenshotRegion | ocrScreen | findTextPosition | runBind =>
    obtain ⟨p, -, rest⟩ := Collect.bind_ok accepted
    obtain ⟨_, -, ending⟩ := Collect.bind_ok rest
    cases ending
    rfl
  | ocrRegion | clickText | a11yClick =>
    obtain ⟨p, -, rest⟩ := Collect.bind_ok accepted
    obtain ⟨_, -, rest⟩ := Collect.bind_ok rest
    obtain ⟨_, -, ending⟩ := Collect.bind_ok rest
    cases ending
    rfl
  | _ =>
    obtain ⟨p, -, ending⟩ := Collect.bind_ok accepted
    cases ending
    rfl

end Suits

end Tools

namespace Mcp

section Covers

variable {g : ToolGroup} {id : Json}

theorem covers_own {request : Request} (grouped : request.group = some g) : Covers g (.daemon request) :=
  ⟨g, grouped, .inl rfl⟩

theorem covers_read {request : Request} (grouped : request.group = some .read) :
    Covers g (.daemon request) := ⟨.read, grouped, .inr (.inl rfl)⟩

theorem covers_local (sees : g = .vision ∨ g = .input) (c : Cmd) (inside : Local c) : Covers g c := by
  cases c with
  | daemon | dropDaemon => exact inside.elim
  | _ => exact sees

theorem asks_forward_covers {request : Request} (grouped : request.group = some g) :
    (forward id request).Asks (Covers g) :=
  (asked_asks (covers_own grouped) trivial).bind fun result => by cases result <;> trivial

theorem asks_preview_covers (name : String) :
    (previewSnapshotRestore id name).Asks (Covers .snapshot) := by
  refine Prog.Asks.bind (asked_asks (covers_own rfl) trivial) fun result => ?_
  rcases result with response | value
  · trivial
  · cases value <;> trivial

theorem asks_activeRegion_covers : (resolveActiveWindowRegion id).Asks (Covers g) := by
  refine Prog.Asks.bind (asked_asks (covers_read rfl) trivial) fun result => ?_
  rcases result with response | value
  · trivial
  · cases value <;> trivial

theorem asks_scanRegion_covers (op : FindTextOp) : (scanRegion id op).Asks (Covers g) := by
  unfold scanRegion
  split
  · exact asks_activeRegion_covers.bind fun _ => trivial
  · trivial

theorem asks_clickAt_covers (x y : Int) (button : MouseButton) (applied : Content) :
    (clickAt id x y button applied).Asks (Covers .input) := by
  refine Prog.Asks.bind (asked_asks (covers_own rfl) trivial) fun moved => ?_
  cases moved with
  | error response => trivial
  | ok _ =>
    refine Prog.Asks.bind (asked_asks (covers_own rfl) trivial) fun clicked => ?_
    cases clicked <;> trivial

section Sees

variable (sees : g = .vision ∨ g = .input)
include sees

theorem asks_captureScan_covers (region : Option Region) : (captureScan region).Asks (Covers g) :=
  (asks_captureScan region).mono (covers_local sees)

theorem asks_scan_covers (region : Option Region) (op : FindTextOp) :
    (scanForMatches region op).Asks (Covers g) :=
  (asks_scanForMatches region op).mono (covers_local sees)

theorem asks_handleCapture_covers (op : CaptureOp) : (handleCapture id op).Asks (Covers g) := by
  refine ⟨sees, fun ready => ?_⟩
  cases ready with
  | error e => trivial
  | ok _ =>
    cases op with
    | full monitor cursor format => exact ⟨sees, fun _ => trivial⟩
    | region region cursor format =>
      exact ((asks_captureRegion region cursor format).mono (covers_local sees)).bind fun _ => trivial

theorem asks_handleOcr_covers (op : OcrOp) : (handleOcr id op).Asks (Covers g) := by
  have scan (region : Option Region) (lang : String) (psm : Psm)
      {f : Except VisionError String → Session JsonRpcResponse} (ends : ∀ text, (f text).Asks (Covers g)) :
      ((captureScan region).andThen (extractText lang psm) >>= f).Asks (Covers g) := by
    refine Prog.Asks.bind ((asks_captureScan_covers sees region).bind fun image => ?_) ends
    cases image with
    | error e => trivial
    | ok image => exact (asks_extractText lang psm image).mono (covers_local sees)
  cases op with
  | screen lang psm => exact scan none lang psm fun text => by cases text <;> trivial
  | region region lang psm => exact scan (some region) lang psm fun text => by cases text <;> trivial
  | activeWindow lang psm =>
    refine Prog.Asks.bind asks_activeRegion_covers fun result => ?_
    cases result with
    | error response => trivial
    | ok region => exact scan (some region) lang psm fun text => by cases text <;> trivial

theorem asks_handleFindText_covers (op : FindTextOp) : (handleFindText id op).Asks (Covers g) := by
  refine Prog.Asks.bind (asks_scanRegion_covers op) fun region => ?_
  cases region with
  | error response => trivial
  | ok region =>
    refine Prog.Asks.bind (asks_scan_covers sees region op) fun found => ?_
    cases found <;> trivial

end Sees

theorem asks_handleClickText_covers (op : ClickTextOp) : (handleClickText id op).Asks (Covers .input) := by
  refine Prog.Asks.bind (asks_scanRegion_covers _) fun region => ?_
  cases region with
  | error response => trivial
  | ok region =>
    refine Prog.Asks.bind (asks_scan_covers (.inr rfl) region _) fun found => ?_
    cases found with
    | error e => trivial
    | ok found =>
      dsimp only
      split
      · trivial
      · refine Prog.Asks.bind (asked_asks (covers_read rfl) trivial) fun answer => ?_
        rcases answer with response | value
        · trivial
        · cases value with
          | monitors monitors =>
            show Prog.Asks _ (if op.dryRun then _ else _)
            split
            · trivial
            · exact asks_clickAt_covers _ _ _ _
          | _ => trivial

theorem asks_handleA11yClick_covers (op : A11yClickOp) : (handleA11yClick id op).Asks (Covers .input) := by
  have looks : Covers .input (.daemon (.a11yFind op.pid op.query op.role op.maxNodes)) :=
    ⟨.a11y, rfl, .inr (.inr ⟨rfl, rfl⟩)⟩
  refine Prog.Asks.bind (asked_asks looks trivial) fun result => ?_
  rcases result with response | value
  · trivial
  · dsimp only
    split
    · trivial
    · split
      · trivial
      · refine Prog.Asks.bind (asked_asks (covers_read rfl) trivial) fun answer => ?_
        rcases answer with response | reply
        · trivial
        · cases reply with
          | clients clients =>
            dsimp only
            split
            · trivial
            · show Prog.Asks _ (if op.dryRun then _ else _)
              split
              · trivial
              · exact asks_clickAt_covers _ _ _ _
          | _ => trivial

/-- A dispatch of the group asks for nothing beyond it. -/
theorem asks_runDispatch_covers {d : Dispatch} (suits : d.Suits g) : (runDispatch id d).Asks (Covers g) := by
  cases d with
  | forward request => exact asks_forward_covers suits
  | preview text => trivial
  | previewSnapshotRestore name =>
    obtain rfl : g = .snapshot := suits
    exact asks_preview_covers name
  | capture op => exact asks_handleCapture_covers (.inl suits) op
  | ocr op => exact asks_handleOcr_covers (.inl suits) op
  | findText op => exact asks_handleFindText_covers (.inl suits) op
  | clickText op =>
    obtain rfl : g = .input := suits
    exact asks_handleClickText_covers op
  | a11yClick op =>
    obtain rfl : g = .input := suits
    exact asks_handleA11yClick_covers op

end Covers

/-! ### Sessions -/

/-- Of the group of a tool that the profile permits. -/
def Permitted (profile : Profile) (P : ToolGroup → Prop) : Prop :=
  ∃ tool : Tool, profile.allows tool.toDef.name tool.toDef.group = true ∧ P tool.toDef.group

/-- What a session asks for is asked for a permitted tool. -/
def Authorized (server : Server) (c : Cmd) : Prop := Permitted server.profile fun g => Covers g c

section Authorized

variable (server : Server)

theorem asks_callTool (id : Json) (params : CallToolParams) :
    (server.callTool id params).Asks (Authorized server) := by
  cases named : Tool.named params.name with
  | none =>
    rw [callTool_unknown named]
    trivial
  | some tool =>
    cases allowed : server.profile.allows tool.toDef.name tool.toDef.group with
    | false =>
      rw [callTool_denied named allowed]
      trivial
    | true =>
      rw [callTool_allowed named allowed]
      cases dispatched : Tools.dispatchTool tool params.arguments with
      | error e => trivial
      | ok d =>
        have asks : (runDispatch id d).Asks (Covers tool.toDef.group) :=
          asks_runDispatch_covers (Tools.suits_dispatchTool dispatched)
        exact asks.mono fun c covers => ⟨tool, allowed, covers⟩

theorem asks_handle (request : JsonRpcRequest) : (server.handle request).Asks (Authorized server) := by
  unfold Server.handle
  split
  · trivial
  · split
    case h_5 =>
      refine Prog.Asks.bind ?_ fun _ => trivial
      unfold Server.handleCallTool
      split
      · trivial
      · exact asks_callTool server _ _
    all_goals trivial

theorem asks_runStdio (lines : List (Except String JsonRpcRequest)) :
    (server.runStdio lines).Asks (Authorized server) := by
  induction lines with
  | nil => trivial
  | cons line lines ih =>
    refine Prog.Asks.bind ?_ fun _ => ih.bind fun _ => trivial
    cases line with
    | error e => trivial
    | ok request => exact asks_handle server request

end Authorized

/-! ### Server and daemon -/

namespace Stack

/-- The daemon's effects and the server's own. -/
inductive Cmd (κ : Type) where
  /-- Whether the connection holds, or the client's error. -/
  | reach
  | daemon (c : Daemon.Cmd κ)
  | own (c : Mcp.Cmd)

@[reducible] def Ans {κ : Type} : Cmd κ → Type
  | .reach => Option ClientError
  | .daemon c => Daemon.Ans c
  | .own c => Mcp.Ans c

variable {κ : Type} (state : Daemon.State κ)

def outcome : Response → Except ClientError Reply
  | .ok reply => .ok reply
  | .err code message => .error (.rpc code message)

def handled (request : Request) : Prog (Cmd κ) Ans Response :=
  (Daemon.handleRequest state request).relabel Cmd.daemon fun _ x => x

/-- A request that reaches the daemon is served by its handler, whether or not the answer comes back. -/
def serve : (c : Mcp.Cmd) → Prog (Cmd κ) Ans (Mcp.Ans c)
  | .daemon request => do
    match ← (.call Cmd.reach : Prog (Cmd κ) Ans (Option ClientError)) with
    | some e => return .error e
    | none =>
      let response ← handled state request
      match ← (.call Cmd.reach : Prog (Cmd κ) Ans (Option ClientError)) with
      | some e => return .error e
      | none => return outcome response
  | c => .call (Cmd.own c)

def session (server : Server) (lines : List (Except String JsonRpcRequest)) :
    Prog (Cmd κ) Ans (List (Option JsonRpcResponse)) :=
  (server.runStdio lines).through (serve state)

section Granted

variable (respawns : Prop)

def Granted (g : ToolGroup) : Cmd κ → Prop
  | .reach => True
  | .daemon c => Daemon.Granted state.inputEnabled respawns g c
  | .own (.daemon _) => False
  | .own .dropDaemon => True
  | .own _ => g = .vision ∨ g = .input

def Recorded : (c : Cmd κ) → Ans c → Prop
  | .daemon c, x => Daemon.Recorded respawns c x
  | _, _ => True

variable {respawns}

theorem meets_serve {g : ToolGroup} {c : Mcp.Cmd} (covers : Covers g c) :
    (serve state c).Meets (Recorded respawns) (Granted state respawns g) fun _ => True := by
  cases c with
  | daemon request =>
    obtain ⟨g', grouped, reached⟩ := covers
    refine Prog.meets_ask.mpr ⟨trivial, fun lost _ => ?_⟩
    cases lost with
    | some e => trivial
    | none =>
      have kept : (Daemon.handleRequest state request).Meets (Daemon.Recorded respawns)
          (Daemon.Granted state.inputEnabled respawns g) fun _ => True :=
        Prog.wp_conseq (fun _ _ _ _ shown => shown)
          (fun _ _ granted => Daemon.granted_of_reached granted reached)
          (Daemon.keeps_handleRequest state grouped)
      have inside : (handled state request).Meets (Recorded respawns) (Granted state respawns g)
          fun _ => True := Prog.meets_relabel kept fun _ _ shown => shown
      show Prog.Meets _ _ _ (handled state request >>= _)
      refine Prog.meets_bind.mpr (Prog.wp_mono (fun response _ _ => ?_) inside)
      refine Prog.meets_ask.mpr ⟨trivial, fun lost _ => ?_⟩
      cases lost <;> trivial
  | dropDaemon => exact Prog.meets_ask.mpr ⟨trivial, fun _ _ => trivial⟩
  | _ => exact Prog.meets_ask.mpr ⟨covers, fun _ _ => trivial⟩

/-- Each effect of a session is granted by the group of a permitted tool. -/
theorem meets_session (server : Server) (lines : List (Except String JsonRpcRequest)) :
    (session state server lines).Meets (Recorded respawns)
      (fun c => Permitted server.profile fun g => Granted state respawns g c) fun _ => True := by
  have asked : (server.runStdio lines).Meets (fun _ _ => True) (Authorized server) fun _ => True :=
    (asks_runStdio server lines).meets
  refine Prog.meets_through asked ?_
  rintro c ⟨tool, allowed, covers⟩
  refine Prog.wp_conseq (fun _ _ _ _ shown => shown) ?_ (meets_serve state covers)
  exact fun _ _ granted => ⟨tool, allowed, granted⟩

end Granted

/-! ### Sessions on one daemon -/

/-- The undo stack and the effects so far, each with its session, the last one first. -/
structure Ledger (κ ι : Type) where
  undo : UndoStack
  effects : List (ι × Cmd κ)

def Spawns (entry : UndoEntry) : Prop := ∃ command, entry.inverse = .spawn command

namespace Ledger

variable {ι : Type}

def Act (i : ι) : (c : Cmd κ) → Ledger κ ι → Ans c → Ledger κ ι → Prop
  | .daemon (.undoPush description inverse), s, _, t =>
    ∃ now, t = ⟨s.undo.pushed ⟨now, description, inverse⟩,
      (i, .daemon (.undoPush description inverse)) :: s.effects⟩
  | .daemon .undoPop, s, x, t =>
    x = s.undo.entries.getLast? ∧ t = ⟨s.undo.popped, (i, .daemon .undoPop) :: s.effects⟩
  | c, s, _, t => t = { s with effects := (i, c) :: s.effects }

/-- Other clients use the undo stack too, and may record processes if `others` holds. -/
def Env (others : Prop) (s t : Ledger κ ι) : Prop :=
  t.effects = s.effects ∧ ∀ entry ∈ t.undo.entries, Spawns entry → others ∨ entry ∈ s.undo.entries

def rules (others : Prop) : Pool.Rules (Cmd κ) Ans (Ledger κ ι) ι := ⟨Act, Env others⟩

end Ledger

section Sessions

variable {ι : Type} (others : Prop) (servers : ι → Server)

/-- A process can be respawned: one is recorded already, or another client may record one, or a
session may close windows. -/
def Respawns (undo : UndoStack) : Prop :=
  (∃ entry ∈ undo.entries, Spawns entry) ∨ others ∨
    ∃ i, Permitted (servers i).profile fun g => g = .destructive

/-- Each effect is granted to its session, and so is each recorded process. -/
structure Lawful (undo : UndoStack) (s : Ledger κ ι) : Prop where
  recorded : ∀ entry ∈ s.undo.entries, Spawns entry → Respawns others servers undo
  granted : ∀ e ∈ s.effects, Permitted (servers e.1).profile fun g =>
    Granted state (Respawns others servers undo) g e.2

variable {others} {servers} {undo : UndoStack} {s t : Ledger κ ι} {state}

theorem Lawful.add (lawful : Lawful state others servers undo s) {i : ι} {c : Cmd κ}
    (granted : Permitted (servers i).profile fun g => Granted state (Respawns others servers undo) g c)
    (entries : ∀ entry ∈ t.undo.entries, Spawns entry → Respawns others servers undo)
    (effects : t.effects = (i, c) :: s.effects) : Lawful state others servers undo t := by
  refine ⟨entries, ?_⟩
  rw [effects]
  exact List.forall_mem_cons.mpr ⟨granted, lawful.granted⟩

theorem mem_pushed {stack : UndoStack} {entry e : UndoEntry} (inside : e ∈ (stack.pushed entry).entries) :
    e ∈ stack.entries ∨ e = entry := by
  rw [UndoStack.pushed] at inside
  rcases List.mem_append.mp inside with old | new
  · left
    split at old
    · exact List.mem_of_mem_tail old
    · exact old
  · exact .inr (List.mem_singleton.mp new)

theorem lawful_act {i : ι} {c : Cmd κ} {x : Ans c} (lawful : Lawful state others servers undo s)
    (granted : Permitted (servers i).profile fun g => Granted state (Respawns others servers undo) g c)
    (acted : Ledger.Act i c s x t) :
    Recorded (Respawns others servers undo) c x ∧ Lawful state others servers undo t := by
  have usual (same : t = { s with effects := (i, c) :: s.effects }) : Lawful state others servers undo t := by
    subst same
    exact lawful.add granted lawful.recorded rfl
  cases c with
  | reach => exact ⟨trivial, usual acted⟩
  | own c => exact ⟨trivial, usual acted⟩
  | daemon c =>
    cases c with
    | undoPush description inverse =>
      obtain ⟨now, rfl⟩ := acted
      refine ⟨trivial, lawful.add granted (fun entry inside spawns => ?_) rfl⟩
      rcases mem_pushed inside with old | rfl
      · exact lawful.recorded entry old spawns
      · obtain ⟨command, same⟩ := spawns
        obtain rfl : inverse = .spawn command := same
        exact .inr (.inr ⟨i, granted⟩)
    | undoPop =>
      obtain ⟨rfl, rfl⟩ := acted
      have newest (entry : UndoEntry) (given : entry ∈ s.undo.entries.getLast?) (command : String)
          (same : entry.inverse = .spawn command) : Respawns others servers undo :=
        lawful.recorded entry (List.mem_of_getLast? given) ⟨command, same⟩
      refine ⟨newest, lawful.add granted (fun entry inside => ?_) rfl⟩
      exact lawful.recorded entry (List.mem_of_mem_dropLast inside)
    | _ => exact ⟨trivial, usual acted⟩

variable [DecidableEq ι] {lines : ι → List (Except String JsonRpcRequest)}
  {Q : Pool (Cmd κ) Ans (List (Option JsonRpcResponse)) (Ledger κ ι) ι}

theorem lawful_reach
    (run : Pool.Reach (Ledger.rules others) ⟨⟨undo, []⟩, fun i => session state (servers i) (lines i)⟩ Q) :
    Lawful state others servers undo Q.shared := by
  have start : Lawful state others servers undo (⟨undo, []⟩ : Ledger κ ι) :=
    ⟨fun entry inside spawns => .inl ⟨entry, inside, spawns⟩, by simp⟩
  have each (i : ι) : (session state (servers i) (lines i)).Meets (Recorded (Respawns others servers undo))
      (fun c => Permitted (servers i).profile fun g => Granted state (Respawns others servers undo) g c)
      fun _ => True := meets_session state (servers i) (lines i)
  refine (Pool.reach_meets (I := Lawful state others servers undo)
    (fun i c s x t lawful granted acted => lawful_act lawful granted acted)
    (fun s t lawful moved => ?_) start each run).1
  obtain ⟨effects, entries⟩ := moved
  refine ⟨fun entry inside spawns => ?_, ?_⟩
  · rcases entries entry inside spawns with added | old
    · exact .inr (.inl added)
    · exact lawful.recorded entry old spawns
  · rw [effects]
    exact lawful.granted

/-- Whatever the sessions do at the same time, each effect is granted by the group of a tool that the
profile of its own session permits, and a process is respawned only where one could be recorded. -/
theorem sessions_authorized
    (run : Pool.Reach (Ledger.rules others) ⟨⟨undo, []⟩, fun i => session state (servers i) (lines i)⟩ Q) :
    ∀ e ∈ Q.shared.effects, Permitted (servers e.1).profile fun g =>
      Granted state (Respawns others servers undo) g e.2 := (lawful_reach run).granted

/-- Processes, closed windows, synthetic input, keybinds, other windows' contents, and the end of the
daemon. -/
def Grave : Cmd κ → Prop
  | .daemon (.cache (.hypr (.dispatch (.exec _)))) | .daemon (.cache (.hypr (.dispatch .killActive)))
  | .daemon (.cache (.hypr (.dispatch (.closeWindow _))))
  | .daemon (.cache (.hypr (.dispatch (.sendShortcut _ _ _))))
  | .daemon (.cache (.hypr (.dispatch (.bindAction _)))) | .daemon (.procCmdline _)
  | .daemon (.undoPush _ (.spawn _)) | .daemon (.input _) | .daemon .a11yConnect
  | .daemon (.a11ySnapshotApp _ _) | .daemon (.a11yFind _ _ _ _) | .daemon .notifyShutdown
  | .own .grimDetect | .own (.grimFull _ _ _) | .own (.grimRegion _ _ _) | .own .tesseractDetect
  | .own (.extractText _ _ _) | .own (.extractWords _ _ _ _) => True
  | _ => False

theorem permitted_defaultSafe {P : ToolGroup → Prop} (permitted : Permitted .defaultSafe P) :
    ∃ g ∈ Profile.defaultSafe.allow, P g := by
  obtain ⟨tool, allowed, holds⟩ := permitted
  exact ⟨tool.toDef.group, by simpa [Profile.allows, Profile.defaultSafe] using allowed, holds⟩

theorem not_grave {g : ToolGroup} {c : Cmd κ} {respawns : Prop} (safe : g ∈ Profile.defaultSafe.allow)
    (never : ¬respawns) (granted : Granted state respawns g c) : ¬Grave c := by
  intro grave
  have others : g ≠ .destructive ∧ g ≠ .process ∧ g ≠ .input ∧ g ≠ .vision ∧ g ≠ .a11y ∧ g ≠ .binds := by
    revert safe
    cases g <;> decide
  obtain ⟨destructive, process, input, vision, a11y, binds⟩ := others
  unfold Grave at grave
  split at grave <;> simp_all [Granted, Daemon.Granted, Daemon.DispatchGranted]

/-- Sessions of the default profile, on a daemon where no process is recorded and no other client records
one, spawn nothing, close nothing, and neither type, click nor look at the screen. -/
theorem default_sessions_harmless (profiles : ∀ i, (servers i).profile = .defaultSafe)
    (fresh : ∀ entry ∈ undo.entries, ¬Spawns entry)
    (run : Pool.Reach (Ledger.rules False) ⟨⟨undo, []⟩, fun i => session state (servers i) (lines i)⟩ Q) :
    ∀ e ∈ Q.shared.effects, ¬Grave e.2 := by
  have never : ¬Respawns False servers undo := by
    rintro (⟨entry, inside, spawns⟩ | recording | ⟨i, permitted⟩)
    · exact fresh entry inside spawns
    · exact recording
    · rw [profiles i] at permitted
      obtain ⟨g, safe, rfl⟩ := permitted_defaultSafe permitted
      revert safe
      decide
  intro e inside
  have granted := (lawful_reach run).granted e inside
  rw [profiles e.1] at granted
  obtain ⟨g, safe, granted⟩ := permitted_defaultSafe granted
  exact not_grave safe never granted

end Sessions

/-! ### A session that cycles the windows, and one that respawns a process -/

def plainStack : UndoStack := ⟨[], 64, none⟩

def poolOf (tool : String) : Pool (Cmd Daemon.StateFile) Ans (List (Option JsonRpcResponse))
    (Ledger Daemon.StateFile Unit) Unit :=
  ⟨⟨plainStack, []⟩, fun _ => session Daemon.plainState ⟨.defaultSafe, "0.2"⟩
    [.ok (toolsCall tool (.obj [("dry_run", .bool false)]))]⟩

theorem step_acted {others : Prop} {P : Pool (Cmd Daemon.StateFile) Ans (List (Option JsonRpcResponse))
      (Ledger Daemon.StateFile Unit) Unit} {c : Cmd Daemon.StateFile}
    {k : Ans c → Prog (Cmd Daemon.StateFile) Ans (List (Option JsonRpcResponse))} (x : Ans c)
    {s : Ledger Daemon.StateFile Unit} (acted : Ledger.Act () c P.shared x s)
    (next : P.progs () = .ask c k) :
    Pool.Step (Ledger.rules others) P ⟨s, Function.update P.progs () (k x)⟩ := .act () x next acted

/-- The session reaches the daemon and the focus is cycled. -/
theorem cycling_reach : ∃ Q, Pool.Reach (Ledger.rules False) (poolOf "cycle_next") Q ∧
    Q.shared.effects = [((), .daemon (.cache (.hypr (.dispatch .cycleNext)))), ((), .reach)] := by
  have run : Pool.Reach (Ledger.rules False) (poolOf "cycle_next") _ :=
    (Relation.ReflTransGen.refl.tail (step_acted (c := .reach) none rfl rfl)).tail
      (step_acted (c := .daemon (.cache (.hypr (.dispatch .cycleNext)))) (Except.ok ()) rfl rfl)
  exact ⟨_, run, rfl⟩

def closedTerm : UndoEntry := ⟨0, "kill kitty", .spawn "kitty"⟩

def respawning : List (Unit × Cmd Daemon.StateFile) :=
  [((), .daemon (.cache (.hypr (.dispatch (.exec "kitty"))))), ((), .daemon .undoPop), ((), .reach)]

/-- Another client closes a terminal, and the undo of a session starts it again. -/
theorem respawning_reach : ∃ Q, Pool.Reach (Ledger.rules True) (poolOf "undo") Q ∧
    Q.shared.effects = respawning := by
  let closed := plainStack.pushed closedTerm
  have recorded : Ledger.Env True (poolOf "undo").shared ⟨closed, []⟩ := ⟨rfl, fun _ _ _ => .inl trivial⟩
  have run : Pool.Reach (Ledger.rules True) (poolOf "undo") _ :=
    (((Relation.ReflTransGen.refl.tail (.env recorded)).tail
      (step_acted (c := .reach) none rfl rfl)).tail
      (step_acted (c := .daemon .undoPop) (some closedTerm) ⟨rfl, rfl⟩ rfl)).tail
      (step_acted (c := .daemon (.cache (.hypr (.dispatch (.exec "kitty"))))) (Except.ok ()) rfl rfl)
  exact ⟨_, run, rfl⟩

theorem sessions_authorized_respawning : ∃ Q, Pool.Reach (Ledger.rules True) (poolOf "undo") Q ∧
    Q.shared.effects = respawning ∧
    ∀ e ∈ Q.shared.effects, Permitted Profile.defaultSafe fun g =>
      Granted Daemon.plainState (Respawns True (fun _ : Unit => ⟨.defaultSafe, "0.2"⟩) plainStack)
        g e.2 := by
  obtain ⟨Q, run, effects⟩ := respawning_reach
  exact ⟨Q, run, effects, sessions_authorized run⟩

theorem default_sessions_harmless_cycling : ∃ Q,
    Pool.Reach (Ledger.rules False) (poolOf "cycle_next") Q ∧
    Q.shared.effects = [((), .daemon (.cache (.hypr (.dispatch .cycleNext)))), ((), .reach)] ∧
    ∀ e ∈ Q.shared.effects, ¬Grave e.2 := by
  obtain ⟨Q, run, effects⟩ := cycling_reach
  exact ⟨Q, run, effects, default_sessions_harmless (fun _ => rfl) (fun _ inside => by cases inside) run⟩

end Stack

end Mcp

end HyprPilot
