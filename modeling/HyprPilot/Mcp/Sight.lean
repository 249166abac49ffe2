import HyprPilot.Mcp.Gate

/-!
# Who sees the screen

The vision tools capture the screen and read text from it, and so does the composite `click_text`,
whose group is `input`. The other tools, also the composite `a11y_click`, only talk to the daemon.
-/

namespace HyprPilot
open Interact

namespace Mcp

/-- A capture of the screen, or text recognition on one. -/
def Sees : Cmd → Prop
  | .grimFull .. | .grimRegion .. | .extractText .. | .extractWords .. => True
  | _ => False

/-- Whatever is sent, no line of a session makes the server look at the screen. -/
def Server.Blind (server : Server) : Prop :=
  ∀ lines tr replies, Prog.Run (server.runStdio lines) tr replies → ∀ e ∈ tr, ¬Sees e.1

/-! ### The paths that do not look -/

section Paths

variable {id : Json}

abbrev LooksAway {α : Type} (p : Session α) : Prop := p.Asks fun c => ¬Sees c

theorem away_asked (request : Request) : LooksAway (asked id request) :=
  asked_asks not_false not_false

theorem away_forward (request : Request) : LooksAway (forward id request) :=
  (away_asked request).bind fun result => by cases result <;> trivial

theorem away_previewSnapshotRestore (name : String) :
    LooksAway (previewSnapshotRestore id name) := by
  refine (away_asked _).bind fun result => ?_
  rcases result with response | value
  · trivial
  · cases value <;> trivial

theorem away_clickAt (x y : Int) (button : MouseButton) (applied : Content) :
    LooksAway (clickAt id x y button applied) := by
  refine (away_asked _).bind fun moved => ?_
  cases moved with
  | error response => trivial
  | ok _ => exact (away_asked _).bind fun clicked => by cases clicked <;> trivial

theorem away_handleA11yClick (op : A11yClickOp) : LooksAway (handleA11yClick id op) := by
  refine (away_asked _).bind fun result => ?_
  rcases result with response | value
  · trivial
  · dsimp only
    split
    · trivial
    · split
      · trivial
      · refine (away_asked _).bind fun answer => ?_
        rcases answer with response | reply
        · trivial
        · cases reply with
          | clients clients =>
            dsimp only
            split
            · trivial
            · show LooksAway (if op.dryRun then _ else _)
              split
              · trivial
              · exact away_clickAt _ _ _ _
          | _ => trivial

/-- Operations that the server runs on pictures. -/
def Pictures : Dispatch → Prop
  | .capture _ | .ocr _ | .findText _ | .clickText _ => True
  | _ => False

theorem away_runDispatch {dispatch : Dispatch} (plain : ¬Pictures dispatch) :
    LooksAway (runDispatch id dispatch) := by
  cases dispatch with
  | preview text => trivial
  | forward request => exact away_forward request
  | previewSnapshotRestore name => exact away_previewSnapshotRestore name
  | a11yClick op => exact away_handleA11yClick op
  | _ => exact absurd trivial plain

end Paths

/-! ### The tools that do not look -/

section Dispatches

open Tools

/-- No dispatch of pictures comes of the call. -/
def Plain (result : Parsed Dispatch) : Prop := ∀ dispatch, result = .ok dispatch → ¬Pictures dispatch

theorem plain_ok {dispatch : Dispatch} (plain : ¬Pictures dispatch) : Plain (.ok dispatch) := by
  rintro _ ⟨⟩
  exact plain

theorem plain_bind {α : Type} {p : Parsed α} {f : α → Parsed Dispatch} (rest : ∀ a, Plain (f a)) :
    Plain (p >>= f) := by
  cases p with
  | ok a => exact rest a
  | error e =>
    intro dispatch same
    cases same

theorem plain_forwardOrPreview (dry : Bool) (request : Request) (text : String) :
    ¬Pictures (forwardOrPreview dry request text) := by
  cases dry <;> exact not_false

theorem plain_dispatchTool {tool : Tool} (args : Json) (group : tool.toDef.group ≠ .vision)
    (other : tool ≠ .clickText) : Plain (dispatchTool tool args) := by
  cases tool with
  | clickText => exact absurd rfl other
  | screenshot | screenshotRegion | screenshotMonitor | ocrScreen | ocrRegion | findTextPosition =>
    exact absurd rfl group
  | focusWindow | closeWindow | switchWorkspace | moveToWorkspace | moveToWorkspaceSilent
  | inputKeys | inputMouseClick =>
    exact plain_bind fun _ => plain_bind fun _ => plain_ok (plain_forwardOrPreview _ _ _)
  | inputShortcut =>
    exact plain_bind fun _ => plain_bind fun _ => plain_bind fun _ =>
      plain_ok (plain_forwardOrPreview _ _ _)
  | runBind => exact plain_bind fun _ => plain_bind fun _ => plain_ok not_false
  | a11yClick => exact plain_bind fun _ => plain_bind fun _ => plain_bind fun _ => plain_ok not_false
  | snapshotRestore =>
    refine plain_bind fun p => ?_
    cases p.dryRun <;> exact plain_ok not_false
  | cycleNext | cyclePrev | toggleFloating | centerActive | pinActive | killActive | undo
  | setFullscreen | moveActive | swapActive | resizeActive | focusMonitor | moveWorkspaceToMonitor
  | exec | inputType | inputMouseMove =>
    exact plain_bind fun _ => plain_ok (plain_forwardOrPreview _ _ _)
  | _ => exact plain_bind fun _ => plain_ok not_false

end Dispatches

/-! ### Sessions -/

section Sessions

variable {server : Server}

theorem away_callTool {id : Json} {params : CallToolParams} (noVision : .vision ∉ server.profile.allow)
    (noTools : server.profile.allowTools = [])
    (clickless : server.profile.allows "click_text" .input = false) :
    LooksAway (server.callTool id params) := by
  cases named : Tool.named params.name with
  | none =>
    rw [callTool_unknown named]
    trivial
  | some tool =>
    cases allowed : server.profile.allows tool.toDef.name tool.toDef.group with
    | false =>
      rw [callTool_denied named allowed]
      trivial
    | true =>
      rw [callTool_allowed named allowed]
      have group : tool.toDef.group ≠ .vision := by
        intro vision
        rw [vision, Profile.allows, noTools] at allowed
        simp [noVision] at allowed
      have other : tool ≠ .clickText := by
        rintro rfl
        have both := allowed.symm.trans clickless
        cases both
      cases dispatched : Tools.dispatchTool tool params.arguments with
      | error e => trivial
      | ok dispatch => exact away_runDispatch (plain_dispatchTool _ group other dispatch dispatched)

theorem away_handleLine (line : Except String JsonRpcRequest)
    (noVision : .vision ∉ server.profile.allow) (noTools : server.profile.allowTools = [])
    (clickless : server.profile.allows "click_text" .input = false) :
    LooksAway (server.handleLine line) := by
  cases line with
  | error e => trivial
  | ok request =>
    show LooksAway (server.handle request)
    unfold Server.handle
    split
    · trivial
    · split
      case h_5 =>
        refine Prog.Asks.bind ?_ fun _ => trivial
        unfold Server.handleCallTool
        split
        · trivial
        · exact away_callTool noVision noTools clickless
      all_goals trivial

theorem away_runStdio (lines : List (Except String JsonRpcRequest))
    (noVision : .vision ∉ server.profile.allow) (noTools : server.profile.allowTools = [])
    (clickless : server.profile.allows "click_text" .input = false) :
    LooksAway (server.runStdio lines) := by
  induction lines with
  | nil => trivial
  | cons line rest ih =>
    exact (away_handleLine line noVision noTools clickless).bind fun _ => ih.bind fun _ => trivial

def clickX : JsonRpcRequest := toolsCall "click_text" (.obj [("query", .str "x")])

def clickXOp : ClickTextOp where
  query := "x"
  region := none
  activeWindow := false
  caseSensitive := false
  minConfidence := 50
  psm := .sparseText
  lang := "eng"
  button := .left
  matchIndex := 0
  requireUnique := true
  dryRun := true

/-- A permitted `click_text` captures the screen, here in a dry run whose capture comes out empty. -/
theorem not_blind (allowed : server.profile.allows "click_text" .input = true) :
    ¬server.Blind := by
  have clicking : server.callTool (.int 1) ⟨"click_text", .obj [("query", .str "x")]⟩ = _ :=
    callTool_allowed (Tool.named_name .clickText) allowed
  obtain ⟨response, scanning⟩ : ∃ response, Prog.Run
      (server.callTool (.int 1) ⟨"click_text", .obj [("query", .str "x")]⟩)
      [⟨.grimDetect, .ok ()⟩, ⟨.grimFull none false .ppm, .error .emptyOutput⟩] response := by
    have parsed : Tools.dispatchTool .clickText (.obj [("query", .str "x")]) =
        .ok (.clickText clickXOp) := rfl
    rw [clicking, parsed]
    have ready : Prog.Run grimDetect [⟨.grimDetect, .ok ()⟩] (.ok ()) := Prog.run_call _ _
    have empty : Prog.Run (captureFull none false .ppm)
        [⟨.grimFull none false .ppm, .error .emptyOutput⟩] (.error .emptyOutput) := Prog.run_call _ _
    have capturing : Prog.Run (captureScan none)
        [⟨.grimDetect, .ok ()⟩, ⟨.grimFull none false .ppm, .error .emptyOutput⟩]
        (.error .emptyOutput) :=
      Prog.run_bind.mpr ⟨_, _, .ok (), rfl, ready, empty⟩
    have reading : Prog.Run (scanForMatches none clickXOp.toFindTextOp)
        [⟨.grimDetect, .ok ()⟩, ⟨.grimFull none false .ppm, .error .emptyOutput⟩]
        (.error VisionError.emptyOutput.text) :=
      Prog.run_bind.mpr ⟨_, [], _, rfl, Prog.run_bind.mpr ⟨_, [], _, rfl, capturing, .ret _⟩, .ret _⟩
    exact ⟨_, Prog.run_bind.mpr ⟨[], _, .ok none, rfl, .ret _,
      Prog.run_bind.mpr ⟨_, [], _, rfl, reading, .ret _⟩⟩⟩
  have handling : Prog.Run (server.handle clickX)
      [⟨.grimDetect, .ok ()⟩, ⟨.grimFull none false .ppm, .error .emptyOutput⟩] (some response) := by
    have calling : server.handle clickX = _ := handle_call rfl rfl rfl
    rw [calling]
    exact Prog.run_bind.mpr ⟨_, [], response, rfl, scanning, .ret _⟩
  have session : Prog.Run (server.runStdio [.ok clickX])
      [⟨.grimDetect, .ok ()⟩, ⟨.grimFull none false .ppm, .error .emptyOutput⟩] [some response] :=
    Prog.run_bind.mpr ⟨_, [], _, rfl, handling, .ret _⟩
  intro blind
  exact blind _ _ _ session ⟨.grimFull none false .ppm, .error .emptyOutput⟩ (by simp) trivial

/-- Without the group `vision` and without tools allowed by name, nobody sees the screen exactly
when `click_text` is out of reach as well. -/
theorem Server.blind_iff (noVision : .vision ∉ server.profile.allow)
    (noTools : server.profile.allowTools = []) :
    server.Blind ↔ .input ∉ server.profile.allow ∨ "click_text" ∈ server.profile.denyTools := by
  have clickless : server.profile.allows "click_text" .input = false ↔
      .input ∉ server.profile.allow ∨ "click_text" ∈ server.profile.denyTools := by
    unfold Profile.allows
    by_cases denied : "click_text" ∈ server.profile.denyTools <;> simp [denied, noTools]
  rw [← clickless]
  constructor
  · exact fun blind => Bool.eq_false_iff.mpr fun allowed => not_blind allowed blind
  · intro clickless lines tr replies run
    exact ((away_runStdio lines noVision noTools clickless).of_run run)

end Sessions

theorem Server.blind_default : (⟨.defaultSafe, "0.2"⟩ : Server).Blind :=
  (blind_iff (by decide) rfl).mpr (.inl (by decide))

/-- The groups of `profile-with-input.example.toml`. -/
def withInput : Profile :=
  ⟨"with-input", [.read, .window, .workspace, .undo, .snapshot, .rules, .input], [], []⟩

theorem Server.input_sees : .vision ∉ withInput.allow ∧ withInput.allowTools = [] ∧
    ¬(⟨withInput, "0.2"⟩ : Server).Blind :=
  ⟨by decide, rfl, not_blind (by decide)⟩

end Mcp

end HyprPilot
