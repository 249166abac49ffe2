import HyprPilot.Base.Through
import HyprPilot.Daemon.Footprint
import HyprPilot.Mcp.Capability

/-!
# What a group of tools grants

For each group of tools the effects that the daemon may have for a request of one of its tools. An
undo respawns a process only where a closed window's command line was recorded, and input needs the
daemon's own gate as well.
-/

namespace HyprPilot
open Interact

/-- The group of the tools that forward the request. No tool pings the daemon or shuts it down. -/
def Request.group : Request → Option ToolGroup
  | .ping | .shutdown => none
  | .queryClients | .queryWorkspaces | .queryMonitors | .queryActiveWindow | .queryActiveWorkspace
  | .queryVersion | .queryCursorPos | .queryBinds => some .read
  | .dispatchFocusWindow _ | .dispatchCycleNext | .dispatchCyclePrev | .dispatchToggleFloating
  | .dispatchFullscreen _ | .dispatchCenterActive | .dispatchPinActive | .dispatchMoveActive _
  | .dispatchResizeActive _ _ | .dispatchSwapActive _ => some .window
  | .dispatchSwitchWorkspace _ | .dispatchMoveToWorkspace _ | .dispatchMoveToWorkspaceSilent _
  | .dispatchFocusMonitor _ | .dispatchMoveWorkspaceToMonitor _ => some .workspace
  | .dispatchKillActive | .dispatchCloseWindow _ => some .destructive
  | .dispatchExec _ => some .process
  | .undo | .undoList => some .undo
  | .snapshotSave _ | .snapshotList | .snapshotDiff _ | .snapshotPreview _ | .snapshotRestore _
  | .snapshotDelete _ => some .snapshot
  | .rulesList | .rulesValidate | .rulesPath => some .rules
  | .inputType _ | .inputKeys _ | .inputShortcut _ _ | .inputMouseMove _ _ _ | .inputMouseClick _ =>
    some .input
  | .a11yTree _ _ | .a11yFind _ _ _ _ => some .a11y
  | .runBind _ _ _ => some .binds

namespace Daemon

section Granted

variable {κ : Type} (gate : Bool) (respawns : Prop) (g : ToolGroup)

def DispatchGranted : Dispatcher → Prop
  | .focusWindow _ => g ∈ [.window, .undo, .snapshot]
  | .cycleNext | .cyclePrev | .toggleFloating | .setFullscreen _ | .centerActive | .pinActive
  | .moveActive _ | .resizeActive _ _ | .swapActive _ => g = .window
  | .focusMonitor _ | .switchWorkspace _ | .moveWorkspaceToMonitor _ => g = .workspace
  | .moveActiveToWorkspace _ | .moveActiveToWorkspaceSilent _ => g ∈ [.workspace, .undo]
  | .killActive | .closeWindow _ => g = .destructive
  | .exec _ => g = .process ∨ g = .undo ∧ respawns
  | .moveWindowPixel _ _ _ | .resizeWindowPixel _ _ _ | .pinWindow _ | .toggleFloatingWindow _
  | .setFullscreenState _ _ _ | .moveToWorkspaceSilent _ _ => g = .snapshot
  | .sendShortcut _ _ _ => g = .input ∧ gate = true
  | .bindAction _ => g = .binds

def Granted : Cmd κ → Prop
  | .cache (.hypr (.dispatch d)) => DispatchGranted gate respawns g d
  | .cache (.hypr (.query _)) | .cache (.hypr .nowUnix) | .cache (.get _) | .cache (.set _ _) => True
  | .cache _ => False
  | .fs _ | .nowUnix => g = .snapshot
  | .procCmdline _ => g = .destructive
  | .undoPush _ (.spawn _) => g = .destructive
  | .undoPush _ (.moveToWorkspace _ _ _) => g = .workspace
  | .undoPop | .undoEntries => g = .undo
  | .rulesLoad | .rulesCompile _ => g = .rules
  | .input _ => g = .input ∧ gate = true
  -- A click on an element is an input tool and looks for the element first.
  | .a11yConnect | .a11yDrop | .a11ySnapshotApp _ _ | .a11yFind _ _ _ _ => g = .a11y ∨ g = .input
  | .notifyShutdown => False

/-- A process is recorded only where respawning is expected. -/
def Recorded : (c : Cmd κ) → Ans c → Prop
  | .undoPop, x => ∀ entry ∈ x, ∀ command, entry.inverse = .spawn command → respawns
  | _, _ => True

abbrev Keeps {α : Type} (p : Handler κ α) : Prop :=
  p.Meets (Recorded respawns) (Granted gate respawns g) fun _ => True

end Granted

section Requests

variable {κ : Type} {gate : Bool} {respawns : Prop} {g : ToolGroup} (state : State κ)

theorem granted_query (q : Query) : Granted gate respawns g (.cache (.hypr (.query q)) : Cmd κ) := trivial

theorem granted_get (f : StateCache.Field) : Granted gate respawns g (.cache (.get f) : Cmd κ) := trivial

theorem granted_set (f : StateCache.Field) (v : f.Value) :
    Granted gate respawns g (.cache (.set f v) : Cmd κ) := trivial

theorem keeps_read {α : Type} (reply : α → Reply) {p : StateCache.Call (CoreResult α)}
    (asks : (cached p : Handler κ _).Asks (Granted gate respawns g)) :
    Keeps gate respawns g (served reply p : Handler κ Response) := by
  have inner : (served reply p : Handler κ Response).Asks (Granted gate respawns g) :=
    asks.bind fun _ => trivial
  exact inner.meets

theorem asks_field (f : StateCache.Field) :
    (cached (StateCache.read f) : Handler κ _).Asks (Granted gate respawns g) :=
  asks_read granted_query granted_get granted_set f

theorem keeps_void {d : Dispatcher} (granted : DispatchGranted gate respawns g d) :
    Keeps gate respawns g (void d : Handler κ Response) :=
  Prog.meets_ask.mpr ⟨granted, fun _ _ => trivial⟩

theorem asks_move (ws : WorkspaceRef) (silent : Bool) :
    (moveToWorkspaceRecorded ws silent : Handler κ Response).Asks (Granted gate respawns .workspace) := by
  refine ⟨trivial, fun window => ?_⟩
  rcases window with e | (_ | active)
  · trivial
  · trivial
  · refine ⟨by cases silent <;> simp [Granted, DispatchGranted], fun result => ?_⟩
    cases result with
    | error e => trivial
    | ok _ => exact ⟨rfl, fun _ => trivial⟩

theorem asks_kill : (killActiveRecorded : Handler κ Response).Asks (Granted gate respawns .destructive) := by
  refine ⟨trivial, fun window => ?_⟩
  rcases window with e | (_ | active)
  · trivial
  · trivial
  · refine ⟨rfl, fun bytes => ⟨rfl, fun result => ?_⟩⟩
    cases result with
    | error e => trivial
    | ok _ =>
      dsimp only
      cases readProcCmdline bytes with
      | none => trivial
      | some command => exact ⟨rfl, fun _ => trivial⟩

theorem asks_close (selector : WindowSelector) :
    (closeWindowRecorded selector : Handler κ Response).Asks (Granted gate respawns .destructive) := by
  refine ⟨trivial, fun clients => ?_⟩
  cases clients with
  | error e => trivial
  | ok clients =>
    show Prog.Asks _ (inverseForMatched (clients.find? (selectorMatches selector)) >>= _)
    cases clients.find? (selectorMatches selector) with
    | none =>
      refine ⟨rfl, fun result => ?_⟩
      cases result <;> trivial
    | some c =>
      refine ⟨rfl, fun bytes => ⟨rfl, fun result => ?_⟩⟩
      cases result with
      | error e => trivial
      | ok _ =>
        dsimp only
        cases readProcCmdline bytes with
        | none => trivial
        | some command => exact ⟨rfl, fun _ => trivial⟩

theorem asks_inverse {inverse : InverseAction} (respawned : ∀ command, inverse = .spawn command → respawns) :
    (hypr (applyInverse inverse) : Handler κ _).Asks (Granted gate respawns .undo) := by
  cases inverse with
  | spawn command => exact ⟨.inr ⟨rfl, respawned command rfl⟩, fun _ => trivial⟩
  | moveToWorkspace selector workspace silent =>
    refine ⟨by simp [Granted, DispatchGranted], fun focused => ?_⟩
    cases focused with
    | error e => trivial
    | ok _ => cases silent <;> exact ⟨by simp [Granted, DispatchGranted], fun _ => trivial⟩

theorem keeps_undo : Keeps gate respawns .undo (undo : Handler κ Response) := by
  refine Prog.meets_ask.mpr ⟨rfl, fun popped recorded => ?_⟩
  cases popped with
  | none => trivial
  | some entry =>
    have inner : (hypr (applyInverse entry.inverse) : Handler κ _).Asks (Granted gate respawns .undo) :=
      asks_inverse (recorded entry rfl)
    refine Prog.Asks.meets (inner.bind fun result => ?_)
    cases result <;> trivial

theorem asks_applyActions (actions : List RestoreAction) :
    (hypr (applyActions actions) : Handler κ _).Asks (Granted gate respawns .snapshot) := by
  induction actions with
  | nil => trivial
  | cons action actions ih =>
    have focus (address : String) :
        DispatchGranted gate respawns .snapshot (.focusWindow (.address address)) := by
      simp [DispatchGranted]
    have one : (hypr (applyAction action) : Handler κ _).Asks (Granted gate respawns .snapshot) := by
      cases action with
      | repositionFloating address targetAt targetSize currentAt currentSize =>
        refine ⟨rfl, fun moved => ?_⟩
        cases moved with
        | error e => trivial
        | ok _ => exact ⟨rfl, fun _ => trivial⟩
      | restoreActiveFocus address _ => exact ⟨focus address, fun _ => trivial⟩
      | windowMissing | windowNotInSnapshot => trivial
      | _ => exact ⟨rfl, fun _ => trivial⟩
    have shape : (hypr (applyActions (action :: actions)) : Handler κ _) =
        hypr (applyAction action) >>= fun outcome => hypr (applyActions actions) >>= fun outcomes =>
          .ret (outcome :: outcomes) := by
      simp only [hypr, applyActions, Prog.relabel_bind]
      rfl
    rw [shape]
    exact one.bind fun _ => ih.bind fun _ => trivial

section Snapshots

theorem asks_anyFile {α : Type} (p : Fs.Call κ α) : (files p).Asks (Granted gate respawns .snapshot) :=
  asks_files (fun _ => rfl) p

theorem asks_live (name : String) :
    (hypr (Snapshot.capture name) : Handler κ _).Asks (Granted gate respawns .snapshot) :=
  asks_capture granted_query trivial name

theorem asks_save (name : String) : (snapshotSave state name).Asks (Granted gate respawns .snapshot) := by
  unfold snapshotSave
  cases validateName name with
  | error e => trivial
  | ok _ =>
    refine (asks_live name).bind fun snap => ?_
    cases snap with
    | error e => trivial
    | ok snap => exact (asks_anyFile _).bind fun result => by cases result <;> trivial

theorem asks_restore (name : String) :
    (snapshotRestore state name).Asks (Granted gate respawns .snapshot) := by
  refine (asks_anyFile _).bind fun target => ?_
  cases target with
  | error e => trivial
  | ok target =>
    refine ⟨rfl, fun now => (asks_live _).bind fun snap => ?_⟩
    cases snap with
    | error e => trivial
    | ok snap =>
      refine (asks_anyFile _).bind fun _ => (asks_live _).bind fun live => ?_
      cases live with
      | error e => trivial
      | ok live => exact (asks_applyActions _).bind fun _ => trivial

theorem asks_snapshotRequest {request : Request} (grouped : request.group = some .snapshot) :
    (handleRequest state request).Asks (Granted gate respawns .snapshot) := by
  cases request with
  | snapshotSave name => exact asks_save state name
  | snapshotList => exact asks_snapshotList (fun _ => rfl) state fun _ => rfl
  | snapshotDiff name =>
    exact asks_snapshotDiff granted_query trivial (fun _ => rfl) (fun _ => rfl) state name
  | snapshotPreview name =>
    exact asks_snapshotPreview granted_query trivial (fun _ => rfl) (fun _ => rfl) state name
  | snapshotRestore name => exact asks_restore state name
  | snapshotDelete name => exact asks_snapshotDelete (fun _ => rfl) state name
  | _ => cases grouped

end Snapshots

/-- Input asks nothing beyond the pointer's scale unless the gate is open. -/
theorem asks_gated {request : Handler κ Response}
    (asks : state.inputEnabled = true → request.Asks (Granted state.inputEnabled respawns .input)) :
    (gated state request).Asks (Granted state.inputEnabled respawns .input) := by
  unfold gated
  split
  · next opened => exact asks opened
  · trivial

theorem asks_inputRequest {request : Request} (grouped : request.group = some .input) :
    (handleRequest state request).Asks (Granted state.inputEnabled respawns .input) := by
  cases request with
  | inputType text | inputKeys combo | inputMouseClick button =>
    refine asks_gated state fun opened => ⟨⟨rfl, opened⟩, fun result => ?_⟩
    cases result <;> trivial
  | inputShortcut combo selector =>
    refine asks_gated state fun opened => ⟨⟨rfl, opened⟩, fun result => ?_⟩
    cases result <;> trivial
  | inputMouseMove x y absolute =>
    refine asks_gated state fun opened => Prog.Asks.bind ?_ fun point => ⟨⟨rfl, opened⟩, fun result => ?_⟩
    · unfold pointerTarget logicalToDevice
      split
      · exact (asks_field .monitors).bind fun monitors => by cases monitors <;> trivial
      · trivial
    · cases result <;> trivial
  | _ => cases grouped

theorem asks_rulesRequest {request : Request} (grouped : request.group = some .rules) :
    (handleRequest state request).Asks (Granted gate respawns .rules) := by
  cases request with
  | rulesList => exact asks_rulesList (P := Granted gate respawns .rules) rfl state
  | rulesValidate => exact asks_rulesValidate (P := Granted gate respawns .rules) rfl (fun _ => rfl) state
  | rulesPath => trivial
  | _ => cases grouped

theorem asks_a11yRequest {request : Request} (grouped : request.group = some .a11y) :
    (handleRequest state request).Asks (Granted gate respawns .a11y) := by
  cases request with
  | a11yTree pid maxNodes =>
    exact asks_a11yRead granted_get granted_set granted_query (.inl rfl) (.inl rfl) pid none
      fun _ => ⟨.inl rfl, fun _ => trivial⟩
  | a11yFind pid query role maxNodes =>
    exact asks_a11yRead granted_get granted_set granted_query (.inl rfl) (.inl rfl) pid (some query)
      fun _ => ⟨.inl rfl, fun _ => trivial⟩
  | _ => cases grouped

theorem asks_runBind (combo : KeyCombo) (submap : Option String) (dryRun : Bool) :
    (runBind combo submap dryRun : Handler κ Response).Asks (Granted gate respawns .binds) := by
  refine (asks_field .binds).bind fun binds => ?_
  cases binds with
  | error e => trivial
  | ok binds =>
    dsimp only
    cases Binds.resolve binds combo submap with
    | none => trivial
    | some bind =>
      cases dryRun with
      | true => trivial
      | false => exact ⟨rfl, fun result => by cases result <;> trivial⟩

/-- A request has no effects but those that its group grants. -/
theorem keeps_handleRequest {request : Request} (grouped : request.group = some g) :
    Keeps state.inputEnabled respawns g (handleRequest state request) := by
  cases request with
  | ping | shutdown => cases grouped
  | queryClients => exact keeps_read _ (asks_field .clients)
  | queryWorkspaces => exact keeps_read _ (asks_field .workspaces)
  | queryMonitors => exact keeps_read _ (asks_field .monitors)
  | queryActiveWindow => exact keeps_read _ (asks_activeWindow granted_query granted_get granted_set)
  | queryActiveWorkspace => exact keeps_read _ (asks_field .activeWorkspace)
  | queryVersion => exact keeps_read _ (asks_field .version)
  | queryBinds => exact keeps_read _ (asks_field .binds)
  | queryCursorPos => exact Prog.meets_ask.mpr ⟨trivial, fun _ _ => trivial⟩
  | dispatchFocusWindow =>
    cases grouped
    exact keeps_void (by simp [DispatchGranted])
  | dispatchCycleNext | dispatchCyclePrev | dispatchToggleFloating | dispatchFullscreen
  | dispatchCenterActive | dispatchPinActive | dispatchMoveActive | dispatchResizeActive
  | dispatchSwapActive | dispatchSwitchWorkspace | dispatchFocusMonitor
  | dispatchMoveWorkspaceToMonitor =>
    cases grouped
    exact keeps_void rfl
  | dispatchExec command =>
    cases grouped
    exact keeps_void (.inl rfl)
  | dispatchMoveToWorkspace ws =>
    cases grouped
    exact (asks_move ws false).meets
  | dispatchMoveToWorkspaceSilent ws =>
    cases grouped
    exact (asks_move ws true).meets
  | dispatchKillActive =>
    cases grouped
    exact asks_kill.meets
  | dispatchCloseWindow selector =>
    cases grouped
    exact (asks_close selector).meets
  | undo =>
    cases grouped
    exact keeps_undo
  | undoList =>
    cases grouped
    exact Prog.meets_ask.mpr ⟨rfl, fun _ _ => trivial⟩
  | snapshotSave | snapshotList | snapshotDiff | snapshotPreview | snapshotRestore | snapshotDelete =>
    cases grouped
    exact (asks_snapshotRequest state rfl).meets
  | rulesList | rulesValidate =>
    cases grouped
    exact (asks_rulesRequest state rfl).meets
  | rulesPath => trivial
  | inputType | inputKeys | inputShortcut | inputMouseMove | inputMouseClick =>
    cases grouped
    exact (asks_inputRequest state rfl).meets
  | a11yTree | a11yFind =>
    cases grouped
    exact (asks_a11yRequest state rfl).meets
  | runBind combo submap dryRun =>
    cases grouped
    exact (asks_runBind combo submap dryRun).meets

/-- What a read grants every group grants, and input grants what the accessibility group does. -/
theorem granted_of_reached {g' : ToolGroup} {c : Cmd κ} (granted : Granted gate respawns g' c)
    (reached : g' = g ∨ g' = .read ∨ g = .input ∧ g' = .a11y) : Granted gate respawns g c := by
  rcases reached with rfl | rfl | ⟨rfl, rfl⟩
  · exact granted
  · cases c with
    | cache c =>
      cases c with
      | hypr c =>
        cases c with
        | dispatch d => cases d <;> simp [Granted, DispatchGranted] at granted
        | _ => trivial
      | _ => exact granted
    | undoPush text inverse => cases inverse <;> cases granted
    | _ => simp [Granted] at granted
  · cases c with
    | cache c =>
      cases c with
      | hypr c =>
        cases c with
        | dispatch d => cases d <;> simp [Granted, DispatchGranted] at granted
        | _ => trivial
      | _ => exact granted
    | undoPush text inverse => cases inverse <;> cases granted
    | a11yConnect | a11yDrop | a11ySnapshotApp | a11yFind => exact .inr rfl
    | _ => simp [Granted] at granted

end Requests

end Daemon

end HyprPilot
