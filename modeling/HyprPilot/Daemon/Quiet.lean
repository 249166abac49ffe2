import HyprPilot.Daemon.Footprint

/-!
# Requests that change nothing

A command is quiet when it does not dispatch to Hyprland, touch the undo stack, write or delete a
file, or send input. A request is harmless when it is served by quiet commands alone; these are the
reads, the dry run of a keybind, and the snapshot requests that are refused for their name.
-/

namespace HyprPilot
open Interact

namespace Daemon

variable {κ : Type}

def Quiet : Cmd κ → Prop
  | .cache (.hypr (.dispatch _)) => False
  | .fs (.write ..) | .fs (.rename ..) | .fs (.removeFile _) => False
  | .undoPush .. | .undoPop => False
  | .input _ => False
  | _ => True

/-- However the daemon is configured and whatever its commands are answered. -/
def Harmless (request : Request) : Prop :=
  ∀ {κ : Type} (state : State κ), (handleRequest state request).Asks Quiet

def ReadsOnly : Request → Prop
  | .dispatchKillActive | .dispatchCloseWindow _ | .dispatchFocusWindow _ | .dispatchCycleNext
  | .dispatchCyclePrev | .dispatchSwitchWorkspace _ | .dispatchMoveToWorkspace _
  | .dispatchMoveToWorkspaceSilent _ | .dispatchToggleFloating | .dispatchFullscreen _
  | .dispatchCenterActive | .dispatchPinActive | .dispatchMoveActive _ | .dispatchResizeActive ..
  | .dispatchSwapActive _ | .dispatchExec _ | .dispatchFocusMonitor _
  | .dispatchMoveWorkspaceToMonitor _ => False
  | .undo => False
  | .inputType _ | .inputKeys _ | .inputShortcut .. | .inputMouseMove .. | .inputMouseClick _ => False
  | .snapshotSave name | .snapshotRestore name | .snapshotDelete name => validateName name ≠ .ok ()
  | .runBind _ _ dryRun => dryRun = true
  | _ => True

/-! ### Reads -/

section Reads

variable (state : State κ)

theorem quiet_queries (q : Query) : Quiet (Cmd.cache (κ := κ) (.hypr (.query q))) := trivial

theorem quiet_served {α : Type} (reply : α → Reply) {p : StateCache.Call (CoreResult α)}
    (quiet : (cached p : Handler κ _).Asks Quiet) : (served reply p : Handler κ Response).Asks Quiet :=
  quiet.bind fun _ => trivial

theorem quiet_read (f : StateCache.Field) :
    (cached (StateCache.read f) : Handler κ _).Asks Quiet :=
  asks_read quiet_queries (fun _ => trivial) (fun _ _ => trivial) f

theorem quiet_runBind_dry (combo : KeyCombo) (submap : Option String) :
    (runBind combo submap true : Handler κ Response).Asks Quiet := by
  refine (quiet_read .binds).bind fun binds => ?_
  cases binds with
  | error e => trivial
  | ok binds =>
    dsimp only
    cases Binds.resolve binds combo submap <;> trivial

theorem quiet_refused {name : String} (refused : validateName name ≠ .ok ()) :
    (snapshotSave state name).Asks Quiet ∧ (snapshotRestore state name).Asks Quiet ∧
      (snapshotDelete state name).Asks Quiet := by
  unfold snapshotSave snapshotRestore snapshotDelete SnapshotStore.loadNamed
    SnapshotStore.snapshotPath
  cases valid : validateName name with
  | ok _ => exact absurd valid refused
  | error e => exact ⟨trivial, trivial, trivial⟩

theorem quiet_of_readsOnly {request : Request} (reads : ReadsOnly request) :
    (handleRequest state request).Asks Quiet := by
  cases request with
  | queryClients => exact quiet_served _ (quiet_read .clients)
  | queryWorkspaces => exact quiet_served _ (quiet_read .workspaces)
  | queryMonitors => exact quiet_served _ (quiet_read .monitors)
  | queryActiveWindow =>
    exact quiet_served _ (asks_activeWindow quiet_queries (fun _ => trivial) fun _ _ => trivial)
  | queryActiveWorkspace => exact quiet_served _ (quiet_read .activeWorkspace)
  | queryVersion => exact quiet_served _ (quiet_read .version)
  | queryBinds => exact quiet_served _ (quiet_read .binds)
  | ping | rulesPath => trivial
  | shutdown | undoList | queryCursorPos => exact ⟨trivial, fun _ => trivial⟩
  | snapshotList => exact asks_snapshotList (fun _ => trivial) state fun _ => trivial
  | snapshotDiff name =>
    exact asks_snapshotDiff quiet_queries trivial (fun _ => trivial) (fun _ => trivial) state name
  | snapshotPreview name =>
    exact asks_snapshotPreview quiet_queries trivial (fun _ => trivial) (fun _ => trivial) state name
  | snapshotSave name => exact (quiet_refused state reads).1
  | snapshotRestore name => exact (quiet_refused state reads).2.1
  | snapshotDelete name => exact (quiet_refused state reads).2.2
  | rulesList => exact asks_rulesList trivial state
  | rulesValidate => exact asks_rulesValidate trivial (fun _ => trivial) state
  | a11yTree pid maxNodes =>
    exact asks_a11yRead (fun _ => trivial) (fun _ _ => trivial) quiet_queries trivial trivial pid none
      fun _ => ⟨trivial, fun _ => trivial⟩
  | a11yFind pid query role maxNodes =>
    exact asks_a11yRead (fun _ => trivial) (fun _ _ => trivial) quiet_queries trivial trivial pid
      (some query) fun _ => ⟨trivial, fun _ => trivial⟩
  | runBind combo submap dryRun =>
    obtain rfl : dryRun = true := reads
    exact quiet_runBind_dry combo submap
  | _ => exact reads.elim

end Reads

/-! ### Changes -/

def openState : State StateFile := { plainState with inputEnabled := true }

def emptySnapshot (name : String) : Snapshot :=
  .ofReplies name 0 ⟨"", "", ""⟩ [] [] [] none ⟨0, "", "", 0, 0, false, "", ""⟩

def firing (combo : KeyCombo) (submap : Option String) : Bind where
  mods := Binds.comboModSet combo
  modmask := 0
  key := combo.key
  submap := submap.getD ""
  dispatcher := "exec"
  arg := "true"
  mouse := false

theorem resolve_firing (combo : KeyCombo) (submap : Option String) :
    Binds.resolve [firing combo submap] combo submap = some (firing combo submap) := by
  refine List.find?_cons_of_pos ?_
  cases submap <;> simp [Binds.bindMatches, Binds.submapOk, firing]

theorem capture_returns (name : String) :
    (hypr (Snapshot.capture name) : Handler StateFile _).Returns (.ok (emptySnapshot name)) :=
  .ask (u := ()) (.ok ⟨"", "", ""⟩) trivial <| .ask (u := ()) (.ok []) trivial <|
  .ask (u := ()) (.ok []) trivial <| .ask (u := ()) (.ok []) trivial <|
  .ask (u := ()) (.ok none) trivial <|
  .ask (u := ()) (.ok ⟨0, "", "", 0, 0, false, "", ""⟩) trivial <|
  .ask (u := ()) 0 trivial (.ret _ _)

theorem changes_saveNamed {α : Type} {snap : Snapshot} (valid : validateName snap.name = .ok ())
    {rest : CoreResult String → Handler StateFile α} :
    ¬(files (plainState.store.saveNamed snap) >>= rest).Asks Quiet := by
  unfold SnapshotStore.saveNamed SnapshotStore.snapshotPath
  rw [valid]
  exact fun quiet => (quiet.2 (.ok ())).1

theorem changes_snapshotSave {name : String} (valid : validateName name = .ok ()) :
    ¬(snapshotSave openState name).Asks Quiet := by
  unfold snapshotSave
  rw [valid]
  have named : validateName (emptySnapshot name).name = .ok () := valid
  exact fun quiet => changes_saveNamed named (quiet.after (capture_returns name))

theorem changes_snapshotRestore {name : String} (valid : validateName name = .ok ()) :
    ¬(snapshotRestore openState name).Asks Quiet := by
  have loads : (files (openState.store.loadNamed name)).Returns (.ok (emptySnapshot name)) := by
    unfold SnapshotStore.loadNamed SnapshotStore.snapshotPath
    rw [valid]
    exact .ask (u := ()) true trivial
      (.ask (u := ()) (.ok (.snapshot (emptySnapshot name))) trivial (.ret _ _))
  intro quiet
  have capturing : Prog.Asks Quiet (hypr (Snapshot.capture (preRestoreName 0)) >>= _) :=
    (quiet.after loads).2 (0 : Int)
  have named : validateName (emptySnapshot (preRestoreName 0)).name = .ok () := by decide
  exact changes_saveNamed named (capturing.after (capture_returns _))

theorem changes_snapshotDelete {name : String} (valid : validateName name = .ok ()) :
    ¬(snapshotDelete openState name).Asks Quiet := by
  unfold snapshotDelete SnapshotStore.deleteNamed SnapshotStore.snapshotPath
  rw [valid]
  exact fun quiet => (quiet.2 true).1

theorem changes_runBind (combo : KeyCombo) (submap : Option String) :
    ¬(runBind combo submap false : Handler StateFile Response).Asks Quiet := by
  have reads : (cached StateCache.binds : Handler StateFile _).Returns
      (.ok [firing combo submap]) :=
    .ask (u := ()) (some [firing combo submap]) trivial (.ret _ _)
  intro quiet
  have firing := quiet.after reads
  simp only [resolve_firing] at firing
  exact firing.1

theorem readsOnly_of_harmless {request : Request} (harmless : Harmless request) :
    ReadsOnly request := by
  have quiet := harmless openState
  cases request with
  | dispatchKillActive => exact ((quiet.2 (.ok (some kitty))).2 none).1
  | dispatchCloseWindow selector => exact (quiet.2 (.ok [])).1
  | dispatchMoveToWorkspace workspace => exact (quiet.2 (.ok (some kitty))).1
  | dispatchMoveToWorkspaceSilent workspace => exact (quiet.2 (.ok (some kitty))).1
  | inputMouseMove x y absolute =>
    cases absolute with
    | false => exact quiet.1
    | true => exact (quiet.2 (some [])).1
  | snapshotSave name => exact fun valid => changes_snapshotSave valid quiet
  | snapshotRestore name => exact fun valid => changes_snapshotRestore valid quiet
  | snapshotDelete name => exact fun valid => changes_snapshotDelete valid quiet
  | runBind combo submap dryRun =>
    cases dryRun with
    | true => rfl
    | false => exact (changes_runBind combo submap quiet).elim
  | ping | shutdown | queryClients | queryWorkspaces | queryMonitors | queryActiveWindow
  | queryActiveWorkspace | queryVersion | queryCursorPos | queryBinds | undoList | snapshotList
  | snapshotDiff | snapshotPreview | rulesList | rulesValidate | rulesPath | a11yTree | a11yFind =>
    trivial
  | _ => exact quiet.1

theorem harmless_iff {request : Request} : Harmless request ↔ ReadsOnly request :=
  ⟨readsOnly_of_harmless, fun reads _ state => quiet_of_readsOnly state reads⟩

end Daemon

end HyprPilot
