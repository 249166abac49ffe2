import HyprPilot.Daemon.Quiet
import HyprPilot.Mcp.ClickPoint
import HyprPilot.Mcp.Replies

/-!
# Dry runs

A call of a mutating tool changes nothing unless `dry_run` is false. Each tool reads the flag by
itself, and on each path from the arguments to the daemon the flag decides alone whether the call
can make a request that is not harmless. Saving and deleting a snapshot have no such flag.
-/

namespace HyprPilot
open Interact

/-- The position of `dry_run` among the parameters of a mutating tool. -/
def Tool.dryRunIndex : Tool → Option Nat
  | .cycleNext | .cyclePrev | .toggleFloating | .centerActive | .pinActive | .killActive | .undo =>
    some 0
  | .focusWindow | .closeWindow | .switchWorkspace | .moveToWorkspace | .moveToWorkspaceSilent
  | .setFullscreen | .moveActive | .swapActive | .focusMonitor | .moveWorkspaceToMonitor | .exec
  | .snapshotRestore | .inputType | .inputKeys | .inputMouseClick => some 1
  | .resizeActive | .inputShortcut | .runBind => some 2
  | .inputMouseMove => some 3
  | .a11yClick => some 7
  | .clickText => some 13
  | _ => none

namespace Mcp

/-- The daemon serves the request without a change; captures and recognition only read. -/
def Harmless : Cmd → Prop
  | .daemon request => Daemon.Harmless request
  | _ => True

/-! ### Paths to the daemon -/

section Paths

variable {id : Json}

theorem asks_asked {request : Request} (reads : Daemon.ReadsOnly request) :
    (asked id request).Asks Harmless :=
  asked_asks (Daemon.harmless_iff.mpr reads) trivial

theorem asks_forward {request : Request} :
    (forward id request).Asks Harmless ↔ Daemon.ReadsOnly request := by
  constructor
  · exact fun quiet => Daemon.harmless_iff.mp quiet.1
  · intro reads
    exact (asks_asked reads).bind fun result => by cases result <;> trivial

theorem asks_previewSnapshotRestore (name : String) :
    (previewSnapshotRestore id name).Asks Harmless := by
  refine Prog.Asks.bind (asks_asked (by exact trivial)) fun result => ?_
  rcases result with response | value
  · trivial
  · cases value <;> trivial

theorem asks_scanRegion (op : FindTextOp) : (scanRegion id op).Asks Harmless := by
  unfold scanRegion
  split
  · refine Prog.Asks.bind ?_ fun _ => trivial
    refine Prog.Asks.bind (asks_asked (by exact trivial)) fun result => ?_
    rcases result with response | value
    · trivial
    · cases value <;> trivial
  · trivial

theorem harmless_of_local (c : Cmd) (inside : Local c) : Harmless c := by
  cases c with
  | daemon request => exact inside.elim
  | _ => trivial

theorem asks_handleClickText_dry {op : ClickTextOp} (dry : op.dryRun = true) :
    (handleClickText id op).Asks Harmless := by
  refine (asks_scanRegion _).bind fun region => ?_
  cases region with
  | error response => trivial
  | ok region =>
    refine ((asks_scanForMatches _ _).mono harmless_of_local).bind fun found => ?_
    cases found with
    | error e => trivial
    | ok found =>
      dsimp only
      split
      · trivial
      · refine Prog.Asks.bind (asks_asked (by exact trivial)) fun result => ?_
        rcases result with response | value
        · trivial
        · cases value with
          | monitors monitors =>
            show Prog.Asks Harmless (if op.dryRun then _ else _)
            rw [if_pos dry]
            trivial
          | _ => trivial

theorem asks_handleA11yClick_dry {op : A11yClickOp} (dry : op.dryRun = true) :
    (handleA11yClick id op).Asks Harmless := by
  refine Prog.Asks.bind (asks_asked (by exact trivial)) fun result => ?_
  rcases result with response | value
  · trivial
  · dsimp only
    split
    · trivial
    · split
      · trivial
      · rename_i pid _
        refine Prog.Asks.bind (asks_asked (by exact trivial)) fun answer => ?_
        rcases answer with response | reply
        · trivial
        · cases reply with
          | clients clients =>
            dsimp only
            split
            · trivial
            · show Prog.Asks Harmless (if op.dryRun then _ else _)
              rw [if_pos dry]
              trivial
          | _ => trivial

/-! ### Clicks -/

theorem not_harmless_move (x y : Int) (absolute : Bool) :
    ¬Harmless (.daemon (.inputMouseMove x y absolute)) :=
  fun harmless => Daemon.harmless_iff.mp harmless

/-- A screen on which the query is found once more than the index says. -/
def crowded (op : ClickTextOp) : Scene where
  window := some Daemon.kitty
  words := (List.replicate (op.matchIndex + 1) ((Text.splitWhitespace op.query).map wordAt)).flatten
  monitors := []

theorem crowded_chooses {op : ClickTextOp} (tokens : Text.splitWhitespace op.query ≠ [])
    (valid : ∀ r, op.region = some r → r.validate = .ok ()) :
    ∃ m, (crowded op).Chooses op m := by
  have runs : findWordRuns (crowded op).words op.query op.caseSensitive =
      runsFrom op.caseSensitive ((Text.splitWhitespace op.query).map (normalize op.caseSensitive))
        (crowded op).words := by
    rw [findWordRuns, if_neg (by simpa using tokens)]
  have inside : op.matchIndex <
      (findWordRuns (crowded op).words op.query op.caseSensitive).length := by
    rw [runs]
    exact le_length_runsFrom tokens (op.matchIndex + 1)
  refine ⟨_, fun active => ⟨Daemon.kitty, rfl, by decide, by decide⟩, ?_,
    List.getElem?_eq_getElem inside, ?_⟩
  · intro r covered
    unfold Scene.region at covered
    split at covered
    · cases covered
      decide
    · exact valid r covered
  · intro _ first
    have size : (crowded op).words.length = (Text.splitWhitespace op.query).length := by
      simp [crowded, first]
    have few : (runsFrom op.caseSensitive
        ((Text.splitWhitespace op.query).map (normalize op.caseSensitive))
        (crowded op).words).length ≤ _ := length_runsFrom_le _
    have several := List.length_pos_of_ne_nil tokens
    rw [runs]
    rw [size, List.length_map] at few
    omega

theorem changes_handleClickText {op : ClickTextOp} (wet : op.dryRun = false)
    (tokens : Text.splitWhitespace op.query ≠ [])
    (valid : ∀ r, op.region = some r → r.validate = .ok ()) :
    ¬(handleClickText id op).Asks Harmless := by
  obtain ⟨m, chooses⟩ := crowded_chooses tokens valid
  intro quiet
  have choosing := (quiet.after (reaches_scanRegion chooses)).after (reaches_scanForMatches chooses)
  simp only [chooses.chosen] at choosing
  have shown : (crowded op).Shows (.daemon .queryMonitors) (.ok (.monitors [])) :=
    fun _ equal => (Reply.monitors.inj (Except.ok.inj equal)).symm
  have clicking : Prog.Asks Harmless (if op.dryRun then _ else _) :=
    choosing.after (reaches_asked shown)
  rw [if_neg (by simp [wet])] at clicking
  exact not_harmless_move _ _ _ clicking.1

def button : Element := ⟨"button", "Save", none, 0, 0, 10, 10, 1, "/0"⟩

theorem changes_handleA11yClick {op : A11yClickOp} (wet : op.dryRun = false) :
    ¬(handleA11yClick id op).Asks Harmless := by
  have asked_returns (request : Request) (value : Reply) :
      (asked id request).Returns (.ok value) :=
    .ask (u := ()) (.ok value) trivial (.ret _ _)
  have clickable : (List.replicate (op.matchIndex + 1) button).filter Element.isClickable =
      List.replicate (op.matchIndex + 1) button :=
    List.filter_eq_self.mpr fun e member => by
      rw [List.eq_of_mem_replicate member]
      decide
  have located : (List.replicate (op.matchIndex + 1) button)[op.matchIndex]? = some button := by
    rw [List.getElem?_replicate, if_pos (Nat.lt_succ_self _)]
  intro quiet
  have choosing := quiet.after (asked_returns _
    (.elements 7 none (List.replicate (op.matchIndex + 1) button)))
  simp only [foundElements, clickable] at choosing
  simp only [chooseMatch_ok located (fun _ first => by simp [first])] at choosing
  have clicking : Prog.Asks Harmless (if op.dryRun then _ else _) :=
    choosing.after (asked_returns .queryClients (.clients [Daemon.kitty]))
  rw [if_neg (by simp [wet])] at clicking
  exact not_harmless_move _ _ _ clicking.1

end Paths

/-! ### The flag -/

/-- The flag at the position decides alone whether the call is harmless. -/
def Guarded (id : Json) (index : Nat) (args : Json) (dispatch : Dispatch) : Prop :=
  ∃ dry, (Tools.orEmpty args).dryRun index = .ok dry ∧
    ((runDispatch id dispatch).Asks Harmless ↔ dry = true)

section Guarded

open Tools

variable {id args : Json} {index : Nat} {name : String} {dispatch : Dispatch}

theorem parseArgs_ok {α : Type} {read : Json → Json.Result α} {a : α}
    (accepted : parseArgs name read args = .ok a) : read (orEmpty args) = .ok a :=
  checked_ok accepted

theorem guarded_forwardOrPreview {dry : Bool} {request : Request} {text : String}
    (flag : (orEmpty args).dryRun index = .ok dry) (changes : ¬Daemon.ReadsOnly request) :
    Guarded id index args (forwardOrPreview dry request text) := by
  refine ⟨dry, flag, ?_⟩
  cases dry with
  | true => exact iff_of_true trivial rfl
  | false => exact iff_of_false (fun quiet => changes (asks_forward.mp quiet)) nofun

theorem guarded_parseMutNoArgs {request : Request}
    (accepted : parseMutNoArgs name args request = .ok dispatch)
    (changes : ¬Daemon.ReadsOnly request) : Guarded id 0 args dispatch := by
  obtain ⟨p, read, ending⟩ := Collect.bind_ok accepted
  cases ending
  exact guarded_forwardOrPreview (MutNoArgs.dryRun_read (parseArgs_ok read)) changes

theorem guarded_parseSelector {build : WindowSelector → Request}
    (accepted : parseSelector name args build = .ok dispatch)
    (changes : ∀ selector, ¬Daemon.ReadsOnly (build selector)) : Guarded id 1 args dispatch := by
  obtain ⟨p, read, rest⟩ := Collect.bind_ok accepted
  obtain ⟨selector, -, ending⟩ := Collect.bind_ok rest
  cases ending
  exact guarded_forwardOrPreview (TextArgs.dryRun_read (parseArgs_ok read)) (changes selector)

theorem guarded_parseWorkspace {build : WorkspaceRef → Request}
    (accepted : parseWorkspace name args build = .ok dispatch)
    (changes : ∀ workspace, ¬Daemon.ReadsOnly (build workspace)) : Guarded id 1 args dispatch := by
  obtain ⟨p, read, rest⟩ := Collect.bind_ok accepted
  obtain ⟨workspace, -, ending⟩ := Collect.bind_ok rest
  cases ending
  exact guarded_forwardOrPreview (TextArgs.dryRun_read (parseArgs_ok read)) (changes workspace)

theorem guarded_parseText {struct field : String} {build : String → Request}
    {preview : String → String}
    (accepted : parseText name (TextArgs.read struct field) args build preview = .ok dispatch)
    (changes : ∀ text, ¬Daemon.ReadsOnly (build text)) : Guarded id 1 args dispatch := by
  obtain ⟨p, read, ending⟩ := Collect.bind_ok accepted
  cases ending
  exact guarded_forwardOrPreview (TextArgs.dryRun_read (parseArgs_ok read)) (changes p.text)

theorem guarded_parseDirection {build : Direction → Request} {preview : Direction → String}
    (accepted : parseDirection name args build preview = .ok dispatch)
    (changes : ∀ direction, ¬Daemon.ReadsOnly (build direction)) : Guarded id 1 args dispatch := by
  obtain ⟨p, read, ending⟩ := Collect.bind_ok accepted
  cases ending
  exact guarded_forwardOrPreview (DirectionArgs.dryRun_read (parseArgs_ok read)) (changes p.direction)

theorem guarded_clickText (accepted : dispatchTool .clickText args = .ok dispatch) :
    Guarded id 13 args dispatch := by
  obtain ⟨p, read, rest⟩ := Collect.bind_ok accepted
  obtain ⟨op, scanned, rest⟩ := Collect.bind_ok rest
  obtain ⟨button, -, ending⟩ := Collect.bind_ok rest
  obtain ⟨tokens, valid⟩ := scanOp_ok scanned
  cases ending
  refine ⟨p.dryRun, ClickTextArgs.dryRun_read (parseArgs_ok read), ?_⟩
  cases dry : p.dryRun with
  | true => exact iff_of_true (asks_handleClickText_dry rfl) rfl
  | false => exact iff_of_false (changes_handleClickText rfl tokens valid) nofun

theorem guarded_a11yClick (accepted : dispatchTool .a11yClick args = .ok dispatch) :
    Guarded id 7 args dispatch := by
  obtain ⟨p, read, rest⟩ := Collect.bind_ok accepted
  obtain ⟨_, -, rest⟩ := Collect.bind_ok rest
  obtain ⟨button, -, ending⟩ := Collect.bind_ok rest
  cases ending
  refine ⟨p.dryRun, A11yClickArgs.dryRun_read (parseArgs_ok read), ?_⟩
  cases dry : p.dryRun with
  | true => exact iff_of_true (asks_handleA11yClick_dry rfl) rfl
  | false => exact iff_of_false (changes_handleA11yClick rfl) nofun

theorem guarded_runBind (accepted : dispatchTool .runBind args = .ok dispatch) :
    Guarded id 2 args dispatch := by
  obtain ⟨p, read, rest⟩ := Collect.bind_ok accepted
  obtain ⟨combo, -, ending⟩ := Collect.bind_ok rest
  cases ending
  exact ⟨p.dryRun, RunBindArgs.dryRun_read (parseArgs_ok read), asks_forward⟩

theorem guarded_snapshotRestore (accepted : dispatchTool .snapshotRestore args = .ok dispatch)
    (named : ∀ name, args.param 0 "name" = some (.str name) → validateName name = .ok ()) :
    Guarded id 1 args dispatch := by
  obtain ⟨p, read, ending⟩ := Collect.bind_ok accepted
  cases ending
  have given := TextArgs.text_read (parseArgs_ok read)
  rw [orEmpty_param] at given
  refine ⟨p.dryRun, TextArgs.dryRun_read (parseArgs_ok read), ?_⟩
  cases dry : p.dryRun with
  | true => exact iff_of_true (asks_previewSnapshotRestore _) rfl
  | false => exact iff_of_false (fun quiet => asks_forward.mp quiet (named _ given)) nofun

/-- Every tool with a flag obeys it, unless a restore is refused for its name anyway. -/
theorem guarded_dispatchTool {tool : Tool} (indexed : tool.dryRunIndex = some index)
    (accepted : dispatchTool tool args = .ok dispatch)
    (named : tool = .snapshotRestore → ∀ name, args.param 0 "name" = some (.str name) →
      validateName name = .ok ()) : Guarded id index args dispatch := by
  cases tool with
  | focusWindow | closeWindow =>
    cases indexed
    exact guarded_parseSelector accepted fun _ reads => reads
  | switchWorkspace | moveToWorkspace | moveToWorkspaceSilent =>
    cases indexed
    exact guarded_parseWorkspace accepted fun _ reads => reads
  | cycleNext | cyclePrev | toggleFloating | centerActive | pinActive | killActive | undo =>
    cases indexed
    exact guarded_parseMutNoArgs accepted fun reads => reads
  | focusMonitor | moveWorkspaceToMonitor | exec | inputType =>
    cases indexed
    unfold dispatchTool at accepted
    exact guarded_parseText accepted fun _ reads => reads
  | moveActive | swapActive =>
    cases indexed
    unfold dispatchTool at accepted
    exact guarded_parseDirection accepted fun _ reads => reads
  | setFullscreen =>
    cases indexed
    obtain ⟨p, read, ending⟩ := Collect.bind_ok accepted
    cases ending
    exact guarded_forwardOrPreview (FullscreenArgs.dryRun_read (parseArgs_ok read)) fun reads => reads
  | resizeActive =>
    cases indexed
    obtain ⟨p, read, ending⟩ := Collect.bind_ok accepted
    cases ending
    exact guarded_forwardOrPreview (ResizeArgs.dryRun_read (parseArgs_ok read)) fun reads => reads
  | inputKeys =>
    cases indexed
    obtain ⟨p, read, rest⟩ := Collect.bind_ok accepted
    obtain ⟨combo, -, ending⟩ := Collect.bind_ok rest
    cases ending
    exact guarded_forwardOrPreview (TextArgs.dryRun_read (parseArgs_ok read)) fun reads => reads
  | inputShortcut =>
    cases indexed
    obtain ⟨p, read, rest⟩ := Collect.bind_ok accepted
    obtain ⟨combo, -, rest⟩ := Collect.bind_ok rest
    obtain ⟨selector, -, ending⟩ := Collect.bind_ok rest
    cases ending
    exact guarded_forwardOrPreview (InputShortcutArgs.dryRun_read (parseArgs_ok read)) fun reads => reads
  | inputMouseMove =>
    cases indexed
    obtain ⟨p, read, ending⟩ := Collect.bind_ok accepted
    cases ending
    exact guarded_forwardOrPreview (InputMouseMoveArgs.dryRun_read (parseArgs_ok read)) fun reads => reads
  | inputMouseClick =>
    cases indexed
    obtain ⟨p, read, rest⟩ := Collect.bind_ok accepted
    obtain ⟨button, -, ending⟩ := Collect.bind_ok rest
    cases ending
    exact guarded_forwardOrPreview (TextArgs.dryRun_read (parseArgs_ok read)) fun reads => reads
  | clickText =>
    cases indexed
    exact guarded_clickText accepted
  | a11yClick =>
    cases indexed
    exact guarded_a11yClick accepted
  | runBind =>
    cases indexed
    exact guarded_runBind accepted
  | snapshotRestore =>
    cases indexed
    exact guarded_snapshotRestore accepted (named rfl)
  | _ => cases indexed

def NamesInvalid (args : Json) : Prop :=
  ∃ name, args.param 0 "name" = some (.str name) ∧ validateName name ≠ .ok ()

theorem namesInvalid_iff {name : String} (given : args.param 0 "name" = some (.str name)) :
    NamesInvalid args ↔ validateName name ≠ .ok () := by
  constructor
  · rintro ⟨other, same, invalid⟩
    rw [given] at same
    cases same
    exact invalid
  · exact fun invalid => ⟨name, given, invalid⟩

/-- Saving and deleting always reach the daemon, which can only refuse the name. -/
theorem asks_unguarded {tool : Tool} (unguarded : tool = .snapshotSave ∨ tool = .snapshotDelete)
    (accepted : dispatchTool tool args = .ok dispatch) :
    (runDispatch id dispatch).Asks Harmless ↔ NamesInvalid args := by
  rcases unguarded with rfl | rfl
  all_goals
    obtain ⟨p, read, ending⟩ := Collect.bind_ok accepted
    cases ending
    have given := SnapshotNameArgs.name_read (parseArgs_ok read)
    rw [orEmpty_param] at given
    exact asks_forward.trans (namesInvalid_iff given).symm

theorem asks_restore_invalid (accepted : dispatchTool .snapshotRestore args = .ok dispatch)
    (invalid : NamesInvalid args) : (runDispatch id dispatch).Asks Harmless := by
  obtain ⟨p, read, ending⟩ := Collect.bind_ok accepted
  have given := TextArgs.text_read (parseArgs_ok read)
  rw [orEmpty_param] at given
  cases ending
  cases p.dryRun with
  | true => exact asks_previewSnapshotRestore _
  | false => exact asks_forward.mpr ((namesInvalid_iff given).mp invalid)

end Guarded

/-! ### Calls -/

/-- The call is refused by the profile, for its arguments, or by the daemon for a snapshot's name. -/
def Refused (profile : Profile) (tool : Tool) (args : Json) : Prop :=
  profile.allows tool.toDef.name tool.toDef.group = false ∨
    (∀ dispatch, Tools.dispatchTool tool args ≠ .ok dispatch) ∨
    (tool = .snapshotSave ∨ tool = .snapshotDelete ∨ tool = .snapshotRestore) ∧ NamesInvalid args

/-- The tool has a flag, and no array of arguments sets it to false by its position. -/
def StaysDry (tool : Tool) (args : Json) : Prop :=
  ∃ index, tool.dryRunIndex = some index ∧
    ∀ items, args = .arr items → items[index]? ≠ some (.bool false)

def Undeclared (args : Json) : Prop :=
  ∀ fields, args = .obj fields → fields.lookup "dry_run" ≠ some (.bool false)

theorem dry_iff {args : Json} (undeclared : Undeclared args) {index : Nat} {dry : Bool}
    (flag : (Tools.orEmpty args).dryRun index = .ok dry) :
    dry = true ↔ ∀ items, args = .arr items → items[index]? ≠ some (.bool false) := by
  have read : args.param index "dry_run" = some (.bool false) ↔ dry = false := by
    rw [← Tools.orEmpty_param]
    constructor
    · intro value
      rw [Json.dryRun_of_false value] at flag
      cases flag
      rfl
    · rintro rfl
      exact Json.dryRun_false flag
  rw [← Bool.not_eq_false, ← not_congr read]
  constructor
  · rintro unset items rfl
    exact unset
  · intro unset value
    cases args with
    | obj fields => exact undeclared fields rfl value
    | arr items => exact unset items rfl value
    | _ => cases value

theorem unguarded_of_index {tool : Tool} (mutating : tool.toDef.mutating = true)
    (indexed : tool.dryRunIndex = none) : tool = .snapshotSave ∨ tool = .snapshotDelete := by
  revert mutating indexed
  cases tool <;> decide

theorem asks_accepted {id : Json} {tool : Tool} {args : Json} {dispatch : Dispatch}
    (mutating : tool.toDef.mutating = true) (undeclared : Undeclared args)
    (accepted : Tools.dispatchTool tool args = .ok dispatch) :
    (runDispatch id dispatch).Asks Harmless ↔
      (tool = .snapshotSave ∨ tool = .snapshotDelete ∨ tool = .snapshotRestore) ∧ NamesInvalid args ∨
        StaysDry tool args := by
  cases indexed : tool.dryRunIndex with
  | none =>
    have unguarded := unguarded_of_index mutating indexed
    have wet : ¬StaysDry tool args := by
      rintro ⟨index, has, -⟩
      rw [indexed] at has
      cases has
    rw [asks_unguarded unguarded accepted, or_iff_left wet]
    exact ⟨fun invalid => ⟨unguarded.elim .inl fun same => .inr (.inl same), invalid⟩, And.right⟩
  | some index =>
    have dry : StaysDry tool args ↔ ∀ items, args = .arr items → items[index]? ≠ some (.bool false) := by
      unfold StaysDry
      rw [indexed]
      simp
    by_cases restore : tool = .snapshotRestore ∧ NamesInvalid args
    · obtain ⟨rfl, invalid⟩ := restore
      exact iff_of_true (asks_restore_invalid accepted invalid) (.inl ⟨.inr (.inr rfl), invalid⟩)
    · have named : tool = .snapshotRestore → ∀ name, args.param 0 "name" = some (.str name) →
          validateName name = .ok () := fun same name given =>
        by_contra fun invalid => restore ⟨same, name, given, invalid⟩
      obtain ⟨flag, read, guarded⟩ : Guarded id index args dispatch :=
        guarded_dispatchTool indexed accepted named
      have valid : ¬((tool = .snapshotSave ∨ tool = .snapshotDelete ∨ tool = .snapshotRestore) ∧
          NamesInvalid args) := by
        rintro ⟨rfl | rfl | rfl, invalid⟩
        · cases indexed
        · cases indexed
        · exact restore ⟨rfl, invalid⟩
      rw [guarded, or_iff_right valid, dry, dry_iff undeclared read]

/-- Without `dry_run: false` a call of a mutating tool changes nothing exactly when it is refused,
or when the tool has the flag and no array sets it. -/
theorem Server.dry_run_harmless {server : Server} {request : JsonRpcRequest} {tool : Tool}
    {args : Json} (calls : CallToolParams.ofRequest request = .ok ⟨tool.toDef.name, args⟩)
    (mutating : tool.toDef.mutating = true) (undeclared : Undeclared args) :
    (server.handleCallTool request).Asks Harmless ↔
      Refused server.profile tool args ∨ StaysDry tool args := by
  unfold handleCallTool
  rw [calls]
  show (server.callTool (responseId request) ⟨tool.toDef.name, args⟩).Asks Harmless ↔ _
  unfold callTool Tools.dispatch Refused
  rw [Tool.named_name]
  cases allowed : server.profile.allows tool.toDef.name tool.toDef.group with
  | false =>
    simp [allowed]
  | true =>
    cases accepted : Tools.dispatchTool tool args with
    | error e =>
      simp [allowed, accepted]
    | ok dispatch =>
      have calling : (runDispatch (responseId request) dispatch).Asks Harmless ↔ _ :=
        asks_accepted mutating undeclared accepted
      simp [allowed, accepted, calling]

theorem Server.kill_active_harmless :
    ((⟨.unrestricted, "0.2"⟩ : Server).handleCallTool (toolsCall "kill_active" .null)).Asks
      Harmless := by
  have calls : CallToolParams.ofRequest (toolsCall "kill_active" .null) =
      .ok ⟨Tool.killActive.toDef.name, .null⟩ := rfl
  exact (dry_run_harmless calls rfl nofun).mpr (.inr ⟨0, rfl, nofun⟩)

/-- Saving a snapshot changes files although `dry_run` is absent. -/
theorem Server.snapshot_save_changes :
    Tool.snapshotSave.toDef.mutating = true ∧ Undeclared (.obj [("name", .str "x")]) ∧
      ¬((⟨.defaultSafe, "0.2"⟩ : Server).handleCallTool
        (toolsCall "snapshot_save" (.obj [("name", .str "x")]))).Asks Harmless := by
  refine ⟨rfl, ?_, ?_⟩
  · rintro fields ⟨⟩
    exact nofun
  · intro quiet
    have saves : Harmless (.daemon (.snapshotSave "x")) := quiet.1
    exact Daemon.harmless_iff.mp saves (by decide)

end Mcp

end HyprPilot
