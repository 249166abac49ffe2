import HyprPilot.Daemon.Protocol
import HyprPilot.Wire.Form

/-!
# Requests as JSON

The form of a request envelope: the number, the method and, for the methods that have some, the
parameters by name. Selectors and workspaces are objects of a kind and a value.
-/

namespace HyprPilot
open JsonText (Fits)

/-! ### Selectors and workspaces -/

namespace WindowSelector

def parts : WindowSelector → String × Option Json
  | .address a => ("address", some (Form.string.write a))
  | .pid p => ("pid", some (Form.i32.write p))
  | .className c => ("class", some (Form.string.write c))
  | .title t => ("title", some (Form.string.write t))
  | .tag t => ("tag", some (Form.string.write t))
  | .active => ("active", none)

def variants : List (String × Variant WindowSelector) :=
  [("address", .content Form.string .address),
    ("pid", .content Form.i32 .pid),
    ("class", .content Form.string .className),
    ("title", .content Form.string .title),
    ("tag", .content Form.string .tag),
    ("active", .unit .active)]

def Valid : WindowSelector → Prop
  | .pid p => Machine.InI32 p
  | _ => True

theorem fits_parts (sel : WindowSelector) (valid : sel.Valid) :
    ∀ v ∈ sel.parts.2, Fits NoFloat 0 v := by
  intro v content
  cases sel <;> cases content
  case pid => exact Form.i32.fits valid
  all_goals exact .str _

theorem parts_listed (sel : WindowSelector) (valid : sel.Valid) :
    (variants.lookup sel.parts.1).bind (fun v => v.readContent sel.parts.2) = some sel := by
  cases sel <;> simp only [parts, variants, List.lookup_cons, String.reduceBEq, beq_self_eq_true, Option.bind_some]
  case active => rfl
  all_goals exact Variant.content_back valid

theorem variants_sound : ∀ entry ∈ variants, entry.2.Sound Valid := by
  simp only [variants, List.forall_mem_cons]
  refine ⟨?_, ?_, ?_, ?_, ?_, ?_, by simp⟩
  case refine_6 => exact Variant.unit_sound trivial
  all_goals exact Variant.content_sound fun _ valid => valid

def form : Form WindowSelector :=
  .tagged "kind" "value" parts variants Valid 0 (by decide) fits_parts parts_listed variants_sound

end WindowSelector

namespace WorkspaceRef

def parts : WorkspaceRef → String × Option Json
  | .id n => ("id", some (Form.i32.write n))
  | .name n => ("name", some (Form.string.write n))
  | .relative n => ("relative", some (Form.i32.write n))
  | .previous => ("previous", none)
  | .next => ("next", none)
  | .empty => ("empty", none)
  | .special n => ("special", some (Form.string.write n))

def variants : List (String × Variant WorkspaceRef) :=
  [("id", .content Form.i32 .id),
    ("name", .content Form.string .name),
    ("relative", .content Form.i32 .relative),
    ("previous", .unit .previous),
    ("next", .unit .next),
    ("empty", .unit .empty),
    ("special", .content Form.string .special)]

def Valid : WorkspaceRef → Prop
  | .id n | .relative n => Machine.InI32 n
  | _ => True

theorem fits_parts (ws : WorkspaceRef) (valid : ws.Valid) : ∀ v ∈ ws.parts.2, Fits NoFloat 0 v := by
  intro v content
  cases ws <;> cases content
  case id => exact Form.i32.fits valid
  case relative => exact Form.i32.fits valid
  all_goals exact .str _

theorem parts_listed (ws : WorkspaceRef) (valid : ws.Valid) :
    (variants.lookup ws.parts.1).bind (fun v => v.readContent ws.parts.2) = some ws := by
  cases ws <;> simp only [parts, variants, List.lookup_cons, String.reduceBEq, beq_self_eq_true, Option.bind_some]
  all_goals first | rfl | exact Variant.content_back valid

theorem variants_sound : ∀ entry ∈ variants, entry.2.Sound Valid := by
  simp only [variants, List.forall_mem_cons]
  refine ⟨?_, ?_, ?_, ?_, ?_, ?_, ?_, by simp⟩
  all_goals first
    | exact Variant.unit_sound trivial
    | exact Variant.content_sound fun _ valid => valid

def form : Form WorkspaceRef :=
  .tagged "kind" "value" parts variants Valid 0 (by decide) fits_parts parts_listed variants_sound

end WorkspaceRef

/-! ### Enumerations and combos -/

namespace Direction

def name : Direction → String
  | .left => "left"
  | .right => "right"
  | .up => "up"
  | .down => "down"

def table : List (String × Direction) :=
  [("left", .left), ("right", .right), ("up", .up), ("down", .down)]

def form : Form Direction :=
  .named name table fun d => by cases d <;> simp [name, table, List.lookup_cons]

end Direction

namespace FullscreenMode

def name : FullscreenMode → String
  | .maximize => "maximize"
  | .fullscreen => "fullscreen"

def table : List (String × FullscreenMode) := [("maximize", .maximize), ("fullscreen", .fullscreen)]

def form : Form FullscreenMode :=
  .named name table fun mode => by cases mode <;> simp [name, table, List.lookup_cons]

end FullscreenMode

namespace MouseButton

def name : MouseButton → String
  | .left => "left"
  | .right => "right"
  | .middle => "middle"
  | .x1 => "x1"
  | .x2 => "x2"

def table : List (String × MouseButton) :=
  [("left", .left), ("right", .right), ("middle", .middle), ("x1", .x1), ("x2", .x2)]

def form : Form MouseButton :=
  .named name table fun button => by cases button <;> simp [name, table, List.lookup_cons]

end MouseButton

namespace Modifier

def name : Modifier → String
  | .ctrl => "ctrl"
  | .shift => "shift"
  | .alt => "alt"
  | .super => "super"

def table : List (String × Modifier) :=
  [("ctrl", .ctrl), ("shift", .shift), ("alt", .alt), ("super", .super)]

def form : Form Modifier :=
  .named name table fun m => by cases m <;> simp [name, table, List.lookup_cons]

end Modifier

namespace KeyCombo

def write (combo : KeyCombo) : Json :=
  .obj [("modifiers", (Form.list Modifier.form).write combo.modifiers.iter),
    ("key", Form.string.write combo.key)]

def read : Json → Option KeyCombo :=
  struct 2 fun v => do
    let modifiers ← member 0 "modifiers" (Form.list Modifier.form).read v
    let key ← member 1 "key" Form.string.read v
    return ⟨modifiers.toFinset, key⟩

theorem toFinset_iter (s : ModifierSet) : s.iter.toFinset = s := by
  ext m
  cases m <;> simp [ModifierSet.iter]

def form : Form KeyCombo where
  write := write
  read := read
  Valid _ := True
  levels := 2
  fits {combo} _ := by
    refine .obj (by simp) fun f inside => ?_
    simp only [List.mem_cons, List.not_mem_nil, or_false] at inside
    rcases inside with rfl | rfl
    · exact (Form.list Modifier.form).fits fun _ _ => trivial
    · exact .str _
  back {combo} _ := by
    have modifiers := (Form.list Modifier.form).back (a := combo.modifiers.iter) fun _ _ => trivial
    simp [write, read, struct, member, field, once, modifiers, toFinset_iter]
  sound _ := trivial

end KeyCombo

/-! ### Requests -/

abbrev optI32 : Form (Option Int) := .option Form.i32 fun _ => by simp [Form.i32]

abbrev optU64 : Form (Option Nat) := .option Form.u64 fun _ => by simp [Form.u64]

abbrev optString : Form (Option String) := .option Form.string fun _ => by simp [Form.string]

namespace Request

def parts : Request → String × Option Json
  | .ping => ("ping", none)
  | .shutdown => ("shutdown", none)
  | .queryClients => ("query_clients", none)
  | .queryWorkspaces => ("query_workspaces", none)
  | .queryMonitors => ("query_monitors", none)
  | .queryActiveWindow => ("query_active_window", none)
  | .queryActiveWorkspace => ("query_active_workspace", none)
  | .queryVersion => ("query_version", none)
  | .queryCursorPos => ("query_cursor_pos", none)
  | .queryBinds => ("query_binds", none)
  | .dispatchKillActive => ("dispatch_kill_active", none)
  | .dispatchCloseWindow selector =>
    ("dispatch_close_window", writeField "selector" WindowSelector.form selector)
  | .dispatchFocusWindow selector =>
    ("dispatch_focus_window", writeField "selector" WindowSelector.form selector)
  | .dispatchCycleNext => ("dispatch_cycle_next", none)
  | .dispatchCyclePrev => ("dispatch_cycle_prev", none)
  | .dispatchSwitchWorkspace workspace =>
    ("dispatch_switch_workspace", writeField "workspace" WorkspaceRef.form workspace)
  | .dispatchMoveToWorkspace workspace =>
    ("dispatch_move_to_workspace", writeField "workspace" WorkspaceRef.form workspace)
  | .dispatchMoveToWorkspaceSilent workspace =>
    ("dispatch_move_to_workspace_silent", writeField "workspace" WorkspaceRef.form workspace)
  | .dispatchToggleFloating => ("dispatch_toggle_floating", none)
  | .dispatchFullscreen mode =>
    ("dispatch_fullscreen", writeField "mode" FullscreenMode.form mode)
  | .dispatchCenterActive => ("dispatch_center_active", none)
  | .dispatchPinActive => ("dispatch_pin_active", none)
  | .dispatchMoveActive direction =>
    ("dispatch_move_active", writeField "direction" Direction.form direction)
  | .dispatchResizeActive dx dy =>
    ("dispatch_resize_active", some (.obj [("dx", Form.i32.write dx), ("dy", Form.i32.write dy)]))
  | .dispatchSwapActive direction =>
    ("dispatch_swap_active", writeField "direction" Direction.form direction)
  | .dispatchExec command => ("dispatch_exec", writeField "command" Form.string command)
  | .dispatchFocusMonitor name => ("dispatch_focus_monitor", writeField "name" Form.string name)
  | .dispatchMoveWorkspaceToMonitor monitor =>
    ("dispatch_move_workspace_to_monitor", writeField "monitor" Form.string monitor)
  | .undo => ("undo", none)
  | .undoList => ("undo_list", none)
  | .snapshotSave name => ("snapshot_save", writeField "name" Form.string name)
  | .snapshotList => ("snapshot_list", none)
  | .snapshotDiff name => ("snapshot_diff", writeField "name" Form.string name)
  | .snapshotPreview name => ("snapshot_preview", writeField "name" Form.string name)
  | .snapshotRestore name => ("snapshot_restore", writeField "name" Form.string name)
  | .snapshotDelete name => ("snapshot_delete", writeField "name" Form.string name)
  | .rulesList => ("rules_list", none)
  | .rulesValidate => ("rules_validate", none)
  | .rulesPath => ("rules_path", none)
  | .inputType text => ("input_type", writeField "text" Form.string text)
  | .inputKeys combo => ("input_keys", writeField "combo" KeyCombo.form combo)
  | .inputShortcut combo selector =>
    ("input_shortcut", some (.obj [("combo", KeyCombo.form.write combo),
      ("selector", WindowSelector.form.write selector)]))
  | .inputMouseMove x y absolute =>
    ("input_mouse_move", some (.obj [("x", Form.i32.write x), ("y", Form.i32.write y),
      ("absolute", Form.bool.write absolute)]))
  | .inputMouseClick button => ("input_mouse_click", writeField "button" MouseButton.form button)
  | .a11yTree pid maxNodes =>
    ("a11y_tree", some (.obj [("pid", optI32.write pid), ("max_nodes", optU64.write maxNodes)]))
  | .a11yFind pid query role maxNodes =>
    ("a11y_find", some (.obj [("pid", optI32.write pid), ("query", Form.string.write query),
      ("role", optString.write role), ("max_nodes", optU64.write maxNodes)]))
  | .runBind combo submap dryRun =>
    ("run_bind", some (.obj [("combo", KeyCombo.form.write combo), ("submap", optString.write submap),
      ("dry_run", Form.bool.write dryRun)]))

def variants : List (String × Variant Request) :=
  [("ping", .unit .ping),
    ("shutdown", .unit .shutdown),
    ("query_clients", .unit .queryClients),
    ("query_workspaces", .unit .queryWorkspaces),
    ("query_monitors", .unit .queryMonitors),
    ("query_active_window", .unit .queryActiveWindow),
    ("query_active_workspace", .unit .queryActiveWorkspace),
    ("query_version", .unit .queryVersion),
    ("query_cursor_pos", .unit .queryCursorPos),
    ("query_binds", .unit .queryBinds),
    ("dispatch_kill_active", .unit .dispatchKillActive),
    ("dispatch_close_window", .field "selector" WindowSelector.form .dispatchCloseWindow),
    ("dispatch_focus_window", .field "selector" WindowSelector.form .dispatchFocusWindow),
    ("dispatch_cycle_next", .unit .dispatchCycleNext),
    ("dispatch_cycle_prev", .unit .dispatchCyclePrev),
    ("dispatch_switch_workspace", .field "workspace" WorkspaceRef.form .dispatchSwitchWorkspace),
    ("dispatch_move_to_workspace", .field "workspace" WorkspaceRef.form .dispatchMoveToWorkspace),
    ("dispatch_move_to_workspace_silent",
      .field "workspace" WorkspaceRef.form .dispatchMoveToWorkspaceSilent),
    ("dispatch_toggle_floating", .unit .dispatchToggleFloating),
    ("dispatch_fullscreen", .field "mode" FullscreenMode.form .dispatchFullscreen),
    ("dispatch_center_active", .unit .dispatchCenterActive),
    ("dispatch_pin_active", .unit .dispatchPinActive),
    ("dispatch_move_active", .field "direction" Direction.form .dispatchMoveActive),
    ("dispatch_resize_active", .data fun v => do
      let dx ← field "dx" Form.i32.read v
      let dy ← field "dy" Form.i32.read v
      return .dispatchResizeActive dx dy),
    ("dispatch_swap_active", .field "direction" Direction.form .dispatchSwapActive),
    ("dispatch_exec", .field "command" Form.string .dispatchExec),
    ("dispatch_focus_monitor", .field "name" Form.string .dispatchFocusMonitor),
    ("dispatch_move_workspace_to_monitor", .field "monitor" Form.string .dispatchMoveWorkspaceToMonitor),
    ("undo", .unit .undo),
    ("undo_list", .unit .undoList),
    ("snapshot_save", .field "name" Form.string .snapshotSave),
    ("snapshot_list", .unit .snapshotList),
    ("snapshot_diff", .field "name" Form.string .snapshotDiff),
    ("snapshot_preview", .field "name" Form.string .snapshotPreview),
    ("snapshot_restore", .field "name" Form.string .snapshotRestore),
    ("snapshot_delete", .field "name" Form.string .snapshotDelete),
    ("rules_list", .unit .rulesList),
    ("rules_validate", .unit .rulesValidate),
    ("rules_path", .unit .rulesPath),
    ("input_type", .field "text" Form.string .inputType),
    ("input_keys", .field "combo" KeyCombo.form .inputKeys),
    ("input_shortcut", .data fun v => do
      let combo ← field "combo" KeyCombo.form.read v
      let selector ← field "selector" WindowSelector.form.read v
      return .inputShortcut combo selector),
    ("input_mouse_move", .data fun v => do
      let x ← field "x" Form.i32.read v
      let y ← field "y" Form.i32.read v
      let absolute ← field "absolute" Form.bool.read v
      return .inputMouseMove x y absolute),
    ("input_mouse_click", .field "button" MouseButton.form .inputMouseClick),
    ("a11y_tree", .data fun v => do
      let pid ← optionField "pid" Form.i32.read v
      let maxNodes ← optionField "max_nodes" Form.u64.read v
      return .a11yTree pid maxNodes),
    ("a11y_find", .data fun v => do
      let pid ← optionField "pid" Form.i32.read v
      let query ← field "query" Form.string.read v
      let role ← optionField "role" Form.string.read v
      let maxNodes ← optionField "max_nodes" Form.u64.read v
      return .a11yFind pid query role maxNodes),
    ("run_bind", .data fun v => do
      let combo ← field "combo" KeyCombo.form.read v
      let submap ← optionField "submap" Form.string.read v
      let dryRun ← field "dry_run" Form.bool.read v
      return .runBind combo submap dryRun)]

/-- The numbers of a request are of their types. -/
def Valid : Request → Prop
  | .dispatchCloseWindow sel | .dispatchFocusWindow sel | .inputShortcut _ sel => sel.Valid
  | .dispatchSwitchWorkspace ws | .dispatchMoveToWorkspace ws | .dispatchMoveToWorkspaceSilent ws =>
    ws.Valid
  | .dispatchResizeActive dx dy => Machine.InI32 dx ∧ Machine.InI32 dy
  | .inputMouseMove x y _ => Machine.InI32 x ∧ Machine.InI32 y
  | .a11yTree pid maxNodes => optI32.Valid pid ∧ optU64.Valid maxNodes
  | .a11yFind pid _ _ maxNodes => optI32.Valid pid ∧ optU64.Valid maxNodes
  | _ => True

/-- The table has the requests in the order of their declaration. -/
theorem variant_at (request : Request) (valid : request.Valid) :
    ∃ variant, variants[request.ctorIdx]? = some (request.parts.1, variant) ∧
      variant.readContent request.parts.2 = some request := by
  cases request
  all_goals refine ⟨_, rfl, ?_⟩
  case dispatchResizeActive dx dy =>
    obtain ⟨first, second⟩ := valid
    have dx : Form.i32.Valid dx := first
    have dy : Form.i32.Valid dy := second
    simp [parts, Variant.readContent, once, field_back dx, field_back dy]
  case inputShortcut combo sel =>
    have combo : KeyCombo.form.Valid combo := trivial
    have sel : WindowSelector.form.Valid sel := valid
    simp [parts, Variant.readContent, once, field_back combo, field_back sel]
  case inputMouseMove x y absolute =>
    obtain ⟨first, second⟩ := valid
    have x : Form.i32.Valid x := first
    have y : Form.i32.Valid y := second
    have absolute : Form.bool.Valid absolute := trivial
    simp [parts, Variant.readContent, once, field_back x, field_back y, field_back absolute]
  case a11yTree pid maxNodes =>
    obtain ⟨first, second⟩ := valid
    have pid : optI32.Valid pid := first
    have maxNodes : optU64.Valid maxNodes := second
    simp [parts, Variant.readContent, once, optionField_back pid, optionField_back maxNodes]
  case a11yFind pid query role maxNodes =>
    obtain ⟨first, second⟩ := valid
    have pid : optI32.Valid pid := first
    have query : Form.string.Valid query := trivial
    have role : optString.Valid role := fun _ _ => trivial
    have maxNodes : optU64.Valid maxNodes := second
    simp [parts, Variant.readContent, once, optionField_back pid, field_back query,
      optionField_back role, optionField_back maxNodes]
  case runBind combo submap dryRun =>
    have combo : KeyCombo.form.Valid combo := trivial
    have submap : optString.Valid submap := fun _ _ => trivial
    have dryRun : Form.bool.Valid dryRun := trivial
    simp [parts, Variant.readContent, once, field_back combo, optionField_back submap, field_back dryRun]
  all_goals first | exact Variant.field_back valid | rfl

theorem names_nodup : (variants.map Prod.fst).Nodup := by decide

theorem parts_listed (request : Request) (valid : request.Valid) :
    (variants.lookup request.parts.1).bind (fun v => v.readContent request.parts.2) = some request := by
  obtain ⟨variant, listed, read⟩ := request.variant_at valid
  rw [lookup_of_mem names_nodup (List.mem_of_getElem? listed)]
  exact read

theorem fits_parts (request : Request) (valid : request.Valid) :
    ∀ v ∈ request.parts.2, Fits NoFloat 3 v := by
  cases request
  case dispatchResizeActive dx dy =>
    have dx := Form.i32.fits_above valid.1 (Nat.zero_le 2)
    have dy := Form.i32.fits_above valid.2 (Nat.zero_le 2)
    exact fits_fields (by simp) (by simpa using ⟨dx, dy⟩)
  case inputShortcut combo sel =>
    have combo := KeyCombo.form.fits_above (a := combo) trivial (Nat.le_refl 2)
    have sel := WindowSelector.form.fits_above valid (by decide : 1 ≤ 2)
    exact fits_fields (by simp) (by simpa using ⟨combo, sel⟩)
  case inputMouseMove x y absolute =>
    have x := Form.i32.fits_above valid.1 (Nat.zero_le 2)
    have y := Form.i32.fits_above valid.2 (Nat.zero_le 2)
    have absolute := Form.bool.fits_above (a := absolute) trivial (Nat.zero_le 2)
    exact fits_fields (by simp) (by simpa using ⟨x, y, absolute⟩)
  case a11yTree pid maxNodes =>
    have pid := optI32.fits_above valid.1 (Nat.zero_le 2)
    have maxNodes := optU64.fits_above valid.2 (Nat.zero_le 2)
    exact fits_fields (by simp) (by simpa using ⟨pid, maxNodes⟩)
  case a11yFind pid query role maxNodes =>
    have pid := optI32.fits_above valid.1 (Nat.zero_le 2)
    have query := Form.string.fits_above (a := query) trivial (Nat.zero_le 2)
    have role := optString.fits_above (a := role) (fun _ _ => trivial) (Nat.zero_le 2)
    have maxNodes := optU64.fits_above valid.2 (Nat.zero_le 2)
    exact fits_fields (by simp) (by simpa using ⟨pid, query, role, maxNodes⟩)
  case runBind combo submap dryRun =>
    have combo := KeyCombo.form.fits_above (a := combo) trivial (Nat.le_refl 2)
    have submap := optString.fits_above (a := submap) (fun _ _ => trivial) (Nat.zero_le 2)
    have dryRun := Form.bool.fits_above (a := dryRun) trivial (Nat.zero_le 2)
    exact fits_fields (by simp) (by simpa using ⟨combo, submap, dryRun⟩)
  all_goals first | exact fits_writeField valid (by decide) | exact fun v none => by cases none

theorem variants_sound : ∀ entry ∈ variants, entry.2.Sound Valid := by
  simp only [variants, List.forall_mem_cons]
  and_intros
  all_goals try exact Variant.unit_sound trivial
  all_goals try exact Variant.field_sound fun _ valid => valid
  · refine Variant.data_sound fun {v r} read => ?_
    obtain ⟨dx, first, read⟩ := Option.bind_eq_some_iff.mp read
    obtain ⟨dy, second, read⟩ := Option.bind_eq_some_iff.mp read
    cases read
    exact ⟨field_sound first, field_sound second⟩
  · refine Variant.data_sound fun {v r} read => ?_
    obtain ⟨combo, -, read⟩ := Option.bind_eq_some_iff.mp read
    obtain ⟨sel, second, read⟩ := Option.bind_eq_some_iff.mp read
    cases read
    exact field_sound second
  · refine Variant.data_sound fun {v r} read => ?_
    obtain ⟨x, first, read⟩ := Option.bind_eq_some_iff.mp read
    obtain ⟨y, second, read⟩ := Option.bind_eq_some_iff.mp read
    obtain ⟨absolute, -, read⟩ := Option.bind_eq_some_iff.mp read
    cases read
    exact ⟨field_sound first, field_sound second⟩
  · refine Variant.data_sound fun {v r} read => ?_
    obtain ⟨pid, first, read⟩ := Option.bind_eq_some_iff.mp read
    obtain ⟨maxNodes, second, read⟩ := Option.bind_eq_some_iff.mp read
    cases read
    exact ⟨optionField_sound first, optionField_sound second⟩
  · refine Variant.data_sound fun {v r} read => ?_
    obtain ⟨pid, first, read⟩ := Option.bind_eq_some_iff.mp read
    obtain ⟨query, -, read⟩ := Option.bind_eq_some_iff.mp read
    obtain ⟨role, -, read⟩ := Option.bind_eq_some_iff.mp read
    obtain ⟨maxNodes, second, read⟩ := Option.bind_eq_some_iff.mp read
    cases read
    exact ⟨optionField_sound first, optionField_sound second⟩
  · refine Variant.data_sound fun {v r} read => ?_
    obtain ⟨combo, -, read⟩ := Option.bind_eq_some_iff.mp read
    obtain ⟨submap, -, read⟩ := Option.bind_eq_some_iff.mp read
    obtain ⟨dryRun, -, read⟩ := Option.bind_eq_some_iff.mp read
    cases read
    trivial
  · simp

end Request

structure RequestEnvelope where
  id : Nat
  request : Request
  deriving DecidableEq

namespace RequestEnvelope

def write (env : RequestEnvelope) : Json :=
  .obj ([("id", Form.u64.write env.id)] ++ writeTagged "method" "params" env.request.parts)

def read : Json → Option RequestEnvelope
  | .obj fields => do
    let id ← field "id" Form.u64.read (.obj fields)
    let request ← readTagged "method" "params" Request.variants fields
    return ⟨id, request⟩
  | _ => none

theorem once_id (env : RequestEnvelope) : once "id" ([("id", Form.u64.write env.id)] ++
    writeTagged "method" "params" env.request.parts) = some (some (Form.u64.write env.id)) := by
  generalize env.request.parts = parts
  obtain ⟨name, v⟩ := parts
  cases v <;> simp [once, writeTagged]

def form : Form RequestEnvelope where
  write := write
  read := read
  Valid env := Form.u64.Valid env.id ∧ env.request.Valid
  levels := 4
  fits {env} valid := by
    have number := Form.u64.fits_above valid.1 (Nat.zero_le 3)
    exact fits_tagged (by decide) (by simp) (by simp) (by simpa using number)
      (env.request.fits_parts valid.2)
  back {env} valid := by
    have number := field_back valid.1 env.once_id
    have differ : "params" ≠ "method" := by decide
    have fresh : ∀ f ∈ [("id", Form.u64.write env.id)], f.1 ≠ "method" ∧ f.1 ≠ "params" := by simp
    have request := readTagged_write differ fresh (env.request.parts_listed valid.2)
    rw [write, read, request, number]
    rfl
  sound {v env} found := by
    unfold read at found
    split at found
    · obtain ⟨id, first, found⟩ := Option.bind_eq_some_iff.mp found
      obtain ⟨request, second, found⟩ := Option.bind_eq_some_iff.mp found
      cases found
      exact ⟨field_sound first, readTagged_sound Request.variants_sound second⟩
    · cases found

end RequestEnvelope

end HyprPilot
