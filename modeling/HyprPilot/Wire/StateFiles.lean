import HyprPilot.Core.Snapshot
import HyprPilot.Daemon.Undo
import HyprPilot.Wire.Framing

/-!
# The texts of the state files

Snapshots and the undo stack as indented JSON files. A file is read back as what was written, and one
that is cut off anywhere is not read at all.
-/

namespace HyprPilot
open JsonText (Fits IsFloat IsContainer)

/-! ### Snapshots -/

namespace MonitorSnapshot

def write (m : MonitorSnapshot) : Json :=
  .obj [("name", Form.string.write m.name), ("active_workspace_id", Form.i32.write m.activeWorkspaceId)]

def read : Json → Option MonitorSnapshot :=
  struct 2 fun v => do
    let name ← member 0 "name" Form.string.read v
    let activeWorkspaceId ← member 1 "active_workspace_id" Form.i32.read v
    return ⟨name, activeWorkspaceId⟩

def form : Form MonitorSnapshot where
  write := write
  read := read
  Valid m := Machine.InI32 m.activeWorkspaceId
  levels := 1
  fits {m} valid := by
    have id := Form.i32.fits (a := m.activeWorkspaceId) valid
    exact .obj (by simp) (by simpa using ⟨.str m.name, id⟩)
  back {m} valid := by
    have id : Form.i32.read (Form.i32.write m.activeWorkspaceId) = some m.activeWorkspaceId :=
      Form.i32.back valid
    simp [write, read, struct, member, field, once, id]
  sound {v m} found := by
    obtain ⟨name, -, found⟩ := Option.bind_eq_some_iff.mp (struct_sound found)
    obtain ⟨id, second, found⟩ := Option.bind_eq_some_iff.mp found
    cases found
    exact member_sound second

end MonitorSnapshot

namespace WorkspaceSnapshot

def write (w : WorkspaceSnapshot) : Json :=
  .obj [("id", Form.i32.write w.id), ("name", Form.string.write w.name),
    ("monitor", Form.string.write w.monitor), ("windows", Form.u32.write w.windows)]

def read : Json → Option WorkspaceSnapshot :=
  struct 4 fun v => do
    let id ← member 0 "id" Form.i32.read v
    let name ← member 1 "name" Form.string.read v
    let monitor ← member 2 "monitor" Form.string.read v
    let windows ← member 3 "windows" Form.u32.read v
    return ⟨id, name, monitor, windows⟩

def form : Form WorkspaceSnapshot where
  write := write
  read := read
  Valid w := Form.i32.Valid w.id ∧ Form.u32.Valid w.windows
  levels := 1
  fits {w} valid := by
    have id := Form.i32.fits valid.1
    have windows := Form.u32.fits valid.2
    exact .obj (by simp) (by simpa using ⟨id, .str w.name, .str w.monitor, windows⟩)
  back {w} valid := by
    simp [write, read, struct, member, field, once, Form.i32.back valid.1, Form.u32.back valid.2]
  sound {v w} found := by
    obtain ⟨id, first, found⟩ := Option.bind_eq_some_iff.mp (struct_sound found)
    obtain ⟨name, -, found⟩ := Option.bind_eq_some_iff.mp found
    obtain ⟨monitor, -, found⟩ := Option.bind_eq_some_iff.mp found
    obtain ⟨windows, last, found⟩ := Option.bind_eq_some_iff.mp found
    cases found
    exact ⟨member_sound first, member_sound last⟩

end WorkspaceSnapshot

namespace WindowSnapshot

def write (w : WindowSnapshot) : Json :=
  .obj [("address", Form.string.write w.address), ("pid", Form.i32.write w.pid),
    ("initial_class", Form.string.write w.initialClass),
    ("initial_title", Form.string.write w.initialTitle), ("class", Form.string.write w.className),
    ("title", Form.string.write w.title), ("workspace_id", Form.i32.write w.workspaceId),
    ("monitor_name", Form.string.write w.monitorName), ("at", Form.i32.pair.write w.at_),
    ("size", Form.i32.pair.write w.size), ("floating", Form.bool.write w.floating),
    ("fullscreen", Form.i32.write w.fullscreen), ("pinned", Form.bool.write w.pinned)]

def read : Json → Option WindowSnapshot :=
  struct 13 fun v => do
    let address ← member 0 "address" Form.string.read v
    let pid ← member 1 "pid" Form.i32.read v
    let initialClass ← member 2 "initial_class" Form.string.read v
    let initialTitle ← member 3 "initial_title" Form.string.read v
    let className ← member 4 "class" Form.string.read v
    let title ← member 5 "title" Form.string.read v
    let workspaceId ← member 6 "workspace_id" Form.i32.read v
    let monitorName ← member 7 "monitor_name" Form.string.read v
    let at_ ← member 8 "at" Form.i32.pair.read v
    let size ← member 9 "size" Form.i32.pair.read v
    let floating ← member 10 "floating" Form.bool.read v
    let fullscreen ← member 11 "fullscreen" Form.i32.read v
    let pinned ← member 12 "pinned" Form.bool.read v
    return ⟨address, pid, initialClass, initialTitle, className, title, workspaceId, monitorName, at_,
      size, floating, fullscreen, pinned⟩

/-- The numbers have 32 bits. -/
structure Valid (w : WindowSnapshot) : Prop where
  pid : Form.i32.Valid w.pid
  workspaceId : Form.i32.Valid w.workspaceId
  at_ : Form.i32.pair.Valid w.at_
  size : Form.i32.pair.Valid w.size
  fullscreen : Form.i32.Valid w.fullscreen

def form : Form WindowSnapshot where
  write := write
  read := read
  Valid := Valid
  levels := 2
  fits {w} valid := by
    have pid := Form.i32.fits_above valid.pid (Nat.zero_le 1)
    have workspace := Form.i32.fits_above valid.workspaceId (Nat.zero_le 1)
    have corner := Form.i32.pair.fits valid.at_
    have size := Form.i32.pair.fits valid.size
    have fullscreen := Form.i32.fits_above valid.fullscreen (Nat.zero_le 1)
    exact .obj (by simp) (by simpa using ⟨.str w.address, pid, .str w.initialClass,
      .str w.initialTitle, .str w.className, .str w.title, workspace, .str w.monitorName, corner, size,
      .bool w.floating, fullscreen, .bool w.pinned⟩)
  back {w} valid := by
    simp [write, read, struct, member, field, once, Form.i32.back valid.pid,
      Form.i32.back valid.workspaceId, Form.i32.pair.back valid.at_, Form.i32.pair.back valid.size,
      Form.i32.back valid.fullscreen]
  sound {v w} found := by
    obtain ⟨address, -, found⟩ := Option.bind_eq_some_iff.mp (struct_sound found)
    obtain ⟨pid, second, found⟩ := Option.bind_eq_some_iff.mp found
    obtain ⟨initialClass, -, found⟩ := Option.bind_eq_some_iff.mp found
    obtain ⟨initialTitle, -, found⟩ := Option.bind_eq_some_iff.mp found
    obtain ⟨className, -, found⟩ := Option.bind_eq_some_iff.mp found
    obtain ⟨title, -, found⟩ := Option.bind_eq_some_iff.mp found
    obtain ⟨workspaceId, workspace, found⟩ := Option.bind_eq_some_iff.mp found
    obtain ⟨monitorName, -, found⟩ := Option.bind_eq_some_iff.mp found
    obtain ⟨at_, corner, found⟩ := Option.bind_eq_some_iff.mp found
    obtain ⟨size, extent, found⟩ := Option.bind_eq_some_iff.mp found
    obtain ⟨floating, -, found⟩ := Option.bind_eq_some_iff.mp found
    obtain ⟨fullscreen, mode, found⟩ := Option.bind_eq_some_iff.mp found
    obtain ⟨pinned, -, found⟩ := Option.bind_eq_some_iff.mp found
    cases found
    exact ⟨member_sound second, member_sound workspace, member_sound corner, member_sound extent,
      member_sound mode⟩

end WindowSnapshot

namespace Snapshot

abbrev windowForm : Form (List WindowSnapshot) := .list WindowSnapshot.form

abbrev workspaceForm : Form (List WorkspaceSnapshot) := .list WorkspaceSnapshot.form

abbrev monitorForm : Form (List MonitorSnapshot) := .list MonitorSnapshot.form

def write (s : Snapshot) : Json :=
  .obj [("name", Form.string.write s.name), ("created_at_unix", Form.i64.write s.createdAtUnix),
    ("hyprland_version", Form.string.write s.hyprlandVersion), ("monitors", monitorForm.write s.monitors),
    ("workspaces", workspaceForm.write s.workspaces), ("windows", windowForm.write s.windows),
    ("active_window_address", optString.write s.activeWindowAddress),
    ("active_workspace_id", Form.i32.write s.activeWorkspaceId)]

def read : Json → Option Snapshot :=
  struct 8 fun v => do
    let name ← member 0 "name" Form.string.read v
    let createdAtUnix ← member 1 "created_at_unix" Form.i64.read v
    let hyprlandVersion ← member 2 "hyprland_version" Form.string.read v
    let monitors ← member 3 "monitors" monitorForm.read v
    let workspaces ← member 4 "workspaces" workspaceForm.read v
    let windows ← member 5 "windows" windowForm.read v
    let activeWindowAddress ← optionMember 6 "active_window_address" Form.string.read v
    let activeWorkspaceId ← member 7 "active_workspace_id" Form.i32.read v
    return ⟨name, createdAtUnix, hyprlandVersion, monitors, workspaces, windows, activeWindowAddress,
      activeWorkspaceId⟩

structure Valid (s : Snapshot) : Prop where
  createdAtUnix : Form.i64.Valid s.createdAtUnix
  monitors : monitorForm.Valid s.monitors
  workspaces : workspaceForm.Valid s.workspaces
  windows : windowForm.Valid s.windows
  activeWorkspaceId : Form.i32.Valid s.activeWorkspaceId

def form : Form Snapshot where
  write := write
  read := read
  Valid := Valid
  levels := 4
  fits {s} valid := by
    have created := Form.i64.fits_above valid.createdAtUnix (Nat.zero_le 3)
    have monitors := monitorForm.fits_above valid.monitors (by decide : 2 ≤ 3)
    have workspaces := workspaceForm.fits_above valid.workspaces (by decide : 2 ≤ 3)
    have windows := windowForm.fits_above valid.windows (Nat.le_refl 3)
    have address := optString.fits_above (a := s.activeWindowAddress) (fun _ _ => trivial) (Nat.zero_le 3)
    have active := Form.i32.fits_above valid.activeWorkspaceId (Nat.zero_le 3)
    exact .obj (by simp) (by simpa using ⟨.str s.name, created, .str s.hyprlandVersion, monitors,
      workspaces, windows, address, active⟩)
  back {s} valid := by
    have address : optString.Valid s.activeWindowAddress := fun _ _ => trivial
    simp [write, read, struct, member, optionMember, field, once, Form.i64.back valid.createdAtUnix,
      monitorForm.back valid.monitors, workspaceForm.back valid.workspaces,
      windowForm.back valid.windows, optionField_back address, Form.i32.back valid.activeWorkspaceId]
  sound {v s} found := by
    obtain ⟨name, -, found⟩ := Option.bind_eq_some_iff.mp (struct_sound found)
    obtain ⟨createdAtUnix, created, found⟩ := Option.bind_eq_some_iff.mp found
    obtain ⟨hyprlandVersion, -, found⟩ := Option.bind_eq_some_iff.mp found
    obtain ⟨monitors, third, found⟩ := Option.bind_eq_some_iff.mp found
    obtain ⟨workspaces, fourth, found⟩ := Option.bind_eq_some_iff.mp found
    obtain ⟨windows, fifth, found⟩ := Option.bind_eq_some_iff.mp found
    obtain ⟨activeWindowAddress, -, found⟩ := Option.bind_eq_some_iff.mp found
    obtain ⟨activeWorkspaceId, last, found⟩ := Option.bind_eq_some_iff.mp found
    cases found
    exact ⟨member_sound created, member_sound third, member_sound fourth, member_sound fifth,
      member_sound last⟩

end Snapshot

/-! ### The undo stack -/

namespace InverseAction

def write : InverseAction → Json
  | .spawn command => .obj [("Spawn", .obj [("command", Form.string.write command)])]
  | .moveToWorkspace selector workspace silent =>
    .obj [("MoveToWorkspace", .obj [("selector", WindowSelector.form.write selector),
      ("workspace", WorkspaceRef.form.write workspace), ("silent", Form.bool.write silent)])]

def readSpawn : Json → Option InverseAction :=
  struct 1 fun v => (member 0 "command" Form.string.read v).map .spawn

def readMove : Json → Option InverseAction :=
  struct 3 fun v => do
    let selector ← member 0 "selector" WindowSelector.form.read v
    let workspace ← member 1 "workspace" WorkspaceRef.form.read v
    let silent ← member 2 "silent" Form.bool.read v
    return .moveToWorkspace selector workspace silent

def read : Json → Option InverseAction
  | .obj [(name, v)] =>
    if name = "Spawn" then readSpawn v else if name = "MoveToWorkspace" then readMove v else none
  | _ => none

def Valid : InverseAction → Prop
  | .spawn _ => True
  | .moveToWorkspace selector workspace _ => selector.Valid ∧ workspace.Valid

def form : Form InverseAction where
  write := write
  read := read
  Valid := Valid
  levels := 3
  fits {a} valid := by
    cases a with
    | spawn command => exact .obj (by simp) (by simpa using .obj (by simp) (by simpa using .str command))
    | moveToWorkspace selector workspace silent =>
      have selector := WindowSelector.form.fits (a := selector) valid.1
      have workspace := WorkspaceRef.form.fits (a := workspace) valid.2
      have silent : Fits NoFloat 1 (Form.bool.write silent) := .bool silent
      refine .obj (by simp) ?_
      rw [List.forall_mem_singleton]
      exact .obj (by simp) (by simpa using ⟨selector, workspace, silent⟩)
  back {a} valid := by
    cases a with
    | spawn command => simp [write, read, readSpawn, struct, member, field, once]
    | moveToWorkspace selector workspace silent =>
      have selector : WindowSelector.form.read (WindowSelector.form.write selector) = some selector :=
        WindowSelector.form.back valid.1
      have workspace : WorkspaceRef.form.read (WorkspaceRef.form.write workspace) = some workspace :=
        WorkspaceRef.form.back valid.2
      simp [write, read, readMove, struct, member, field, once, selector, workspace]
  sound {v a} found := by
    unfold read at found
    split at found
    · split at found
      · obtain ⟨command, -, same⟩ := Option.map_eq_some_iff.mp (struct_sound found)
        cases same
        trivial
      · split at found
        · obtain ⟨selector, first, found⟩ := Option.bind_eq_some_iff.mp (struct_sound found)
          obtain ⟨workspace, second, found⟩ := Option.bind_eq_some_iff.mp found
          obtain ⟨silent, -, found⟩ := Option.bind_eq_some_iff.mp found
          cases found
          exact ⟨member_sound first, member_sound second⟩
        · cases found
    · cases found

end InverseAction

namespace UndoEntry

def write (entry : UndoEntry) : Json :=
  .obj [("timestamp_unix", Form.i64.write entry.timestampUnix),
    ("description", Form.string.write entry.description),
    ("inverse", InverseAction.form.write entry.inverse)]

def read : Json → Option UndoEntry :=
  struct 3 fun v => do
    let timestampUnix ← member 0 "timestamp_unix" Form.i64.read v
    let description ← member 1 "description" Form.string.read v
    let inverse ← member 2 "inverse" InverseAction.form.read v
    return ⟨timestampUnix, description, inverse⟩

def form : Form UndoEntry where
  write := write
  read := read
  Valid entry := Form.i64.Valid entry.timestampUnix ∧ InverseAction.form.Valid entry.inverse
  levels := 4
  fits {entry} valid := by
    have timestamp := Form.i64.fits_above valid.1 (Nat.zero_le 3)
    have inverse := InverseAction.form.fits valid.2
    exact .obj (by simp) (by simpa using ⟨timestamp, .str entry.description, inverse⟩)
  back {entry} valid := by
    simp [write, read, struct, member, field, once, Form.i64.back valid.1, InverseAction.form.back valid.2]
  sound {v entry} found := by
    obtain ⟨timestamp, first, found⟩ := Option.bind_eq_some_iff.mp (struct_sound found)
    obtain ⟨description, -, found⟩ := Option.bind_eq_some_iff.mp found
    obtain ⟨inverse, third, found⟩ := Option.bind_eq_some_iff.mp found
    cases found
    exact ⟨member_sound first, member_sound third⟩

/-- The undo stack's file: the entries, oldest first. -/
def listForm : Form (List UndoEntry) := .list form

end UndoEntry

/-! ### Files -/

namespace Wire

variable {α : Type} (serde : Serde) (form : Form α)

def toFile (a : α) : List UInt8 := Text.utf8Bytes (serde.toStringPretty (form.write a))

def ofFile (bytes : List UInt8) : Except String α :=
  match Text.fromUtf8 bytes with
  | none => .error "invalid unicode code point"
  | some text =>
    match (serde.fromStr text).bind form.read with
    | some a => .ok a
    | none => .error (serde.explain text)

variable {serde form}

theorem ofFile_valid {bytes : List UInt8} {a : α} (loaded : ofFile serde form bytes = .ok a) :
    form.Valid a := by
  unfold ofFile at loaded
  split at loaded
  · cases loaded
  · split at loaded
    · next found =>
      cases loaded
      obtain ⟨v, -, read⟩ := Option.bind_eq_some_iff.mp found
      exact form.sound read
    · cases loaded

variable (documented : serde.Documented)
include documented

theorem ofFile_toFile {a : α} (valid : form.Valid a) (levels : form.levels ≤ 127) :
    ofFile serde form (toFile serde form a) = .ok a := by
  have text : Text.fromUtf8 (toFile serde form a) = some (serde.toStringPretty (form.write a)) :=
    Text.fromUtf8_eq_some.mpr rfl
  rw [ofFile, text]
  dsimp only
  rw [documented.pretty (form.fits_above valid levels), Option.bind_some, form.back valid]

theorem ofFile_cutOff {a : α} (valid : form.Valid a) (levels : form.levels ≤ 127)
    (container : IsContainer (form.write a)) {part : List UInt8} (begins : part <+: toFile serde form a)
    (short : part ≠ toFile serde form a) : ∃ error, ofFile serde form part = .error error := by
  rw [ofFile]
  split
  · exact ⟨_, rfl⟩
  · next text decoded =>
    have bytes := Text.fromUtf8_eq_some.mp decoded
    rw [← bytes] at begins short
    cases parsed : serde.fromStr text with
    | none => exact ⟨_, rfl⟩
    | some w =>
      have fits : Fits IsFloat 127 (form.write a) := Serde.fits_of_noFloat (form.fits_above valid levels)
      have whole := documented.cutOffPretty container fits (Text.prefix_of_utf8Bytes begins) parsed
      exact absurd (by rw [whole]; rfl) short

/-- A file holds the value that was written, a beginning of it is broken, and what is loaded from any
file can be written and is then loaded again. -/
structure Kept (serde : Serde) {α : Type} (form : Form α) : Prop where
  loaded : ∀ a, form.Valid a → ofFile serde form (toFile serde form a) = .ok a
  cutOff : ∀ a, form.Valid a → ∀ part, part <+: toFile serde form a → part ≠ toFile serde form a →
    ∃ error, ofFile serde form part = .error error
  again : ∀ bytes a, ofFile serde form bytes = .ok a → ofFile serde form (toFile serde form a) = .ok a

theorem kept (levels : form.levels ≤ 127) (container : ∀ a, IsContainer (form.write a)) :
    Kept serde form where
  loaded _ valid := ofFile_toFile documented valid levels
  cutOff a valid _ begins short := ofFile_cutOff documented valid levels (container a) begins short
  again _ _ loaded := ofFile_toFile documented (ofFile_valid loaded) levels

theorem stateFiles_kept : Kept serde Snapshot.form ∧ Kept serde UndoEntry.listForm :=
  ⟨kept documented (by decide) fun _ => trivial, kept documented (by decide) fun _ => trivial⟩

omit documented in
theorem stateFiles_kept_plain : Kept .plain Snapshot.form ∧ Kept .plain UndoEntry.listForm :=
  stateFiles_kept Serde.plain_documented

end Wire

end HyprPilot
