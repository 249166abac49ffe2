import HyprPilot.Core.Connection
import HyprPilot.Core.Events

/-!
# Hyprland

The windows, workspaces and monitors behind Hyprland's replies, and how they change. The reply for a
workspace counts its windows and names the last one that had the focus; the reply for a monitor names
the workspace that it shows. Each change emits events of its kinds, with an older and a newer form
where the event socket has both.
-/

namespace HyprPilot

def isHex (c : Char) : Bool := c.isDigit || ('a' ≤ c && c ≤ 'f')

/-- The number that names a window, as the event socket prints it. -/
structure Pointer where
  hex : String
  digits : ∀ c ∈ hex.toList, isHex c = true

namespace Pointer

def address (p : Pointer) : String := "0x" ++ p.hex

theorem hex_ne {p : Pointer} {c : Char} (other : isHex c = false) : c ∉ p.hex.toList := by
  intro member
  rw [p.digits c member] at other
  cases other

theorem address_ofHex (p : Pointer) : Event.normalizeAddr p.hex = p.address := by
  have digits : 'x' ∉ p.hex.toList := hex_ne rfl
  unfold Event.normalizeAddr
  rw [if_neg]
  · rfl
  · intro starts
    obtain ⟨rest, shape⟩ := List.isPrefixOf_iff_prefix.mp starts
    rw [← shape] at digits
    simp at digits

end Pointer

structure Space where
  id : Int
  name : String
  monitor : String
  monitorId : Int
  /-- The window on it that had the focus last. -/
  lastWindow : String
  deriving DecidableEq

structure Area where
  width : Int
  height : Int
  x : Int
  y : Int
  scale : ℚ
  deriving DecidableEq

structure Screen where
  id : Int
  name : String
  area : Area
  shows : ClientWorkspace
  deriving DecidableEq

def Screen.place (areas : Screen → Area) (m : Screen) : Screen := { m with area := areas m }

structure Hyprland where
  windows : List Client
  spaces : List Space
  screens : List Screen
  /-- The focused monitor. -/
  focused : Int
  binds : List Bind
  version : Version

/-! ### Replies -/

def titleOf (cs : List Client) (address : String) : String :=
  ((cs.find? fun c => c.address = address).map (·.title)).getD ""

def workspaceOf (cs : List Client) (s : Space) : Workspace where
  id := s.id
  name := s.name
  monitor := s.monitor
  monitorId := s.monitorId
  windows := cs.countP fun c => c.workspace.id = s.id
  hasfullscreen := cs.any fun c => c.workspace.id = s.id && c.fullscreen != 0
  lastwindow := s.lastWindow
  lastwindowtitle := titleOf cs s.lastWindow

def monitorOf (focused : Int) (m : Screen) : Monitor where
  id := m.id
  name := m.name
  width := m.area.width
  height := m.area.height
  x := m.area.x
  y := m.area.y
  scale := m.area.scale
  focused := m.id = focused
  activeWorkspace := some m.shows

namespace Hyprland

def screen (h : Hyprland) : Option Screen := h.screens.find? fun m => m.id = h.focused

/-- The workspace on the focused monitor. -/
def shown (h : Hyprland) : Option Space :=
  h.screen.bind fun m => h.spaces.find? fun s => s.id = m.shows.id

/-- The cursor is not part of the state: it moves without events. -/
def reply (h : Hyprland) : (q : Query) → Option q.Reply
  | .version => some h.version
  | .clients => some h.windows
  | .workspaces => some (h.spaces.map (workspaceOf h.windows))
  | .monitors => some (h.screens.map (monitorOf h.focused))
  | .binds => some h.binds
  | .activeWorkspace => h.shown.map (workspaceOf h.windows)
  | .activeWindow => some (h.windows.find? fun c => c.focusHistoryId = 0)
  | .cursorPos => none

end Hyprland

/-! ### Changes -/

inductive Change where
  | openWindow (p : Pointer) (c : Client)
  | closeWindow (p : Pointer)
  | moveWindow (p : Pointer) (target : ClientWorkspace)
  | focusWindow (p : Pointer)
  | setTitle (p : Pointer) (title : String)
  | setFloating (p : Pointer) (floating : Bool)
  | setFullscreen (p : Pointer) (mode : Int)
  | setPinned (p : Pointer) (pinned : Bool)
  /-- On the focused monitor. -/
  | switchWorkspace (target : ClientWorkspace)
  | focusMonitor (id : Int)
  | addMonitor (m : Screen)
  /-- Its workspaces go to the heir, and so does the focus. -/
  | removeMonitor (id heir : Int)
  | reload (binds : List Bind) (areas : Screen → Area)

def onWindow (address : String) (f : Client → Client) (c : Client) : Client :=
  if c.address = address then f c else c

def historyOf (cs : List Client) (address : String) : Int :=
  ((cs.find? fun c => c.address = address).map (·.focusHistoryId)).getD cs.length

/-- The window comes to the front of the focus history. -/
def refocus (before : Int) (address : String) (c : Client) : Client :=
  if c.address = address then { c with focusHistoryId := 0 }
  else if c.focusHistoryId < before then { c with focusHistoryId := c.focusHistoryId + 1 } else c

def focusOn (address : String) (cs : List Client) : List Client :=
  cs.map (refocus (historyOf cs address) address)

def close (address : String) (cs : List Client) : List Client :=
  (cs.filter fun c => c.address ≠ address).map fun c =>
    if historyOf cs address < c.focusHistoryId then { c with focusHistoryId := c.focusHistoryId - 1 } else c

/-- The window that had the focus last. -/
def recent : List Client → Option Client
  | [] => none
  | c :: rest =>
    match recent rest with
    | some d => if d.focusHistoryId < c.focusHistoryId then some d else some c
    | none => some c

def recentOn (workspace : Int) (cs : List Client) : String :=
  match recent (cs.filter fun c => c.workspace.id = workspace) with
  | some c => c.address
  | none => "0x0"

namespace Space

def focus (workspace : Int) (address : String) (s : Space) : Space :=
  if s.id = workspace then { s with lastWindow := address } else s

/-- The window has left. -/
def forget (address : String) (cs : List Client) (s : Space) : Space :=
  if s.lastWindow = address then { s with lastWindow := recentOn s.id cs } else s

def inherit (id : Int) (heir : Int) (name : String) (s : Space) : Space :=
  if s.monitorId = id then { s with monitor := name, monitorId := heir } else s

end Space

/-- A workspace that does not exist yet is made on the given monitor. -/
def ensure (target : ClientWorkspace) (monitor : String) (monitorId : Int) (spaces : List Space) : List Space :=
  if spaces.any fun s => s.id = target.id then spaces
  else spaces ++ [⟨target.id, target.name, monitor, monitorId, "0x0"⟩]

def hasWindows (cs : List Client) (s : Space) : Bool := cs.any fun c => c.workspace.id = s.id

namespace Hyprland

variable (h : Hyprland)

def window (p : Pointer) : Option Client := h.windows.find? fun c => c.address = p.address

def nameOf (id : Int) : String := ((h.screens.find? fun m => m.id = id).map (·.name)).getD ""

def monitorIdOf (workspace : Int) : Int :=
  ((h.spaces.find? fun s => s.id = workspace).map (·.monitorId)).getD h.focused

def focusing (p : Pointer) : Hyprland :=
  match h.window p with
  | some c =>
    { h with
      windows := focusOn p.address h.windows
      spaces := h.spaces.map (Space.focus c.workspace.id p.address) }
  | none => h

def after : Change → Hyprland
  | .openWindow p c =>
    { h with
      windows := focusOn p.address (h.windows ++ [{ c with address := p.address }])
      spaces := (ensure c.workspace (h.nameOf h.focused) h.focused h.spaces).map
        (Space.focus c.workspace.id p.address) }
  | .closeWindow p =>
    { h with
      windows := close p.address h.windows
      spaces := h.spaces.map (Space.forget p.address (close p.address h.windows)) }
  | .moveWindow p target =>
    let windows := h.windows.map (onWindow p.address fun c =>
      { c with workspace := target, monitor := h.monitorIdOf target.id })
    { h with
      windows := windows
      spaces := ((ensure target (h.nameOf h.focused) h.focused h.spaces).map
        (Space.forget p.address windows)).map (Space.focus target.id p.address) }
  | .focusWindow p => h.focusing p
  | .setTitle p title =>
    { h with windows := h.windows.map (onWindow p.address fun c => { c with title := title }) }
  | .setFloating p floating =>
    { h with windows := h.windows.map (onWindow p.address fun c => { c with floating := floating }) }
  | .setFullscreen p mode =>
    { h with windows := h.windows.map (onWindow p.address fun c => { c with fullscreen := mode }) }
  | .setPinned p pinned =>
    { h with windows := h.windows.map (onWindow p.address fun c => { c with pinned := pinned }) }
  | .switchWorkspace target =>
    let spaces := ensure target (h.nameOf h.focused) h.focused h.spaces
    { h with
      windows := focusOn (((spaces.find? fun s => s.id = target.id).map (·.lastWindow)).getD "0x0") h.windows
      screens := h.screens.map fun m => if m.id = h.focused then { m with shows := target } else m
      -- The workspace that was shown goes when it is empty.
      spaces := spaces.filter fun s =>
        s.id = target.id || hasWindows h.windows s || decide (h.shown.map (·.id) ≠ some s.id) }
  | .focusMonitor id =>
    let next := { h with focused := id }
    { next with
      windows := focusOn ((next.shown.map (·.lastWindow)).getD "0x0") h.windows }
  | .addMonitor m =>
    { h with screens := h.screens ++ [m], spaces := ensure m.shows m.name m.id h.spaces }
  | .removeMonitor id heir =>
    { h with
      windows := h.windows.map fun c => if c.monitor = id then { c with monitor := heir } else c
      spaces := h.spaces.map (Space.inherit id heir (h.nameOf heir))
      screens := h.screens.filter fun m => m.id ≠ id
      focused := if h.focused = id then heir else h.focused }
  | .reload binds areas =>
    { h with binds := binds, screens := h.screens.map (Screen.place areas) }

/-- A new window is not one of the old ones. -/
def Admits : Change → Prop
  | .openWindow p _ => p.address ∉ h.windows.map (·.address)
  | _ => True

end Hyprland

/-! ### Events -/

def flagText (b : Bool) : String := if b then "1" else "0"

/-- The events of a change, as far as Hyprland's version knows them. -/
def Hyprland.events (h : Hyprland) : Change → List RawEvent
  | .openWindow p c =>
    [⟨"openwindow", p.hex ++ "," ++ c.workspace.name ++ "," ++ c.className ++ "," ++ c.title⟩]
  | .closeWindow p => [⟨"closewindow", p.hex⟩]
  | .moveWindow p target =>
    [⟨"movewindow", p.hex ++ "," ++ target.name⟩,
      ⟨"movewindowv2", p.hex ++ "," ++ toString target.id ++ "," ++ target.name⟩]
  | .focusWindow p =>
    match h.window p with
    | some c => [⟨"activewindow", c.className ++ "," ++ c.title⟩, ⟨"activewindowv2", p.hex⟩]
    | none => []
  | .setTitle p title => [⟨"windowtitle", p.hex⟩, ⟨"windowtitlev2", p.hex ++ "," ++ title⟩]
  | .setFloating p floating => [⟨"changefloatingmode", p.hex ++ "," ++ flagText floating⟩]
  | .setFullscreen _ mode => [⟨"fullscreen", flagText (mode != 0)⟩]
  | .setPinned p pinned => [⟨"pin", p.hex ++ "," ++ flagText pinned⟩]
  | .switchWorkspace target => [⟨"workspace", target.name⟩, ⟨"workspacev2", toString target.id ++ "," ++ target.name⟩]
  | .focusMonitor id =>
    [⟨"focusedmon", h.nameOf id ++ "," ++
      (((h.screens.find? fun m => m.id = id).map (·.shows.name)).getD "?")⟩]
  | .addMonitor m =>
    [⟨"monitoradded", m.name⟩, ⟨"monitoraddedv2", toString m.id ++ "," ++ m.name ++ "," ++ m.name⟩]
  | .removeMonitor id _ => [⟨"monitorremoved", h.nameOf id⟩]
  | .reload _ _ => [⟨"configreloaded", ""⟩]

/-- Hyprland sends at least one form of each event. -/
def Hyprland.Emits (h : Hyprland) (change : Change) (raws : List RawEvent) : Prop :=
  raws.Sublist (h.events change) ∧ (h.events change ≠ [] → raws ≠ [])

end HyprPilot
