import HyprPilot.Base.Text

/-!
# Events

One line of Hyprland's event socket is `name>>data`. `extractFields` reads the fields of the events
that the program knows; a field that may hold commas is the last one and is joined again.
-/

namespace HyprPilot

structure RawEvent where
  name : String
  data : String
  deriving DecidableEq

/-- One line of the event socket without its line end. -/
def RawEvent.ofLine (line : String) : RawEvent :=
  match Text.splitOnce ">>" line with
  | some (name, data) => ⟨name, data⟩
  | none => ⟨line, ""⟩

structure Event where
  kind : String
  fields : List (String × String)
  raw : RawEvent
  deriving DecidableEq

namespace Event

def field (e : Event) (key : String) : Option String := e.fields.lookup key

/-- The event socket sends addresses without the `0x` of the query replies. -/
def normalizeAddr (s : String) : String := if Text.startsWith "0x" s then s else "0x" ++ s

def commaJoin (parts : List String) : String := Text.joinWith "," parts

def extractFields (name data : String) : List (String × String) :=
  if data.isEmpty then []
  else
    match name, Text.splitOn ',' data with
    | "openwindow", address :: workspace :: cls :: title :: more =>
      [("address", normalizeAddr address), ("workspace", workspace), ("class", cls),
        ("title", commaJoin (title :: more))]
    | "closewindow", address :: _ => [("address", normalizeAddr address)]
    | "movewindow", address :: workspace :: _ =>
      [("address", normalizeAddr address), ("workspace", workspace)]
    | "movewindowv2", address :: workspaceId :: workspace :: _ =>
      [("address", normalizeAddr address), ("workspace_id", workspaceId), ("workspace", workspace)]
    | "windowtitle", address :: _ => [("address", normalizeAddr address)]
    | "windowtitlev2", address :: title :: more =>
      [("address", normalizeAddr address), ("title", commaJoin (title :: more))]
    | "activewindow", cls :: title :: more =>
      [("class", cls), ("title", commaJoin (title :: more))]
    | "activewindowv2", address :: _ => [("address", normalizeAddr address)]
    | "workspace", name :: _ => [("name", name)]
    | "workspacev2", id :: name :: _ => [("id", id), ("name", name)]
    | "focusedmon", monitor :: workspace :: _ => [("monitor", monitor), ("workspace", workspace)]
    | "fullscreen", state :: _ => [("state", state)]
    | "changefloatingmode", address :: floating :: _ =>
      [("address", normalizeAddr address), ("floating", floating)]
    | "monitoradded", name :: _ => [("name", name)]
    | "monitorremoved", name :: _ => [("name", name)]
    | "monitoraddedv2", id :: name :: more =>
      [("id", id), ("name", name)] ++
        if more.isEmpty then [] else [("description", commaJoin more)]
    | "submap", name :: _ => [("name", name)]
    | "pin", address :: state :: _ => [("address", normalizeAddr address), ("state", state)]
    | "urgent", address :: _ => [("address", normalizeAddr address)]
    | _, _ => []

def fromRaw (raw : RawEvent) : Event := ⟨raw.name, extractFields raw.name raw.data, raw⟩

example : (fromRaw ⟨"windowtitlev2", "abc,a, b"⟩).field "title" = some "a, b" := by decide

end Event

end HyprPilot
