import HyprPilot.Core.Connection
import HyprPilot.Core.Events

/-!
# The world-model cache

Each query result is kept with a dirty flag and the time of its last refresh. A read returns the
value while it is clean and young and otherwise queries Hyprland, without a lock, and stores the
answer. The cache task applies the events of the event socket, which flip dirty flags.
-/

namespace HyprPilot
open Interact

namespace StateCache

inductive Field where
  | clients | workspaces | monitors | activeWorkspace | binds | version
  deriving DecidableEq

@[reducible] def Field.Value : Field → Type
  | .clients => List Client
  | .workspaces => List Workspace
  | .monitors => List Monitor
  | .activeWorkspace => ActiveWorkspace
  | .binds => List Bind
  | .version => Version

/-- Nanoseconds on the monotonic clock. -/
abbrev Instant := Nat

def maxAge : Nat := 5000000000

structure Cached (α : Type) where
  value : Option α
  dirty : Bool
  refreshedAt : Option Instant

namespace Cached

variable {α : Type}

def initial : Cached α := ⟨none, true, none⟩

def set (now : Instant) (v : α) : Cached α := ⟨some v, false, some now⟩

def get (now : Instant) (c : Cached α) : Option α :=
  if c.dirty then none
  else
    match c.value, c.refreshedAt with
    | some v, some «at» => if now - «at» < maxAge then some v else none
    | _, _ => none

@[simp] theorem get_set (now later : Instant) (v : α) :
    (set now v).get later = if later - now < maxAge then some v else none := rfl

theorem get_some {now : Instant} {c : Cached α} {v : α} (h : c.get now = some v) :
    c.dirty = false ∧ c.value = some v ∧ ∃ «at», c.refreshedAt = some «at» ∧ now - «at» < maxAge := by
  unfold get at h
  split at h
  · cases h
  · rename_i clean
    split at h
    · rename_i w time value refreshed
      split at h
      · rename_i young
        cases h
        exact ⟨by simpa using clean, value, time, refreshed, young⟩
      · cases h
    · cases h

end Cached

abbrev Inner := (f : Field) → Cached f.Value

def Inner.initial : Inner := fun _ => .initial

/-- A version never expires. -/
def Inner.read (inner : Inner) (now : Instant) : (f : Field) → Option f.Value
  | .version => (inner .version).value
  | .clients => (inner .clients).get now
  | .workspaces => (inner .workspaces).get now
  | .monitors => (inner .monitors).get now
  | .activeWorkspace => (inner .activeWorkspace).get now
  | .binds => (inner .binds).get now

theorem Inner.read_eq_get {inner : Inner} {now : Instant} {f : Field} (notVersion : f ≠ .version) :
    inner.read now f = (inner f).get now := by
  cases f with
  | version => exact absurd rfl notVersion
  | _ => rfl

/-! ### Events -/

def marks (ev : Event) : List Field :=
  match ev.kind with
  | "openwindow" | "closewindow" | "fullscreen" | "movewindow" | "movewindowv2" =>
    [.clients, .workspaces, .activeWorkspace]
  | "activewindow" | "activewindowv2" => [.clients]
  -- With address and title the cached title is patched instead.
  | "windowtitlev2" =>
    match ev.field "address", ev.field "title" with
    | some _, some _ => []
    | _, _ => [.clients]
  | "windowtitle" => [.clients]
  | "workspace" | "workspacev2" => [.workspaces, .activeWorkspace, .clients]
  | "focusedmon" => [.monitors, .activeWorkspace, .clients]
  | "changefloatingmode" | "pin" => [.clients]
  | "monitoradded" | "monitorremoved" | "monitoraddedv2" => [.monitors, .workspaces, .clients]
  | "configreloaded" => [.binds, .monitors]
  | _ => []

def retitle (address title : String) : List Client → List Client
  | [] => []
  | c :: rest =>
    if c.address = address then { c with title := title } :: rest else c :: retitle address title rest

def patched (ev : Event) (clients : List Client) : List Client :=
  if ev.kind = "windowtitlev2" then
    match ev.field "address", ev.field "title" with
    | some address, some title => retitle address title clients
    | _, _ => clients
  else clients

def patchValue (ev : Event) : (f : Field) → Option f.Value → Option f.Value
  | .clients, v => v.map (patched ev)
  | _, v => v

def applyEvent (inner : Inner) (ev : Event) : Inner := fun f =>
  { value := patchValue ev f (inner f).value
    dirty := (inner f).dirty || f ∈ marks ev
    refreshedAt := (inner f).refreshedAt }

/-! ### Readers and the task -/

inductive Cmd where
  | hypr (c : Connection.Cmd)
  /-- One field, under the read lock. -/
  | get (f : Field)
  /-- One field, under the write lock. -/
  | set (f : Field) (v : f.Value)
  | connectEvents
  | nextEvent
  | apply (ev : Event)

@[reducible] def Ans : Cmd → Type
  | .hypr c => Connection.Ans c
  | .get f => Option f.Value
  | .set _ _ => Unit
  | .connectEvents => CoreResult Unit
  | .nextEvent => CoreResult (Option RawEvent)
  | .apply _ => Unit

abbrev Call (α : Type) := Prog Cmd Ans α

def hypr {α : Type} (p : Connection.Call α) : Call α := p.relabel .hypr fun _ x => x

abbrev get (f : Field) : Call (Option f.Value) := .call (Cmd.get f)

abbrev set (f : Field) (v : f.Value) : Call Unit := .call (Cmd.set f v)

def Field.fetch : (f : Field) → Connection.Call (CoreResult f.Value)
  | .clients => Connection.query .clients
  | .workspaces => Connection.query .workspaces
  | .monitors => Connection.query .monitors
  | .activeWorkspace => Connection.query .activeWorkspace
  | .binds => Connection.binds
  | .version => Connection.query .version

def read (f : Field) : Call (CoreResult f.Value) := do
  match ← get f with
  | some v => return .ok v
  | none =>
    match ← hypr f.fetch with
    | .ok v =>
      set f v
      return .ok v
    | .error e => return .error e

def clients : Call (CoreResult (List Client)) := read .clients
def workspaces : Call (CoreResult (List Workspace)) := read .workspaces
def monitors : Call (CoreResult (List Monitor)) := read .monitors
def activeWorkspace : Call (CoreResult ActiveWorkspace) := read .activeWorkspace
def binds : Call (CoreResult (List Bind)) := read .binds
def version : Call (CoreResult Version) := read .version

def activeFrom (clients : List Client) : Option Client :=
  clients.find? fun c => c.focusHistoryId = 0

def activeWindow : Call (CoreResult (Option Client)) := do
  match ← clients with
  | .ok cs => return .ok (activeFrom cs)
  | .error e => return .error e

/-- Failures are only logged. -/
def seed : Call Unit := do
  let _ ← clients
  let _ ← workspaces
  let _ ← monitors
  return ()

/-- The event loop, for at most `turns` events. -/
def eventLoop : Nat → Call Unit
  | 0 => return ()
  | turns + 1 => do
    match ← (.call Cmd.nextEvent : Call (CoreResult (Option RawEvent))) with
    | .ok (some raw) =>
      let () ← (.call (Cmd.apply (.fromRaw raw)) : Call Unit)
      eventLoop turns
    | .ok none => return ()
    | .error _ => return ()

def run (turns : Nat) : Call Unit := do
  seed
  match ← (.call Cmd.connectEvents : Call (CoreResult Unit)) with
  | .ok () => eventLoop turns
  | .error _ => return ()

end StateCache

end HyprPilot
