import HyprPilot.Core.Connection
import HyprPilot.Core.Events
import Mathlib.Logic.Relation

/-!
# The rules engine

The engine reads one event of the socket at a time and runs the actions of the first rule that
matches it. A counter above zero keeps it from matching: an execution raises the counter, and a task
that starts with the end of the execution lowers it after the decay.

Time is discrete. It passes while the engine awaits an event, an action or a notification, and no
further than to the moment at which a task is due. What the engine does between two awaits takes no
time, but a task may run in between.
-/

namespace HyprPilot
open Interact Relation

namespace Engine

inductive Action where
  | focusWindow (sel : WindowSelector)
  | closeWindow (sel : WindowSelector)
  | killActive
  | cycleNext
  | cyclePrev
  | switchWorkspace (ws : WorkspaceRef)
  | moveToWorkspace (ws : WorkspaceRef)
  | moveToWorkspaceSilent (ws : WorkspaceRef)
  | toggleFloating
  | setFullscreen (mode : FullscreenMode)
  | centerActive
  | pinActive
  | moveActive (dir : Direction)
  | resizeActive (dx dy : Int)
  | swapActive (dir : Direction)
  | exec (command : String)
  | focusMonitor (monitor : String)
  | moveWorkspaceToMonitor (monitor : String)
  deriving DecidableEq

def Action.dispatcher : Action → Dispatcher
  | .focusWindow sel => .focusWindow sel
  | .closeWindow sel => .closeWindow sel
  | .killActive => .killActive
  | .cycleNext => .cycleNext
  | .cyclePrev => .cyclePrev
  | .switchWorkspace ws => .switchWorkspace ws
  | .moveToWorkspace ws => .moveActiveToWorkspace ws
  | .moveToWorkspaceSilent ws => .moveActiveToWorkspaceSilent ws
  | .toggleFloating => .toggleFloating
  | .setFullscreen mode => .setFullscreen mode
  | .centerActive => .centerActive
  | .pinActive => .pinActive
  | .moveActive dir => .moveActive dir
  | .resizeActive dx dy => .resizeActive dx dy
  | .swapActive dir => .swapActive dir
  | .exec command => .exec command
  | .focusMonitor monitor => .focusMonitor monitor
  | .moveWorkspaceToMonitor monitor => .moveWorkspaceToMonitor monitor

def Action.execute (action : Action) : Connection.Call (CoreResult Unit) :=
  Connection.dispatch action.dispatcher

structure CompiledRule where
  label : String
  on : String
  when : List (String × String)
  actions : List Action
  deriving DecidableEq

def predicateMatches (when fields : List (String × String)) : Bool :=
  when.all fun (key, value) => fields.lookup key = some value

/-- The first rule for the event's kind whose predicates hold. -/
def firstMatch (rules : List CompiledRule) (event : Event) : Option CompiledRule :=
  rules.find? fun rule => rule.on = event.kind && predicateMatches rule.when event.fields

/-! ### The guard -/

/-- The counter is a `usize`; `pending` holds for each detached task when its sleep is over. -/
structure ReentranceGuard where
  depth : Nat
  pending : List Nat
  deriving DecidableEq

namespace ReentranceGuard

def new : ReentranceGuard := ⟨0, []⟩

def isInhibited (g : ReentranceGuard) : Bool := 0 < g.depth

/-- `fetch_add` and `fetch_sub` wrap around. -/
def bump (g : ReentranceGuard) : ReentranceGuard := { g with depth := (g.depth + 1) % 2 ^ 64 }

/-- Dropping a `BumpGuard` spawns the task. -/
def dropBump (now decay : Nat) (g : ReentranceGuard) : ReentranceGuard :=
  { g with pending := (now + decay) :: g.pending }

def decrement (due : Nat) (g : ReentranceGuard) : ReentranceGuard :=
  ⟨(g.depth + (2 ^ 64 - 1)) % 2 ^ 64, g.pending.erase due⟩

end ReentranceGuard

/-! ### The loop -/

/-- What became of an event: matching was inhibited, no rule matched, or a rule was executed, with
the times at which its actions and the execution were over. -/
inductive Outcome where
  | inhibited
  | unmatched
  | fired (rule : CompiledRule) (acted : List Nat) (dropped : Option Nat)
  deriving DecidableEq

structure Turn where
  event : Event
  read : Nat
  outcome : Outcome
  deriving DecidableEq

structure Execution where
  event : Event
  read : Nat
  rule : CompiledRule
  acted : List Nat
  left : List Action
  deriving DecidableEq

def Execution.turn (x : Execution) (dropped : Option Nat) : Turn :=
  ⟨x.event, x.read, .fired x.rule x.acted dropped⟩

/-- Where `run` and `handle_event` stand. -/
inductive Phase where
  | starting
  | idle
  | selecting
  | checking (event : Event) (read : Nat)
  | matching (event : Event) (read : Nat)
  | executing (x : Execution)
  | stopped
  deriving DecidableEq

/-- `turns` records the events that are done with, the last one first. -/
structure State where
  now : Nat
  guard : ReentranceGuard
  socket : List RawEvent
  phase : Phase
  turns : List Turn
  deriving DecidableEq

def start : State := ⟨0, .new, [], .starting, []⟩

def Phase.awaits : Phase → Bool
  | .checking .. | .matching .. => false
  | .executing x => !x.left.isEmpty
  | _ => true

/-- The bumps that are not dropped yet. -/
def State.live (s : State) : Nat :=
  match s.phase with
  | .executing _ => 1
  | _ => 0

/-- The events that were read, with the execution that is not over. -/
def State.history (s : State) : List Turn :=
  match s.phase with
  | .executing x => x.turn none :: s.turns
  | _ => s.turns

def State.close (s : State) (turn : Turn) : State :=
  { s with phase := .selecting, turns := turn :: s.turns }

inductive Step (rules : List CompiledRule) (decay : Nat) : State → State → Prop where
  | tick {s : State} : s.phase.awaits = true → (∀ due ∈ s.guard.pending, s.now < due) →
      Step rules decay s { s with now := s.now + 1 }
  | arrives {s : State} (raw : RawEvent) :
      Step rules decay s { s with socket := s.socket ++ [raw] }
  | decrements {s : State} : s.now ∈ s.guard.pending →
      Step rules decay s { s with guard := s.guard.decrement s.now }
  | idles {s : State} : s.phase = .starting → rules = [] →
      Step rules decay s { s with phase := .idle }
  | connects {s : State} : s.phase = .starting → rules ≠ [] →
      Step rules decay s { s with phase := .selecting }
  | reads {s : State} {raw : RawEvent} {rest : List RawEvent} :
      s.phase = .selecting → s.socket = raw :: rest →
      Step rules decay s { s with socket := rest, phase := .checking (Event.fromRaw raw) s.now }
  | inhibits {s : State} {event : Event} {read : Nat} :
      s.phase = .checking event read → s.guard.isInhibited = true →
      Step rules decay s (s.close ⟨event, read, .inhibited⟩)
  | admits {s : State} {event : Event} {read : Nat} :
      s.phase = .checking event read → s.guard.isInhibited = false →
      Step rules decay s { s with phase := .matching event read }
  | passes {s : State} {event : Event} {read : Nat} :
      s.phase = .matching event read → firstMatch rules event = none →
      Step rules decay s (s.close ⟨event, read, .unmatched⟩)
  | bumps {s : State} {event : Event} {read : Nat} {rule : CompiledRule} :
      s.phase = .matching event read → firstMatch rules event = some rule →
      Step rules decay s { s with
        guard := s.guard.bump
        phase := .executing ⟨event, read, rule, [], rule.actions⟩ }
  /-- An action ends; a failed one does not stop the rule. -/
  | acts {s : State} {x : Execution} {action : Action} {left : List Action}
      {trace : List (Sigma Connection.Ans)} {result : CoreResult Unit} :
      s.phase = .executing x → x.left = action :: left →
      Prog.Run action.execute trace result →
      Step rules decay s
        { s with phase := .executing { x with acted := x.acted ++ [s.now], left := left } }
  | drops {s : State} {x : Execution} : s.phase = .executing x → x.left = [] →
      Step rules decay s
        { s.close (x.turn (some s.now)) with guard := s.guard.dropBump s.now decay }
  /-- A shutdown, the end of the socket or a failure to connect or to read. -/
  | stops {s : State} : s.phase = .starting ∨ s.phase = .idle ∨ s.phase = .selecting →
      Step rules decay s { s with phase := .stopped }

/-- The states that the engine reaches, whatever arrives and however long its actions take. -/
abbrev Reach (rules : List CompiledRule) (decay : Nat) (s : State) : Prop :=
  ReflTransGen (Step rules decay) start s

end Engine

end HyprPilot
