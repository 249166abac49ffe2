/-!
# Capability profiles

A profile allows groups of tools, denies single tools, and allows single tools outside its groups.
-/

namespace HyprPilot

inductive ToolGroup where
  | read | window | workspace | destructive | process | undo | snapshot | rules | input | vision
  | a11y | binds
  deriving DecidableEq

def ToolGroup.name : ToolGroup → String
  | .read => "read"
  | .window => "window"
  | .workspace => "workspace"
  | .destructive => "destructive"
  | .process => "process"
  | .undo => "undo"
  | .snapshot => "snapshot"
  | .rules => "rules"
  | .input => "input"
  | .vision => "vision"
  | .a11y => "a11y"
  | .binds => "binds"

structure Profile where
  name : String
  allow : List ToolGroup
  denyTools : List String
  allowTools : List String

namespace Profile

def defaultSafe : Profile :=
  ⟨"default", [.read, .window, .workspace, .undo, .snapshot, .rules], [], []⟩

def unrestricted : Profile :=
  ⟨"unrestricted", [.read, .window, .workspace, .destructive, .process, .undo, .snapshot, .rules,
    .input, .vision, .a11y, .binds], [], []⟩

def allows (p : Profile) (toolName : String) (group : ToolGroup) : Bool :=
  if toolName ∈ p.denyTools then false
  else if toolName ∈ p.allowTools then true
  else group ∈ p.allow

end Profile

end HyprPilot
