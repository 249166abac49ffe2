import HyprPilot.Base.Text

/-!
# Selectors

Window selectors and workspace references with their two texts: `encode`, the argument form of
Hyprland's dispatchers, and `parse`, the form that a user or an agent writes.
-/

namespace HyprPilot

inductive WindowSelector where
  | address (a : String)
  | pid (p : Int)
  | className (c : String)
  | title (t : String)
  | tag (t : String)
  | active
  deriving DecidableEq

namespace WindowSelector

def encode : WindowSelector → String
  | .address a => if Text.startsWith "0x" a then "address:" ++ a else "address:0x" ++ a
  | .pid p => "pid:" ++ toString p
  | .className c => "class:" ++ c
  | .title t => "title:" ++ t
  | .tag t => "tag:" ++ t
  | .active => "activewindow"

def parse (s : String) : Except String WindowSelector :=
  if s = "active" ∨ s = "activewindow" then .ok .active
  else
    match Text.splitOnce ":" s with
    | none =>
      .error ("selector `" ++ s ++ "` is missing a prefix; expected one of " ++
        "address:, pid:, class:, title:, tag:, or the literal `active`")
    | some (k, v) =>
      if k = "address" then .ok (.address v)
      else if k = "pid" then
        match Text.parseI32 v with
        | .ok p => .ok (.pid p)
        | .error e => .error ("pid is not an integer: " ++ e.text)
      else if k = "class" then .ok (.className v)
      else if k = "title" then .ok (.title v)
      else if k = "tag" then .ok (.tag v)
      else .error ("unknown selector prefix `" ++ k ++ ":`")

end WindowSelector

inductive WorkspaceRef where
  | id (n : Int)
  | name (n : String)
  | relative (n : Int)
  | previous
  | next
  | empty
  | special (n : String)
  deriving DecidableEq

namespace WorkspaceRef

def encode : WorkspaceRef → String
  | .id n => toString n
  | .name n => "name:" ++ n
  | .relative n => if 0 ≤ n then "+" ++ toString n else toString n
  | .previous => "prev"
  | .next => "next"
  | .empty => "empty"
  | .special n => if n.isEmpty then "special" else "special:" ++ n

def parseRelative (s : String) : Except String WorkspaceRef :=
  match Text.parseI32 s with
  | .ok n => .ok (.relative n)
  | .error e => .error ("invalid relative offset: " ++ e.text)

def parse (s : String) : Except String WorkspaceRef :=
  match Text.stripPrefix "name:" s with
  | some rest => .ok (.name rest)
  | none =>
    match Text.stripPrefix "special:" s with
    | some rest => .ok (.special rest)
    | none =>
      if s = "special" then .ok (.special "")
      else if s = "empty" then .ok .empty
      else if s = "prev" ∨ s = "previous" then .ok .previous
      else if s = "next" then .ok .next
      else
        match Text.stripPrefix "+" s with
        | some rest => parseRelative rest
        -- A leading minus is a relative offset and stays part of the number.
        | none =>
          if Text.startsWith "-" s then parseRelative s
          else
            match Text.parseI32 s with
            | .ok n => .ok (.id n)
            | .error e => .error ("invalid workspace id: " ++ e.text)

example : parse "+1" = .ok (.relative 1) := by decide
example : parse "special:term" = .ok (.special "term") := by decide

end WorkspaceRef

end HyprPilot
