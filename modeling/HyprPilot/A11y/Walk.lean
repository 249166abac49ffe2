import HyprPilot.A11y.Element

/-!
# Walking an application's accessibility tree

The accessibility bus as the answers it gives for each node, the application of a process, the walk
of its subtree with an explicit stack, and the filter of the elements found.
-/

namespace HyprPilot

/-- What a node's object answers; a failed call is `none`, `false` or the error's text. -/
structure Service (ν : Type) where
  isNull : ν → Bool
  path : ν → String
  asAccessibleProxy : ν → Bool
  getRole : ν → Option String
  name : ν → Option String
  proxies : ν → Bool
  component : ν → Bool
  getExtents : ν → Option (Int × Int × Int × Int)
  text : ν → Bool
  characterCount : ν → Option Int
  getText : ν → Int → Int → Option String
  getChildren : ν → Except String (List ν)

/-- The connection to the bus: the registry's root and the process of each bus name. -/
structure A11y (ν : Type) extends Service ν where
  rootAccessibleOnRegistry : Except String ν
  dbusProxy : Except String Unit
  busName : ν → Option String
  getConnectionUnixProcessId : String → Option Nat

def textLimit : Int := 200

namespace Service

variable {ν : Type} (s : Service ν)

def extents (node : ν) : Int × Int × Int × Int :=
  if s.proxies node ∧ s.component node then (s.getExtents node).getD (0, 0, 0, 0) else (0, 0, 0, 0)

def inlineText (node : ν) : Option String :=
  if s.proxies node ∧ s.text node then do
    let n ← s.characterCount node
    if 0 < n ∧ n ≤ textLimit then
      let text := Text.trim (← s.getText node 0 n)
      if text = "" then none else some text
    else none
  else none

def element (node : ν) (depth : Nat) : Element :=
  let (x, y, w, h) := s.extents node
  { role := (s.getRole node).getD "unknown"
    name := (s.name node).getD ""
    text := s.inlineText node
    x := x, y := y, w := w, h := h
    depth := depth
    path := s.path node }

def children (node : ν) : List ν := (s.getChildren node).toOption.getD []

/-- The children go on the stack last to first, so that the first is on top. The depth is a `u32`. -/
def push (node : ν) (depth : Nat) (stack : List (ν × Nat)) : List (ν × Nat) :=
  (s.children node).reverse.foldl (fun stack child => (child, (depth + 1) % 4294967296) :: stack) stack

def walkLoop (opts : WalkOpts) (stack : List (ν × Nat)) (out : List Element) : List Element :=
  match stack with
  | [] => out
  | (node, depth) :: stack =>
    if opts.maxNodes ≤ out.length then out
    else if opts.maxDepth < depth ∨ s.isNull node then walkLoop opts stack out
    else if ¬ s.asAccessibleProxy node then walkLoop opts stack out
    else walkLoop opts (s.push node depth stack) (out ++ [s.element node depth])
termination_by (opts.maxNodes - out.length, stack.length)

def walk (root : ν) (opts : WalkOpts) : List Element := s.walkLoop opts [(root, 0)] []

end Service

def contains (s needle : String) : Bool := s.toList.tails.any needle.toList.isPrefixOf

/-- `lower` is the Unicode lower case of a text. -/
def elementMatches (lower : String → String) (el : Element) (query : String)
    (role : Option String) : Bool :=
  let roleOk : Bool := match role with
    | some r => Text.asciiLower el.role = Text.asciiLower r
    | none => true
  if ¬ roleOk then false
  else if query = "" then role.isSome
  else
    let q := lower query
    let nameHit := contains (lower el.name) q
    let textHit := el.text.any fun t => contains (lower t) q
    nameHit || textHit

def filterElements (lower : String → String) (els : List Element) (query : String)
    (role : Option String) : List Element :=
  els.filter fun e => elementMatches lower e query role

namespace A11y

variable {ν : Type} (a11y : A11y ν)

def belongsTo (pid : Int) (child : ν) : Bool :=
  match a11y.busName child with
  | none => false
  | some name =>
    match a11y.getConnectionUnixProcessId name with
    | none => false
    | some p => Machine.wrap32 p = pid

def findApp (pid : Int) : Except A11yError ν := do
  let root ← a11y.rootAccessibleOnRegistry.mapError .bus
  let children ← (a11y.getChildren root).mapError .bus
  let () ← a11y.dbusProxy.mapError .unavailable
  match children.find? (a11y.belongsTo pid) with
  | some child => .ok child
  | none => .error (.noApplication (some pid))

def snapshotApp (pid : Int) (opts : WalkOpts) : Except A11yError (List Element) := do
  let app ← a11y.findApp pid
  return a11y.walk app opts

def find (lower : String → String) (pid : Int) (query : String) (role : Option String)
    (opts : WalkOpts) : Except A11yError (List Element) := do
  let all ← a11y.snapshotApp pid opts
  return filterElements lower all query role

end A11y

end HyprPilot
