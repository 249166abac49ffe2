import HyprPilot.Base.Text

/-!
# Accessibility elements

One node of an application's accessibility tree with its box in window coordinates, and the errors
of the accessibility bus.
-/

namespace HyprPilot

inductive A11yError where
  | unavailable (text : String)
  | bus (text : String)
  | noApplication (pid : Option Int)
  deriving DecidableEq

def A11yError.text : A11yError → String
  | .unavailable text => "accessibility bus unavailable: " ++ text
  | .bus text => "atspi call failed: " ++ text
  | .noApplication (some pid) =>
    "no accessible application matched (pid Some(" ++ toString pid ++ "))"
  | .noApplication none => "no accessible application matched (pid None)"

structure Element where
  role : String
  name : String
  text : Option String
  x : Int
  y : Int
  w : Int
  h : Int
  depth : Nat
  path : String
  deriving DecidableEq

namespace Element

def isClickable (e : Element) : Bool := 0 < e.w ∧ 0 < e.h

def center (e : Element) : Int × Int :=
  (Machine.wrap32 (e.x + e.w.tdiv 2), Machine.wrap32 (e.y + e.h.tdiv 2))

end Element

structure WalkOpts where
  maxNodes : Nat := 1500
  maxDepth : Nat := 50
  deriving DecidableEq

end HyprPilot
