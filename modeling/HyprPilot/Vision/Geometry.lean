import HyprPilot.Base.Text

/-!
# Regions and boxes

A `Region` lies on the compositor's global coordinate space, a `BBox` in the image that the text
recognition ran on.
-/

namespace HyprPilot

/-- `w` and `h` are `u32`. -/
structure Region where
  x : Int
  y : Int
  w : Nat
  h : Nat
  deriving DecidableEq

structure BBox where
  x : Int
  y : Int
  w : Int
  h : Int
  deriving DecidableEq

namespace BBox

/-- The fields are `i32`s. -/
structure InI32 (b : BBox) : Prop where
  x : Machine.InI32 b.x
  y : Machine.InI32 b.y
  w : Machine.InI32 b.w
  h : Machine.InI32 b.h

def center (b : BBox) : Int × Int :=
  (Machine.sat32 (b.x + b.w.tdiv 2), Machine.sat32 (b.y + b.h.tdiv 2))

/-- The smallest box that holds both. -/
def union (a b : BBox) : BBox :=
  let x := min a.x b.x
  let y := min a.y b.y
  let right := max (Machine.sat32 (a.x + a.w)) (Machine.sat32 (b.x + b.w))
  let bottom := max (Machine.sat32 (a.y + a.h)) (Machine.sat32 (b.y + b.h))
  ⟨x, y, Machine.wrap32 (right - x), Machine.wrap32 (bottom - y)⟩

theorem InI32.union {a b : BBox} (left : a.InI32) (right : b.InI32) : (a.union b).InI32 where
  x := by
    have := left.x
    have := right.x
    show Machine.InI32 (min a.x b.x)
    unfold Machine.InI32 at *
    omega
  y := by
    have := left.y
    have := right.y
    show Machine.InI32 (min a.y b.y)
    unfold Machine.InI32 at *
    omega
  w := Machine.inI32_wrap32 _
  h := Machine.inI32_wrap32 _

def translate (b : BBox) (r : Region) : BBox :=
  { b with x := Machine.wrap32 (b.x + r.x), y := Machine.wrap32 (b.y + r.y) }

end BBox

inductive VisionError where
  | backendMissing (backend : String)
  | backendFailed (backend status stderr : String)
  | invalidRegion (w h : Int)
  | emptyOutput
  | io (text : String)
  deriving DecidableEq

def VisionError.text : VisionError → String
  | .backendMissing backend =>
    "backend `" ++ backend ++ "` is not installed (or not on $PATH); install it and try again"
  | .backendFailed backend status stderr =>
    "backend `" ++ backend ++ "` exited with status " ++ status ++ ": " ++ stderr
  | .invalidRegion w h =>
    "invalid region: width and height must be > 0, got " ++ toString w ++ "x" ++ toString h
  | .emptyOutput => "backend returned no output bytes"
  | .io text => "I/O error invoking vision backend: " ++ text

def Region.validate (r : Region) : Except VisionError Unit :=
  if r.w = 0 ∨ r.h = 0 then .error (.invalidRegion (Machine.wrap32 r.w) (Machine.wrap32 r.h))
  else .ok ()

inductive ImageFormat where
  | png | jpeg | ppm
  deriving DecidableEq

def ImageFormat.mime : ImageFormat → String
  | .png => "image/png"
  | .jpeg => "image/jpeg"
  | .ppm => "image/x-portable-pixmap"

end HyprPilot
