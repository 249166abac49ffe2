import HyprPilot.Base.Int32
import HyprPilot.Input.Keys
import Mathlib.Data.Set.Finite.Lemmas
import Mathlib.Order.Bounds.Basic
import Mathlib.Tactic.FieldSimp

/-!
# The virtual pointer

The worker keeps the place and size of each output from the compositor's events, and turns a
command into requests of the virtual-pointer protocol. An absolute motion is sent as a fraction of
an extent, which the compositor spreads over the bounding box of all outputs.
-/

namespace HyprPilot.VirtualPointer
open Machine

def evdevButton : MouseButton → Nat
  | .left => 0x110
  | .right => 0x111
  | .middle => 0x112
  | .x1 => 0x113
  | .x2 => 0x114

structure OutputGeom where
  x : Int
  y : Int
  width : Int
  height : Int
  deriving DecidableEq

/-- The farthest right and lower edges, counted from the origin and at least 1. -/
def unionExtents (outs : List OutputGeom) : Nat × Nat :=
  let edge := outs.foldl (fun edge o =>
    (max edge.1 (sat32 (o.x + o.width)), max edge.2 (sat32 (o.y + o.height)))) ((0, 0) : Int × Int)
  ((max edge.1 1).toNat, (max edge.2 1).toNat)

inductive Cmd where
  | moveAbs (x y : Int)
  | moveRel (dx dy : Int)
  | click (button : Nat)

/-- Requests to the compositor; the first argument of each is its time. -/
inductive Request where
  | motionAbsolute (t : Nat) (x y xExtent yExtent : Nat)
  | motion (t : Nat) (dx dy : Int)
  | button (t : Nat) (button : Nat) (pressed : Bool)
  | frame
  deriving DecidableEq

/-- What an output announces about itself. -/
inductive OutputEvent where
  | geometry (x y : Int)
  | mode (width height : Int) (current : Bool)
  | other

/-- `outputs` has one entry for each output, under the number of its proxy. -/
structure State where
  outputs : List (Nat × OutputGeom)
  timeCounter : Nat

namespace State

def geoms (s : State) : List OutputGeom := s.outputs.map (·.2)

def nextTime (s : State) : Nat := min (s.timeCounter + 1) 4294967295

def announce (event : OutputEvent) (o : OutputGeom) : OutputGeom :=
  match event with
  | .geometry x y => { o with x := x, y := y }
  | .mode width height true => { o with width := width, height := height }
  | _ => o

def outputEvent (s : State) (proxy : Nat) (event : OutputEvent) : State :=
  if proxy ∈ s.outputs.map (·.1) then
    { s with outputs := s.outputs.map fun entry =>
        if entry.1 = proxy then (entry.1, announce event entry.2) else entry }
  else { s with outputs := (proxy, announce event ⟨0, 0, 0, 0⟩) :: s.outputs }

/-- The requests of one command. -/
def serve (s : State) : Cmd → State × List Request
  | .moveAbs x y =>
    let extents := unionExtents s.geoms
    let xx := min (max x 0).toNat extents.1
    let yy := min (max y 0).toNat extents.2
    ({ s with timeCounter := s.nextTime },
      [.motionAbsolute s.nextTime xx yy extents.1 extents.2, .frame])
  | .moveRel dx dy => ({ s with timeCounter := s.nextTime }, [.motion s.nextTime dx dy, .frame])
  | .click button =>
    let pressed := { s with timeCounter := s.nextTime }
    ({ s with timeCounter := pressed.nextTime },
      [.button s.nextTime button true, .frame, .button pressed.nextTime button false, .frame])

end State

example : unionExtents [⟨0, 0, 1920, 1080⟩, ⟨1920, 0, 2560, 1440⟩] = (4480, 1440) := by decide
example : unionExtents [⟨-1920, 0, 1920, 1080⟩] = (1, 1080) := by decide

/-! ### The compositor's side -/

/-- The bounding box of the outputs. -/
structure Bounds (outs : List OutputGeom) (left right top bottom : Int) : Prop where
  left : IsLeast {x | ∃ o ∈ outs, x = o.x} left
  right : IsGreatest {x | ∃ o ∈ outs, x = o.x + o.width} right
  top : IsLeast {y | ∃ o ∈ outs, y = o.y} top
  bottom : IsGreatest {y | ∃ o ∈ outs, y = o.y + o.height} bottom

def OutputGeom.Contains (o : OutputGeom) (x y : Int) : Prop :=
  o.x ≤ x ∧ x < o.x + o.width ∧ o.y ≤ y ∧ y < o.y + o.height

/-- Where an argument out of an extent lies between two edges. -/
def spread (low high : Int) (part extent : Nat) : ℚ := low + part / extent * (high - low)

theorem exists_least {outs : List OutputGeom} (inhabited : outs ≠ []) (f : OutputGeom → Int) :
    ∃ low, IsLeast {x | ∃ o ∈ outs, x = f o} low := by
  obtain ⟨first, member⟩ := List.exists_mem_of_ne_nil outs inhabited
  obtain ⟨o, listed, least⟩ := Set.exists_min_image {o | o ∈ outs} f outs.finite_toSet ⟨first, member⟩
  refine ⟨f o, ⟨o, listed, rfl⟩, ?_⟩
  rintro x ⟨other, otherListed, rfl⟩
  exact least other otherListed

theorem exists_greatest {outs : List OutputGeom} (inhabited : outs ≠ []) (f : OutputGeom → Int) :
    ∃ high, IsGreatest {x | ∃ o ∈ outs, x = f o} high := by
  obtain ⟨first, member⟩ := List.exists_mem_of_ne_nil outs inhabited
  obtain ⟨o, listed, most⟩ := Set.exists_max_image {o | o ∈ outs} f outs.finite_toSet ⟨first, member⟩
  refine ⟨f o, ⟨o, listed, rfl⟩, ?_⟩
  rintro x ⟨other, otherListed, rfl⟩
  exact most other otherListed

theorem bounds_exist {outs : List OutputGeom} (inhabited : outs ≠ []) :
    ∃ left right top bottom, Bounds outs left right top bottom := by
  obtain ⟨left, isLeft⟩ := exists_least inhabited (·.x)
  obtain ⟨right, isRight⟩ := exists_greatest inhabited fun o => o.x + o.width
  obtain ⟨top, isTop⟩ := exists_least inhabited (·.y)
  obtain ⟨bottom, isBottom⟩ := exists_greatest inhabited fun o => o.y + o.height
  exact ⟨left, right, top, bottom, isLeft, isRight, isTop, isBottom⟩

/-! ### Absolute motion -/

theorem foldl_edge_le (outs : List OutputGeom) (edge : Int × Int) (k : Int) :
    ((outs.foldl (fun edge o =>
      (max edge.1 (sat32 (o.x + o.width)), max edge.2 (sat32 (o.y + o.height)))) edge).1 ≤ k ↔
        edge.1 ≤ k ∧ ∀ o ∈ outs, sat32 (o.x + o.width) ≤ k) ∧
    ((outs.foldl (fun edge o =>
      (max edge.1 (sat32 (o.x + o.width)), max edge.2 (sat32 (o.y + o.height)))) edge).2 ≤ k ↔
        edge.2 ≤ k ∧ ∀ o ∈ outs, sat32 (o.y + o.height) ≤ k) := by
  induction outs generalizing edge with
  | nil => simp
  | cons o rest ih =>
    rw [List.foldl_cons, (ih _).1, (ih _).2, max_le_iff, max_le_iff, List.forall_mem_cons,
      List.forall_mem_cons, and_assoc, and_assoc]
    exact ⟨Iff.rfl, Iff.rfl⟩

/-- No edge of an output leaves the range of `i32`. -/
def Sane (outs : List OutputGeom) : Prop :=
  ∀ o ∈ outs, InI32 (o.x + o.width) ∧ InI32 (o.y + o.height)

theorem unionExtents_eq {outs : List OutputGeom} {left right top bottom : Int} (sane : Sane outs)
    (bounds : Bounds outs left right top bottom) :
    unionExtents outs = ((max right 1).toNat, (max bottom 1).toNat) := by
  unfold unionExtents
  generalize folded : outs.foldl (fun edge o =>
    (max edge.1 (sat32 (o.x + o.width)), max edge.2 (sat32 (o.y + o.height)))) ((0, 0) : Int × Int) = edge
  have upper := foldl_edge_le outs (0, 0)
  rw [folded] at upper
  have across : edge.1 = max 0 right := by
    apply eq_of_forall_ge_iff
    intro k
    rw [(upper k).1, max_le_iff, isLUB_le_iff bounds.right.isLUB]
    refine and_congr_right fun _ => ⟨?_, ?_⟩
    · rintro within x ⟨o, listed, rfl⟩
      rw [← sat32_of_in (sane o listed).1]
      exact within o listed
    · intro within o listed
      rw [sat32_of_in (sane o listed).1]
      exact within ⟨o, listed, rfl⟩
  have down : edge.2 = max 0 bottom := by
    apply eq_of_forall_ge_iff
    intro k
    rw [(upper k).2, max_le_iff, isLUB_le_iff bounds.bottom.isLUB]
    refine and_congr_right fun _ => ⟨?_, ?_⟩
    · rintro within y ⟨o, listed, rfl⟩
      rw [← sat32_of_in (sane o listed).2]
      exact within o listed
    · intro within o listed
      rw [sat32_of_in (sane o listed).2]
      exact within ⟨o, listed, rfl⟩
  dsimp only
  rw [across, down]
  congr 2 <;> omega

theorem spread_eq_iff {low high p : Int} (above : low ≤ p) (below : p < high) :
    spread low high (min (max p 0).toNat (max high 1).toNat) (max high 1).toNat = p ↔
      low = 0 ∨ low < 0 ∧ p = low := by
  by_cases negative : p < 0
  · have start : (max p 0).toNat = 0 := by omega
    rw [start, Nat.zero_min, spread]
    simp only [Nat.cast_zero, zero_div, zero_mul, add_zero, Int.cast_inj]
    omega
  · have positive : 0 < high := by omega
    have part : min (max p 0).toNat (max high 1).toNat = p.toNat := by omega
    have whole : (max high 1).toNat = high.toNat := by omega
    have partCast : ((p.toNat : Nat) : ℚ) = p := by
      have cast : ((p.toNat : Nat) : Int) = p := Int.toNat_of_nonneg (by omega)
      exact_mod_cast cast
    have wholeCast : ((high.toNat : Nat) : ℚ) = high := by
      have cast : ((high.toNat : Nat) : Int) = high := Int.toNat_of_nonneg (by omega)
      exact_mod_cast cast
    have nonzero : (high : ℚ) ≠ 0 := by exact_mod_cast positive.ne'
    rw [part, whole, spread, partCast, wholeCast]
    have moved : (low : ℚ) + p / high * (high - low) = p ↔ (low : ℚ) * (high - p) = 0 := by
      field_simp
      constructor
      · intro same
        linarith
      · intro same
        linarith
    rw [moved, mul_eq_zero]
    have apart : (high : ℚ) - p ≠ 0 := by
      have gap : (p : ℚ) < high := by exact_mod_cast below
      linarith
    simp only [apart, or_false, Int.cast_eq_zero]
    omega

/-- A motion to a point of some output arrives there exactly when on each axis the outputs start at
the origin, or left of it with the point on their first line. -/
theorem moveAbs_lands_iff {s : State} {x y left right top bottom : Int} (sane : Sane s.geoms)
    (bounds : Bounds s.geoms left right top bottom) (inside : ∃ o ∈ s.geoms, o.Contains x y) :
    (∀ t xx yy ex ey, .motionAbsolute t xx yy ex ey ∈ (s.serve (.moveAbs x y)).2 →
      spread left right xx ex = x ∧ spread top bottom yy ey = y) ↔
        (left = 0 ∨ left < 0 ∧ x = left) ∧ (top = 0 ∨ top < 0 ∧ y = top) := by
  obtain ⟨o, listed, fromLeft, toRight, fromTop, toBottom⟩ := inside
  have leftmost := bounds.left.2 ⟨o, listed, rfl⟩
  have rightmost := bounds.right.2 ⟨o, listed, rfl⟩
  have topmost := bounds.top.2 ⟨o, listed, rfl⟩
  have bottommost := bounds.bottom.2 ⟨o, listed, rfl⟩
  have across := spread_eq_iff (le_trans leftmost fromLeft) (lt_of_lt_of_le toRight rightmost)
  have down := spread_eq_iff (le_trans topmost fromTop) (lt_of_lt_of_le toBottom bottommost)
  rw [← across, ← down]
  have sent : (s.serve (.moveAbs x y)).2 = [.motionAbsolute s.nextTime
      (min (max x 0).toNat (max right 1).toNat) (min (max y 0).toNat (max bottom 1).toNat)
      (max right 1).toNat (max bottom 1).toNat, .frame] := by
    simp only [State.serve, unionExtents_eq sane bounds]
  rw [sent]
  constructor
  · intro arrives
    exact arrives _ _ _ _ _ List.mem_cons_self
  · rintro arrives t xx yy ex ey request
    simp only [List.mem_cons, Request.motionAbsolute.injEq, reduceCtorEq, List.not_mem_nil,
      or_false] at request
    obtain ⟨-, rfl, rfl, rfl, rfl⟩ := request
    exact arrives

/-- Two outputs side by side, the first at the given column. -/
def twoOutputs (column : Int) : State where
  outputs := [(1, ⟨column, 0, 1920, 1080⟩), (2, ⟨column + 1920, 0, 1920, 1080⟩)]
  timeCounter := 0

theorem twoOutputs_bounds (column : Int) :
    Bounds (twoOutputs column).geoms column (column + 3840) 0 1080 := by
  have both (P : OutputGeom → Prop) : (∃ o ∈ (twoOutputs column).geoms, P o) ↔
      P ⟨column, 0, 1920, 1080⟩ ∨ P ⟨column + 1920, 0, 1920, 1080⟩ := by
    simp [State.geoms, twoOutputs]
  constructor <;> simp only [both]
  · constructor
    · exact Or.inl rfl
    · rintro x (rfl | rfl) <;> omega
  · constructor
    · exact Or.inr (by omega)
    · rintro x (rfl | rfl) <;> omega
  · constructor
    · exact Or.inl rfl
    · rintro y (rfl | rfl) <;> omega
  · constructor
    · exact Or.inl rfl
    · rintro y (rfl | rfl) <;> omega

theorem twoOutputs_from_origin : Bounds (twoOutputs 0).geoms 0 3840 0 1080 ∧
    ∀ t xx yy ex ey, .motionAbsolute t xx yy ex ey ∈ ((twoOutputs 0).serve (.moveAbs 2000 500)).2 →
      spread 0 3840 xx ex = (2000 : Int) ∧ spread 0 1080 yy ey = (500 : Int) := by
  have sane : Sane (twoOutputs 0).geoms := by unfold Sane; decide
  have inside : ∃ o ∈ (twoOutputs 0).geoms, o.Contains 2000 500 :=
    ⟨⟨1920, 0, 1920, 1080⟩, by decide, by unfold OutputGeom.Contains; decide⟩
  have bounds : Bounds (twoOutputs 0).geoms 0 3840 0 1080 := twoOutputs_bounds 0
  exact ⟨bounds, (moveAbs_lands_iff sane bounds inside).mpr ⟨Or.inl rfl, Or.inl rfl⟩⟩

/-- With an output on the left of the origin, a motion to (960, 540) arrives at (0, 540). -/
theorem twoOutputs_left_of_origin :
    Bounds (twoOutputs (-1920)).geoms (-1920) 1920 0 1080 ∧
      (∃ o ∈ (twoOutputs (-1920)).geoms, o.Contains 960 540) ∧
        ((twoOutputs (-1920)).serve (.moveAbs 960 540)).2 =
          [.motionAbsolute 1 960 540 1920 1080, .frame] ∧
          spread (-1920) 1920 960 1920 = 0 := by
  refine ⟨twoOutputs_bounds (-1920), ⟨⟨0, 0, 1920, 1080⟩, by decide, ?_⟩, by decide, by decide +kernel⟩
  unfold OutputGeom.Contains
  decide

end HyprPilot.VirtualPointer
