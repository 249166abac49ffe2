import HyprPilot.Cli.ClickText

/-!
# The point of a text

A search and two clicks locate the same match: the search and the command line at the centre of its
box in the picture with the region's origin added to it, the click tool at that point divided by the
scale and with the origin added once more.
-/

namespace HyprPilot
open Interact Machine

/-- At most one pixel apart on each axis. -/
def Near (p q : Int × Int) : Prop := |p.1 - q.1| ≤ 1 ∧ |p.2 - q.2| ≤ 1

theorem Near.symm {p q : Int × Int} (near : Near p q) : Near q p := by
  obtain ⟨x, y⟩ := near
  rw [abs_sub_comm] at x y
  exact ⟨x, y⟩

theorem Near.refl (p : Int × Int) : Near p p := by simp [Near]

/-- The quotient of a place and the scale, rounded and clamped, lies between two bounds. A bound that
the clamp keeps anyway asks nothing. -/
structure Between (low high place : Int) (scale : ℚ) : Prop where
  reachable : low ≤ 2147483647 ∧ -2147483648 ≤ high
  below : -2147483648 < low →
    (low - 1 / 2) * scale ≤ place ∧ (low ≤ 0 → (place : ℚ) ≠ (low - 1 / 2) * scale)
  above : high < 2147483647 →
    place ≤ (high + 1 / 2) * scale ∧ (0 ≤ high → (place : ℚ) ≠ (high + 1 / 2) * scale)

namespace Mcp

section Finds

variable {id : Json} {op : ClickTextOp} {scene : Scene} {m : TextMatch}

end Finds

end Mcp

/-! ### The same match -/

namespace Cli

theorem regionFromVec_valid {parts : Option (List Int)} {region : Option Region}
    (read : regionFromVec parts = .ok region) : ∀ r, region = some r → r.validate = .ok () := by
  rintro r rfl
  unfold regionFromVec at read
  split at read
  · cases read
  · split at read
    · cases read
    · cases read
      rw [Region.validate, if_neg]
      dsimp only
      omega
  · cases read

theorem chooseMatch_ok {c : ClickTextCmd} {found : List TextMatch} {chosen : TextMatch}
    (located : found[c.matchIndex]? = some chosen)
    (unique : c.allowAmbiguous = false → c.matchIndex = 0 → found.length ≤ 1) :
    chooseMatch c found = .ok chosen := by
  rw [chooseMatch, if_neg (Mcp.not_isEmpty_of_located located), if_neg (Mcp.unambiguous unique),
    located]

/-- A call of the click tool and a command line ask for one match of the scene, and each chooses
it. -/
structure SameMatch (scene : Mcp.Scene) (op : ClickTextOp) (c : ClickTextCmd) (m : TextMatch) :
    Prop where
  query : c.query = op.query
  caseSensitive : c.caseSensitive = op.caseSensitive
  matchIndex : c.matchIndex = op.matchIndex
  explicit : op.activeWindow = false
  parsed : ∃ psm button, parseArgs c = .ok (op.region, psm, button)
  found : (findWordRuns scene.words op.query op.caseSensitive)[op.matchIndex]? = some m
  unique : op.requireUnique = true ∨ c.allowAmbiguous = false → op.matchIndex = 0 →
    (findWordRuns scene.words op.query op.caseSensitive).length ≤ 1

namespace SameMatch

variable {scene : Mcp.Scene} {op : ClickTextOp} {c : ClickTextCmd} {m : TextMatch}

theorem region_eq (same : SameMatch scene op c m) : scene.region op.toFindTextOp = op.region := by
  rw [Mcp.Scene.region, if_neg (by simp [same.explicit])]

theorem valid (same : SameMatch scene op c m) : ∀ r, op.region = some r → r.validate = .ok () := by
  obtain ⟨psm, button, parsed⟩ := same.parsed
  obtain ⟨region, read, rest⟩ := Collect.bind_ok parsed
  obtain ⟨_, -, rest⟩ := Collect.bind_ok rest
  obtain ⟨_, -, ending⟩ := Collect.bind_ok rest
  cases ending
  exact regionFromVec_valid read

theorem chooses (same : SameMatch scene op c m) : scene.Chooses op m where
  focused active := by
    rw [same.explicit] at active
    cases active
  valid := by
    rw [same.region_eq]
    exact same.valid
  found := same.found
  unique required := same.unique (.inl required)

theorem chosen (same : SameMatch scene op c m) :
    chooseMatch c ((findWordRuns scene.words c.query c.caseSensitive).map
      (Mcp.translated op.region)) = .ok (Mcp.translated op.region m) := by
  rw [same.query, same.caseSensitive]
  apply chooseMatch_ok
  · rw [same.matchIndex, List.getElem?_map, same.found]
    rfl
  · intro strict first
    rw [List.length_map]
    exact same.unique (.inr strict) (same.matchIndex ▸ first)

/-- The command line aims at the centre of the box that the search returns. -/
theorem aims_iff (same : SameMatch scene op c m) {socket : String} {point : Int × Int} :
    Aims c socket scene point ↔ (Mcp.translated op.region m).bbox.center = point := by
  obtain ⟨psm, button, parsed⟩ := same.parsed
  constructor
  · exact center_of_aims parsed same.valid same.chosen
  · rintro rfl
    exact aims_center parsed same.chosen

end SameMatch

/-- On one axis, the centre of a box after the origin was added to its corner. -/
def placed (corner extent origin : Int) : Int := sat32 (wrap32 (corner + origin) + extent.tdiv 2)

/-- Where the region's corner and the words' boxes hold `i32`s. -/
structure Typed (scene : Mcp.Scene) (op : FindTextOp) : Prop where
  words : ∀ w ∈ scene.words, w.bbox.InI32
  region : ∀ r, op.region = some r → InI32 r.x ∧ InI32 r.y

section Agree

variable {id : Json} {socket : String} {scene : Mcp.Scene} {op : ClickTextOp} {c : ClickTextCmd}
  {m : TextMatch}

theorem SameMatch.boxed (same : SameMatch scene op c m) (typed : Typed scene op.toFindTextOp) :
    m.bbox.InI32 :=
  findWordRuns_inI32 typed.words m (List.mem_of_getElem? same.found)

theorem SameMatch.origin (same : SameMatch scene op c m) (typed : Typed scene op.toFindTextOp) :
    InI32 (scene.origin op.toFindTextOp).1 ∧ InI32 (scene.origin op.toFindTextOp).2 := by
  rw [Mcp.Scene.origin, same.region_eq]
  cases region : op.region with
  | none => exact ⟨by decide, by decide⟩
  | some r => exact typed.region r region

theorem SameMatch.center (same : SameMatch scene op c m) (typed : Typed scene op.toFindTextOp) :
    (Mcp.translated op.region m).bbox.center =
      (placed m.bbox.x m.bbox.w (scene.origin op.toFindTextOp).1,
        placed m.bbox.y m.bbox.h (scene.origin op.toFindTextOp).2) := by
  have box := same.boxed typed
  rw [Mcp.Scene.origin, same.region_eq]
  cases op.region with
  | none => simp [Mcp.translated, placed, BBox.center, wrap32_of_in box.x, wrap32_of_in box.y]
  | some r => rfl

theorem SameMatch.clickPoint (same : SameMatch scene op c m) :
    scene.clickPoint op.toFindTextOp m =
      (wrap32 (sat32 (roundHalfAway ((Mcp.translated op.region m).bbox.center.1 /
          scene.scale op.toFindTextOp)) + (scene.origin op.toFindTextOp).1),
        wrap32 (sat32 (roundHalfAway ((Mcp.translated op.region m).bbox.center.2 /
          scene.scale op.toFindTextOp)) + (scene.origin op.toFindTextOp).2)) := by
  rw [Mcp.Scene.clickPoint, Mcp.Scene.origin, same.region_eq]
  cases op.region with
  | none => simp [Mcp.clickPoint, wrap32_of_in (inI32_sat32 _)]
  | some r => rfl

end Agree

end Cli

end HyprPilot
