import HyprPilot.Mcp.Server

/-!
# Where a text click goes

A scan reads words from a picture of a region in physical pixels, and the click goes to the logical
point of the compositor that the centre of the chosen match was read from. The code adds the
region's origin once to the boxes of the picture and once more to the scaled centre.
-/

namespace HyprPilot
open Interact Machine

namespace Mcp

/-- What the server can see while it handles one call. -/
structure Scene where
  window : Option Client
  words : List Word
  monitors : List Monitor

namespace Scene

variable (scene : Scene)

/-- Every command may fail; one that succeeds shows the scene. -/
def Shows : (c : Cmd) → Ans c → Prop
  | .daemon .queryActiveWindow, answer =>
    ∀ window, answer = .ok (.activeWindow window) → window = scene.window
  | .daemon .queryMonitors, answer => ∀ monitors, answer = .ok (.monitors monitors) → monitors = scene.monitors
  | .extractWords .., answer => ∀ words, answer = .ok words → words = scene.words
  | _, _ => True

theorem shows_some (c : Cmd) : ∃ answer, scene.Shows c answer := by
  cases c with
  | daemon request =>
    refine ⟨.error .closed, ?_⟩
    cases request with
    | queryActiveWindow => exact fun _ equal => by cases equal
    | queryMonitors => exact fun _ equal => by cases equal
    | _ => trivial
  | extractWords => exact ⟨.ok scene.words, fun _ equal => (Except.ok.inj equal).symm⟩
  | dropDaemon => exact ⟨(), trivial⟩
  | grimDetect => exact ⟨.ok (), trivial⟩
  | tesseractDetect => exact ⟨.ok (), trivial⟩
  | grimFull => exact ⟨.ok [], trivial⟩
  | grimRegion => exact ⟨.ok [], trivial⟩
  | extractText => exact ⟨.ok "", trivial⟩

def region (op : FindTextOp) : Option Region :=
  if op.activeWindow then scene.window.map windowRegion else op.region

def origin (op : FindTextOp) : Int × Int :=
  match scene.region op with
  | some r => (r.x, r.y)
  | none => (0, 0)

def scale (op : FindTextOp) : ℚ := pickScale scene.monitors (scene.region op)

/-- The point that a match in the picture was read from: the centre of its box in logical pixels,
from the corner of the picture. -/
def target (op : FindTextOp) (m : TextMatch) : Int × Int :=
  ((scene.origin op).1 + roundHalfAway (m.bbox.center.1 / scene.scale op),
    (scene.origin op).2 + roundHalfAway (m.bbox.center.2 / scene.scale op))

/-- The scan can be made, and the match is the one that the operation chooses. -/
structure Chooses (op : ClickTextOp) (m : TextMatch) : Prop where
  focused : op.activeWindow = true → ∃ c, scene.window = some c ∧ 0 < c.size.1 ∧ 0 < c.size.2
  valid : ∀ r, scene.region op.toFindTextOp = some r → r.validate = .ok ()
  found : (findWordRuns scene.words op.query op.caseSensitive)[op.matchIndex]? = some m
  unique : op.requireUnique = true → op.matchIndex = 0 →
    (findWordRuns scene.words op.query op.caseSensitive).length ≤ 1

end Scene

/-- No operation on one axis of a click leaves the range of `i32`. -/
structure Fits (corner extent origin : Int) (scale : ℚ) : Prop where
  moved : InI32 (corner + origin)
  center : InI32 (corner + extent.tdiv 2)
  movedCenter : InI32 (corner + origin + extent.tdiv 2)
  logical : InI32 (roundHalfAway ((corner + origin + extent.tdiv 2 : Int) / scale))
  point : InI32 (roundHalfAway ((corner + origin + extent.tdiv 2 : Int) / scale) + origin)

def Scene.FitsAll (scene : Scene) (op : FindTextOp) (m : TextMatch) : Prop :=
  Fits m.bbox.x m.bbox.w (scene.origin op).1 (scene.scale op) ∧
    Fits m.bbox.y m.bbox.h (scene.origin op).2 (scene.scale op)

/-- The translation moves the centre by the origin, and the point adds the origin again. -/
theorem Fits.axis {corner extent origin : Int} {scale : ℚ} (fits : Fits corner extent origin scale) :
    wrap32 (sat32 (roundHalfAway
        ((sat32 (wrap32 (corner + origin) + extent.tdiv 2) : Int) / scale)) + origin) =
      origin + roundHalfAway ((sat32 (corner + extent.tdiv 2) + origin : Int) / scale) := by
  rw [wrap32_of_in fits.moved, sat32_of_in fits.movedCenter, sat32_of_in fits.logical,
    wrap32_of_in fits.point, sat32_of_in fits.center, add_comm origin]
  congr 4
  omega

theorem clickPoint_translated {scene : Scene} {op : FindTextOp} {m : TextMatch}
    (fits : scene.FitsAll op m) :
    clickPoint (translated (scene.region op) m).bbox (scene.scale op) (scene.region op) =
      ((scene.origin op).1 +
          roundHalfAway ((m.bbox.center.1 + (scene.origin op).1 : Int) / scene.scale op),
        (scene.origin op).2 +
          roundHalfAway ((m.bbox.center.2 + (scene.origin op).2 : Int) / scene.scale op)) := by
  obtain ⟨fitsX, fitsY⟩ := fits
  unfold clickPoint Scene.origin translated at *
  cases region : scene.region op with
  | some r =>
    rw [region] at fitsX fitsY
    exact Prod.ext fitsX.axis fitsY.axis
  | none =>
    rw [region] at fitsX fitsY
    have x := fitsX.logical
    have y := fitsY.logical
    simp only [add_zero] at x y
    simp only [BBox.center, sat32_of_in fitsX.center, sat32_of_in fitsY.center, add_zero, zero_add,
      sat32_of_in x, sat32_of_in y]

/-! ### Aim -/

def MovesTo (point : Int × Int) (c : Cmd) : Prop :=
  ∀ x y absolute, c = .daemon (.inputMouseMove x y absolute) → (x, y) = point

def PreviewsAt (point : Int × Int) (response : JsonRpcResponse) : Prop :=
  ∀ op chosen total x y,
    response = .shown response.id (.clickPreview op chosen total x y) → (x, y) = point

/-- In every run over the scene, each pointer motion goes to the point and a preview prints it. -/
def Aims (id : Json) (op : ClickTextOp) (scene : Scene) (point : Int × Int) : Prop :=
  ∀ run response, Prog.Run (handleClickText id op) run response →
    (∀ e ∈ run, scene.Shows e.1 e.2) → (∀ e ∈ run, MovesTo point e.1) ∧ PreviewsAt point response

theorem previewsAt_toolError (point : Int × Int) (id : Json) (code : ErrorCode) (message : String) :
    PreviewsAt point (toolError id code message) := by
  intro op chosen total x y preview
  cases code <;> cases preview

abbrev Aimed (scene : Scene) (point : Int × Int) (p : Session JsonRpcResponse) : Prop :=
  p.Meets scene.Shows (MovesTo point) (PreviewsAt point)

theorem aims_iff {id : Json} {op : ClickTextOp} {scene : Scene} {point : Int × Int} :
    Aims id op scene point ↔ Aimed scene point (handleClickText id op) :=
  (Prog.meets_iff_runs scene.shows_some).symm

/-- A request to the daemon: a failure drops the connection and is a tool error. -/
theorem meets_request {ans : (c : Cmd) → Ans c → Prop} {req : Cmd → Prop} {id : Json}
    {request : Request} {post : Except JsonRpcResponse Reply → Prop}
    (asks : req (.daemon request)) (drops : req .dropDaemon)
    (failed : ∀ code message, post (.error (toolError id code message)))
    (answered : ∀ value, ans (.daemon request) (.ok value) → post (.ok value)) :
    (asked id request).Meets ans req post := by
  refine Prog.meets_ask.mpr ⟨asks, fun answer shown => ?_⟩
  cases answer with
  | ok value => exact answered value shown
  | error e => exact Prog.meets_ask.mpr ⟨drops, fun _ _ => failed _ _⟩

theorem movesTo_of_other {point : Int × Int} {c : Cmd} (other : ∀ request, c ≠ .daemon request) :
    MovesTo point c :=
  fun _ _ _ equal => (other _ equal).elim

theorem movesTo_dropDaemon (point : Int × Int) : MovesTo point .dropDaemon :=
  movesTo_of_other fun _ equal => by cases equal

section Steps

variable {scene : Scene} {point : Int × Int} {id : Json}

/-- A request to the daemon: its failure is a response without a preview. -/
theorem meets_asked {request : Request} {post : Except JsonRpcResponse Reply → Prop}
    (moves : MovesTo point (.daemon request))
    (failed : ∀ response, PreviewsAt point response → post (.error response))
    (answered : ∀ value, scene.Shows (.daemon request) (.ok value) → post (.ok value)) :
    (asked id request).Meets scene.Shows (MovesTo point) post := by
  apply meets_request moves (movesTo_dropDaemon point) _ answered
  exact fun code message => failed _ (previewsAt_toolError point id code message)

theorem meets_scanRegion {op : FindTextOp} {post : Except JsonRpcResponse (Option Region) → Prop}
    (failed : ∀ response, PreviewsAt point response → post (.error response))
    (scanned : post (.ok (scene.region op))) :
    (scanRegion id op).Meets scene.Shows (MovesTo point) post := by
  unfold scanRegion
  by_cases active : op.activeWindow
  · rw [if_pos active]
    rw [Scene.region, if_pos active] at scanned
    refine Prog.meets_bind.mpr (Prog.meets_bind.mpr (meets_asked ?_ ?_ ?_))
    · exact fun _ _ _ equal => nomatch equal
    · exact failed
    · intro value shown
      cases value with
      | activeWindow window =>
        rw [← shown window rfl] at scanned
        cases window with
        | none => exact failed _ (previewsAt_toolError point id _ _)
        | some c =>
          show Prog.Meets _ _ _ (pure (if c.size.1 ≤ 0 ∨ c.size.2 ≤ 0 then _ else _) >>= _)
          split
          · exact failed _ (previewsAt_toolError point id _ _)
          · exact scanned
      | _ => exact failed _ (previewsAt_toolError point id _ _)
  · rw [if_neg active]
    rw [Scene.region, if_neg active] at scanned
    exact scanned

theorem meets_captureScan {region : Option Region}
    {post : Except VisionError (List UInt8) → Prop} (any : ∀ result, post result) :
    (captureScan region).Meets scene.Shows (MovesTo point) post := by
  refine Prog.meets_andThen (Prog.meets_ask.mpr ⟨?_, fun ready _ => ?_⟩)
  · exact movesTo_of_other fun _ equal => by cases equal
  · cases ready with
    | error e => exact any _
    | ok _ =>
      cases region with
      | none =>
        exact Prog.meets_ask.mpr ⟨movesTo_of_other (fun _ equal => by cases equal), fun _ _ => any _⟩
      | some r =>
        show (captureRegion r false .ppm).Meets scene.Shows (MovesTo point) post
        unfold captureRegion
        cases r.validate with
        | error e => exact any _
        | ok _ =>
          exact Prog.meets_ask.mpr ⟨movesTo_of_other (fun _ equal => by cases equal), fun _ _ => any _⟩

theorem meets_extractWords {op : FindTextOp} {image : List UInt8}
    {post : Except VisionError (List Word) → Prop} (failed : ∀ e, post (.error e))
    (extracted : post (.ok scene.words)) :
    (extractWords op image).Meets scene.Shows (MovesTo point) post := by
  refine Prog.meets_andThen (Prog.meets_ask.mpr ⟨?_, fun ready _ => ?_⟩)
  · exact movesTo_of_other fun _ equal => by cases equal
  · cases ready with
    | error e => exact failed e
    | ok _ =>
      refine Prog.meets_ask.mpr ⟨movesTo_of_other (fun _ equal => by cases equal), fun words shown => ?_⟩
      cases words with
      | error e => exact failed e
      | ok words =>
        obtain rfl := shown words rfl
        exact extracted

theorem meets_scanForMatches {region : Option Region} {op : FindTextOp}
    {post : Except String (List TextMatch) → Prop} (failed : ∀ text, post (.error text))
    (scanned : post (.ok
      ((findWordRuns scene.words op.query op.caseSensitive).map (translated region)))) :
    (scanForMatches region op).Meets scene.Shows (MovesTo point) post := by
  refine Prog.meets_bind.mpr (Prog.meets_andThen (meets_captureScan fun image => ?_))
  cases image with
  | error e => exact failed _
  | ok image => exact meets_extractWords (fun e => failed _) scanned

theorem meets_clickAt {button : MouseButton} {applied : Content}
    (quiet : PreviewsAt point (.shown id applied)) :
    Aimed scene point (clickAt id point.1 point.2 button applied) := by
  refine Prog.meets_bind.mpr (meets_asked ?_ (fun _ shown => shown) fun _ _ => ?_)
  · intro x y absolute equal
    cases equal
    rfl
  · refine Prog.meets_bind.mpr (meets_asked ?_ (fun _ shown => shown) fun _ _ => quiet)
    exact fun _ _ _ equal => nomatch equal

end Steps

theorem not_isEmpty_of_located {α : Type} {found : List α} {i : Nat} {chosen : α}
    (located : found[i]? = some chosen) : ¬found.isEmpty = true := by
  intro empty
  rw [List.isEmpty_iff.mp empty, List.getElem?_nil] at located
  cases located

/-- The gate of a choice is open where the first of several candidates is not what is asked for. -/
theorem unambiguous {strict first : Prop} {total : Nat} (unique : strict → first → total ≤ 1) :
    ¬(strict ∧ 1 < total ∧ first) := by
  rintro ⟨required, several, zero⟩
  have few := unique required zero
  omega

theorem chooseMatch_ok {α : Type} {id : Json} {requireUnique : Bool} {matchIndex : Nat}
    {found : List α} {missing ambiguous bounds : String} {chosen : α}
    (located : found[matchIndex]? = some chosen)
    (unique : requireUnique = true → matchIndex = 0 → found.length ≤ 1) :
    chooseMatch id requireUnique matchIndex found missing ambiguous bounds = .ok chosen := by
  rw [chooseMatch, if_neg (not_isEmpty_of_located located), if_neg (unambiguous unique), located]

theorem Scene.Chooses.chosen {id : Json} {op : ClickTextOp} {scene : Scene} {m : TextMatch}
    {missing ambiguous bounds : String} (chooses : scene.Chooses op m) :
    chooseMatch id op.requireUnique op.matchIndex
        ((findWordRuns scene.words op.query op.caseSensitive).map
          (translated (scene.region op.toFindTextOp))) missing ambiguous bounds =
      .ok (translated (scene.region op.toFindTextOp) m) := by
  apply chooseMatch_ok
  · rw [List.getElem?_map, chooses.found]
    rfl
  · simpa using chooses.unique

def Scene.clickPoint (scene : Scene) (op : FindTextOp) (m : TextMatch) : Int × Int :=
  Mcp.clickPoint (translated (scene.region op) m).bbox (scene.scale op) (scene.region op)

theorem aims_clickPoint {id : Json} {op : ClickTextOp} {scene : Scene} {m : TextMatch}
    (chooses : scene.Chooses op m) :
    Aims id op scene (scene.clickPoint op.toFindTextOp m) := by
  refine aims_iff.mpr (Prog.meets_bind.mpr (meets_scanRegion (fun _ shown => shown) ?_))
  refine Prog.meets_bind.mpr (meets_scanForMatches ?_ ?_)
  · exact fun _ => previewsAt_toolError _ id _ _
  · simp only [chooses.chosen]
    refine Prog.meets_bind.mpr (meets_asked ?_ (fun _ shown => shown) fun value shown => ?_)
    · exact fun _ _ _ equal => nomatch equal
    · cases value with
      | monitors monitors =>
        obtain rfl := shown monitors rfl
        show Prog.Meets _ _ _ (if op.dryRun then _ else _)
        split
        · intro op' chosen' total x y preview
          cases preview
          rfl
        · exact meets_clickAt fun _ _ _ _ _ preview => nomatch preview
      | _ => exact previewsAt_toolError _ id _ _

/-! ### The run that reaches the point -/

abbrev Reaches {α : Type} (scene : Scene) (p : Session α) (a : α) : Prop :=
  p.Exec (fun c (_ : Unit) answer (_ : Unit) => scene.Shows c answer) () a ()

section Reach

variable {id : Json} {op : ClickTextOp} {scene : Scene} {m : TextMatch}

theorem reaches_scanRegion (chooses : scene.Chooses op m) :
    Reaches scene (scanRegion id op.toFindTextOp) (.ok (scene.region op.toFindTextOp)) := by
  unfold scanRegion Scene.region
  by_cases active : op.activeWindow
  · obtain ⟨c, focused, wide, tall⟩ := chooses.focused active
    rw [if_pos active, if_pos active, focused]
    refine Prog.exec_bind.mpr ⟨.ok (windowRegion c), (), ?_, .ret _ _⟩
    refine Prog.exec_bind.mpr ⟨.ok (.activeWindow (some c)), (), ?_, ?_⟩
    · refine .ask (u := ()) (.ok (.activeWindow (some c))) ?_ (.ret _ _)
      intro window equal
      cases equal
      exact focused.symm
    · show Prog.Exec _ (pure (if c.size.1 ≤ 0 ∨ c.size.2 ≤ 0 then _ else _)) _ _ _
      rw [if_neg (by omega)]
      exact .ret _ _
  · rw [if_neg active, if_neg active]
    exact .ret _ _

theorem reaches_captureScan {region : Option Region}
    (valid : ∀ r, region = some r → r.validate = .ok ()) :
    Reaches scene (captureScan region) (.ok []) := by
  refine Prog.exec_bind.mpr ⟨.ok (), (), .ask (u := ()) (.ok ()) trivial (.ret _ _), ?_⟩
  cases region with
  | none => exact .ask (u := ()) (.ok []) trivial (.ret _ _)
  | some r =>
    dsimp only
    unfold captureRegion
    rw [valid r rfl]
    exact .ask (u := ()) (.ok []) trivial (.ret _ _)

theorem reaches_extractWords {op : FindTextOp} {image : List UInt8} :
    Reaches scene (extractWords op image) (.ok scene.words) := by
  refine Prog.exec_bind.mpr ⟨.ok (), (), .ask (u := ()) (.ok ()) trivial (.ret _ _), ?_⟩
  refine .ask (u := ()) (.ok scene.words) ?_ (.ret _ _)
  exact fun _ equal => (Except.ok.inj equal).symm

theorem reaches_scanForMatches (chooses : scene.Chooses op m) :
    Reaches scene (scanForMatches (scene.region op.toFindTextOp) op.toFindTextOp)
      (.ok ((findWordRuns scene.words op.query op.caseSensitive).map
        (translated (scene.region op.toFindTextOp)))) := by
  refine Prog.exec_bind.mpr ⟨.ok scene.words, (), ?_, .ret _ _⟩
  exact Prog.exec_bind.mpr ⟨.ok [], (), reaches_captureScan chooses.valid, reaches_extractWords⟩

theorem reaches_asked {request : Request} {value : Reply}
    (shown : scene.Shows (.daemon request) (.ok value)) :
    Reaches scene (asked id request) (.ok value) :=
  .ask (u := ()) (.ok value) shown (.ret _ _)

/-- What every run over the scene meets holds of its last stage, at the point of the click. -/
theorem meets_lastStage {req : Cmd → Prop} {post : JsonRpcResponse → Prop} (chooses : scene.Chooses op m)
    (met : (handleClickText id op).Meets scene.Shows req post) :
    ∃ chosen total applied, (if op.dryRun then pure (.shown id (.clickPreview op chosen total
        (scene.clickPoint op.toFindTextOp m).1 (scene.clickPoint op.toFindTextOp m).2))
      else clickAt id (scene.clickPoint op.toFindTextOp m).1 (scene.clickPoint op.toFindTextOp m).2
        op.button applied : Session JsonRpcResponse).Meets scene.Shows req post := by
  have scanning := Prog.meets_bind.mp met
  have choosing := Prog.meets_bind.mp (scanning.of_exec (reaches_scanRegion chooses))
  have chosen := choosing.of_exec (reaches_scanForMatches chooses)
  simp only [chooses.chosen] at chosen
  have queried : Reaches scene (asked id .queryMonitors) (.ok (.monitors scene.monitors)) :=
    reaches_asked fun _ equal => (Reply.monitors.inj (Except.ok.inj equal)).symm
  exact ⟨_, _, _, (Prog.meets_bind.mp chosen).of_exec queried⟩

theorem clickPoint_of_aims {point : Int × Int} (chooses : scene.Chooses op m)
    (aims : Aims id op scene point) : scene.clickPoint op.toFindTextOp m = point := by
  obtain ⟨_, _, _, last⟩ := meets_lastStage chooses (aims_iff.mp aims)
  by_cases dry : op.dryRun
  · rw [if_pos dry] at last
    exact Prog.meets_ret.mp last _ _ _ _ _ rfl
  · rw [if_neg dry] at last
    exact (Prog.meets_ask.mp last).1 _ _ _ rfl

end Reach

/-- Adding the corner of the picture to a match's centre before the division by the scale does not
change the point. -/
def Scene.Unmoved (scene : Scene) (op : FindTextOp) (m : TextMatch) : Prop :=
  roundHalfAway ((m.bbox.center.1 + (scene.origin op).1 : Int) / scene.scale op) =
      roundHalfAway (m.bbox.center.1 / scene.scale op) ∧
    roundHalfAway ((m.bbox.center.2 + (scene.origin op).2 : Int) / scene.scale op) =
      roundHalfAway (m.bbox.center.2 / scene.scale op)

/-- A click lands on the match exactly when the corner of the picture does not change the rounded
quotient of the centre and the scale, as without a region. -/
theorem click_on_target {id : Json} {op : ClickTextOp} {scene : Scene} {m : TextMatch}
    (chooses : scene.Chooses op m) (fits : scene.FitsAll op.toFindTextOp m) :
    Aims id op scene (scene.target op.toFindTextOp m) ↔ scene.Unmoved op.toFindTextOp m := by
  have computed := clickPoint_translated fits
  constructor
  · intro aims
    have equal := (clickPoint_of_aims chooses aims).symm.trans computed
    obtain ⟨first, second⟩ := Prod.ext_iff.mp equal
    exact ⟨(add_left_cancel first).symm, (add_left_cancel second).symm⟩
  · rintro ⟨first, second⟩
    have equal : scene.clickPoint op.toFindTextOp m = scene.target op.toFindTextOp m :=
      computed.trans (Prod.ext (congrArg (HAdd.hAdd _) first) (congrArg (HAdd.hAdd _) second))
    rw [← equal]
    exact aims_clickPoint chooses

/-- A corner that does not change the point lies less than the scale from zero on both axes. -/
theorem Scene.Unmoved.origin_lt {scene : Scene} {op : FindTextOp} {m : TextMatch}
    (unmoved : scene.Unmoved op m) (positive : 0 < scene.scale op) :
    |((scene.origin op).1 : ℚ)| < scene.scale op ∧ |((scene.origin op).2 : ℚ)| < scene.scale op := by
  have axis (center origin : Int) (equal : roundHalfAway ((center + origin : Int) / scene.scale op) =
      roundHalfAway (center / scene.scale op)) : |(origin : ℚ)| < scene.scale op := by
    have right := sub_lt_one_of_roundHalfAway_eq equal
    have left := sub_lt_one_of_roundHalfAway_eq equal.symm
    rw [← sub_div, div_lt_one positive] at left right
    push_cast at left right
    exact abs_lt.mpr ⟨by linarith, by linarith⟩
  exact ⟨axis _ _ unmoved.1, axis _ _ unmoved.2⟩

/-! ### A button on a screen -/

def saveMatch : TextMatch := ⟨"Save", ⟨10, 20, 40, 10⟩, 95⟩

def saveScene : Scene where
  window := none
  words := [⟨"Save", ⟨10, 20, 40, 10⟩, 95⟩]
  monitors := [⟨0, "eDP-1", 3840, 2160, 0, 0, 2, true, none⟩]

def saveClick (region : Option Region) : ClickTextOp where
  query := "save"
  region := region
  activeWindow := false
  caseSensitive := false
  minConfidence := 50
  psm := .sparseText
  lang := "eng"
  button := .left
  matchIndex := 0
  requireUnique := true
  dryRun := false

theorem saveClick_chooses {region : Option Region} (valid : ∀ r, region = some r → r.validate = .ok ()) :
    saveScene.Chooses (saveClick region) saveMatch where
  focused active := nomatch active
  valid := valid
  found := by
    show (findWordRuns saveScene.words "save" false)[0]? = some saveMatch
    decide
  unique _ _ := by
    show (findWordRuns saveScene.words "save" false).length ≤ 1
    decide

theorem click_on_screen :
    Aims .null (saveClick none) saveScene (saveScene.target (saveClick none).toFindTextOp saveMatch) := by
  have chooses : saveScene.Chooses (saveClick none) saveMatch := saveClick_chooses (by simp)
  have scale : saveScene.scale (saveClick none).toFindTextOp = 2 := by decide +kernel
  have fits : saveScene.FitsAll (saveClick none).toFindTextOp saveMatch := by
    constructor <;> rw [scale] <;> constructor <;> decide +kernel
  exact (click_on_target chooses fits).mpr ⟨by decide +kernel, by decide +kernel⟩

/-- With a region at (100, 200) the motion goes to (165, 313) instead of (115, 213). -/
theorem click_off_target :
    ¬Aims .null (saveClick (some ⟨100, 200, 400, 300⟩)) saveScene
      (saveScene.target (saveClick (some ⟨100, 200, 400, 300⟩)).toFindTextOp saveMatch) := by
  intro aims
  have chooses : saveScene.Chooses (saveClick (some ⟨100, 200, 400, 300⟩)) saveMatch :=
    saveClick_chooses (by rintro r ⟨⟩; rfl)
  have equal := clickPoint_of_aims chooses aims
  have differ : ((165, 313) : Int × Int) ≠ (115, 213) := by decide
  apply differ
  calc
    _ = saveScene.clickPoint _ saveMatch := by decide +kernel
    _ = _ := equal
    _ = _ := by decide +kernel

end Mcp

end HyprPilot
