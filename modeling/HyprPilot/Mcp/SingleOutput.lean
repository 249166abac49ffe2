import HyprPilot.Daemon.Quiet
import HyprPilot.Mcp.ClickPoint
import HyprPilot.Mcp.MatchChoice

/-!
# A text click on a single output

The server divides the centre of a match by the monitor's scale and rounds, and the daemon
multiplies the logical point by the scale and rounds again. With one monitor both read the same
scale, and the pointer stays within half a logical pixel and half a device pixel of the centre.
-/

namespace HyprPilot
open Interact Machine

/-! ### Rounding -/

theorem abs_roundHalfAway_sub_le (q : ℚ) : |(roundHalfAway q : ℚ) - q| ≤ 1 / 2 := by
  have above := (roundHalfAway_le_iff (q := q)).mp le_rfl
  have below := (le_roundHalfAway_iff (q := q)).mp le_rfl
  exact abs_le.mpr ⟨by linarith [above.1], by linarith [below.1]⟩

/-- Dividing and multiplying by the scale, with a rounding after each. -/
theorem abs_round_chain_le {scale : ℚ} (positive : 0 < scale) (center : Int) :
    |(roundHalfAway (roundHalfAway (center / scale) * scale) - center : ℚ)| ≤ (scale + 1) / 2 := by
  have logical := abs_roundHalfAway_sub_le (center / scale)
  have device := abs_roundHalfAway_sub_le (roundHalfAway (center / scale) * scale)
  have scaled : |(roundHalfAway (center / scale) * scale - center : ℚ)| ≤ scale / 2 := by
    have factored : (roundHalfAway (center / scale) * scale - center : ℚ) =
        (roundHalfAway (center / scale) - center / scale) * scale := by
      rw [sub_mul, div_mul_cancel₀ _ positive.ne']
    rw [factored, abs_mul, abs_of_pos positive]
    calc
      _ ≤ 1 / 2 * scale := mul_le_mul_of_nonneg_right logical positive.le
      _ = scale / 2 := by ring
  calc
    _ ≤ _ := abs_sub_le _ (roundHalfAway (center / scale) * scale : ℚ) _
    _ ≤ 1 / 2 + scale / 2 := add_le_add device scaled
    _ = (scale + 1) / 2 := by ring

/-- Saturation brings a value no farther from one that is in range. -/
theorem abs_sat32_sub_le {n : Int} (inside : InI32 n) (k : Int) : |sat32 k - n| ≤ |k - n| := by
  obtain ⟨low, high⟩ := inside
  unfold sat32
  rcases le_total k n with below | above
  · rw [abs_of_nonpos (by omega : k - n ≤ 0), abs_le]
    omega
  · rw [abs_of_nonneg (by omega : 0 ≤ k - n), abs_le]
    omega

/-! ### The daemon's side -/

namespace Daemon

def devicePoint (monitors : List Monitor) (x y : Int) : Int × Int :=
  (sat32 (roundHalfAway (x * scaleAt monitors x y)), sat32 (roundHalfAway (y * scaleAt monitors x y)))

/-- The cache and the control socket both give these monitors. -/
def SeesMonitors {κ : Type} (monitors : List Monitor) : (c : Cmd κ) → Ans c → Prop
  | .cache (.get .monitors), answer => ∀ cached, answer = some cached → cached = monitors
  | .cache (.hypr (.query .monitors)), answer => answer = .ok monitors
  | _, _ => True

def PointsAt {κ : Type} (point : Int × Int) (c : Cmd κ) : Prop :=
  ∀ x y absolute, c = .input (.mouseMove x y absolute) → (x, y) = point

theorem scaleAt_single (m : Monitor) (x y : Int) : scaleAt [m] x y = m.scale := by
  unfold scaleAt
  cases contained : containsPoint m x y <;> cases focused : m.focused <;>
    simp [contained, focused]

theorem pointsAt_of_cache {κ : Type} {point : Int × Int} (c : StateCache.Cmd) :
    PointsAt point (.cache c : Cmd κ) := fun _ _ _ equal => (nomatch equal)

theorem meets_cachedMonitors {κ : Type} (monitors : List Monitor) (point : Int × Int) :
    (cached StateCache.monitors : Handler κ _).Meets (SeesMonitors monitors) (PointsAt point)
      fun read => read = .ok monitors := by
  refine Prog.meets_ask.mpr ⟨pointsAt_of_cache _, fun stored seen => ?_⟩
  cases stored with
  | some v => exact congrArg Except.ok (seen v rfl)
  | none =>
    refine Prog.meets_ask.mpr ⟨pointsAt_of_cache _, fun answer fetched => ?_⟩
    have same : answer = .ok monitors := fetched
    rw [same]
    exact Prog.meets_ask.mpr ⟨pointsAt_of_cache _, fun _ _ => rfl⟩

theorem meets_inputMouseMove {κ : Type} {state : State κ} (monitors : List Monitor) (x y : Int) :
    (inputMouseMove state x y true).Meets (SeesMonitors monitors)
      (PointsAt (devicePoint monitors x y)) fun _ => True := by
  unfold inputMouseMove gated
  split
  · refine Prog.meets_bind.mpr (Prog.meets_bind.mpr ?_)
    refine Prog.wp_mono (fun read _ same => ?_) (meets_cachedMonitors monitors _)
    rw [same]
    refine Prog.meets_ask.mpr ⟨?_, fun answer _ => ?_⟩
    · intro mx my absolute equal
      cases equal
      rfl
    · cases answer <;> trivial
  · trivial

end Daemon

/-! ### The server's side -/

namespace Mcp

variable {id : Json} {op : ClickTextOp} {scene : Scene} {t : TextMatch}

def Absolute (c : Cmd) : Prop :=
  ∀ x y absolute, c = .daemon (.inputMouseMove x y absolute) → absolute = true

theorem absolute_of_still (c : Cmd) (still : Still c) : Absolute c := by
  rintro x y absolute rfl
  cases still

theorem asks_asked_absolute {request : Request} (moves : Absolute (.daemon request)) :
    (asked id request).Asks Absolute :=
  asked_asks moves fun _ _ _ equal => (nomatch equal)

theorem asks_clickAt_absolute (x y : Int) (button : MouseButton) (applied : Content) :
    (clickAt id x y button applied).Asks Absolute := by
  have moved : Absolute (.daemon (.inputMouseMove x y true)) := by
    rintro _ _ _ ⟨⟩
    rfl
  have clicked : Absolute (.daemon (.inputMouseClick button)) := fun _ _ _ equal => (nomatch equal)
  refine (asks_asked_absolute moved).bind fun result => ?_
  cases result with
  | error response => trivial
  | ok value =>
    refine (asks_asked_absolute clicked).bind fun result => ?_
    cases result <;> trivial

theorem asks_clickText_absolute : (handleClickText id op).Asks Absolute := by
  have staged : Staged (handleClickText id op) (textCandidates id op) (matchesFound id op) :=
    staged_clickText op
  have queried : Absolute (.daemon .queryMonitors) := fun _ _ _ equal => (nomatch equal)
  rw [staged.staged]
  refine (staged.still.mono absolute_of_still).bind fun result => ?_
  cases result with
  | error response => trivial
  | ok found =>
    show (matchesFound id op found.1 found.2).Asks Absolute
    unfold matchesFound
    cases chooseMatch id op.requireUnique op.matchIndex found.2 _ _ _ with
    | error response => trivial
    | ok chosen =>
      refine Prog.Asks.bind (asks_asked_absolute queried) fun result => ?_
      rcases result with response | value
      · trivial
      · cases value with
        | monitors monitors =>
          show Prog.Asks Absolute (if op.dryRun then _ else _)
          split
          · trivial
          · exact asks_clickAt_absolute _ _ _ _
        | _ => trivial

/-- A pointer motion, served by a daemon that sees these monitors, puts the pointer within the
tolerance of the point on both axes. -/
def Within (monitors : List Monitor) (point : Int × Int) (tolerance : ℚ) (c : Cmd) : Prop :=
  ∀ x y absolute, c = .daemon (.inputMouseMove x y absolute) →
    ∀ (κ : Type) (state : Daemon.State κ) trace reply,
      Prog.Run (Daemon.inputMouseMove state x y absolute) trace reply →
        (∀ d ∈ trace, Daemon.SeesMonitors monitors d.1 d.2) →
          ∀ d ∈ trace, ∀ px py onScreen, d.1 = .input (.mouseMove px py onScreen) →
            |(px - point.1 : ℚ)| ≤ tolerance ∧ |(py - point.2 : ℚ)| ≤ tolerance

/-- In every run of the click over the scene, its motions put the pointer there. -/
def Lands (id : Json) (op : ClickTextOp) (scene : Scene) (point : Int × Int) (tolerance : ℚ) : Prop :=
  ∀ run response, Prog.Run (handleClickText id op) run response →
    (∀ e ∈ run, scene.Shows e.1 e.2) → ∀ e ∈ run, Within scene.monitors point tolerance e.1

theorem clickPoint_fullScreen {m : Monitor} (explicit : op.activeWindow = false)
    (full : op.region = none) (single : scene.monitors = [m]) :
    scene.clickPoint op.toFindTextOp t =
      (sat32 (roundHalfAway (t.bbox.center.1 / m.scale)),
        sat32 (roundHalfAway (t.bbox.center.2 / m.scale))) := by
  have whole : scene.region op.toFindTextOp = none := by
    rw [Scene.region, if_neg (by simp [explicit]), full]
  have scale : scene.scale op.toFindTextOp = m.scale := by
    rw [Scene.scale, whole, single, pickScale]
    cases focused : m.focused <;> simp [focused]
  rw [Scene.clickPoint, whole, scale]
  rfl

/-- On one output, with any positive scale at which the logical point is an `i32`, the pointer stays
within half of the scale and half a pixel of the centre of the match. -/
theorem clickText_lands {m : Monitor} (explicit : op.activeWindow = false) (full : op.region = none)
    (chooses : scene.Chooses op t) (single : scene.monitors = [m]) (positive : 0 < m.scale)
    (fitsX : InI32 (roundHalfAway (t.bbox.center.1 / m.scale)))
    (fitsY : InI32 (roundHalfAway (t.bbox.center.2 / m.scale))) :
    Lands id op scene t.bbox.center ((m.scale + 1) / 2) := by
  intro run response clicked shown e member x y absolute moved κ state trace reply served seen
    d asked px py onScreen pointed
  have aims : Aims id op scene (scene.clickPoint op.toFindTextOp t) := aims_clickPoint chooses
  have aimed := (aims run response clicked shown).1 e member x y absolute moved
  have direct := asks_clickText_absolute.of_run clicked e member x y absolute moved
  rw [direct] at served
  have target := ((Daemon.meets_inputMouseMove scene.monitors x y).of_run served seen).1
    d asked px py onScreen pointed
  rw [clickPoint_fullScreen explicit full single, sat32_of_in fitsX, sat32_of_in fitsY] at aimed
  rw [single, Daemon.devicePoint, Daemon.scaleAt_single] at target
  obtain ⟨rfl, rfl⟩ := Prod.mk.inj aimed
  obtain ⟨rfl, rfl⟩ := Prod.mk.inj target
  have axis (center : Int) (inside : InI32 center) :
      |(sat32 (roundHalfAway (roundHalfAway (center / m.scale) * m.scale)) - center : ℚ)| ≤
        (m.scale + 1) / 2 := by
    have closer := abs_sat32_sub_le inside (roundHalfAway (roundHalfAway (center / m.scale) * m.scale))
    have cast : |(sat32 (roundHalfAway (roundHalfAway (center / m.scale) * m.scale)) - center : ℚ)| ≤
        |(roundHalfAway (roundHalfAway (center / m.scale) * m.scale) - center : ℚ)| := by
      exact_mod_cast closer
    exact cast.trans (abs_round_chain_le positive center)
  exact ⟨axis _ (inI32_sat32 _), axis _ (inI32_sat32 _)⟩

theorem saveClick_lands :
    Lands .null (saveClick none) saveScene saveMatch.bbox.center ((2 + 1) / 2) := by
  have chooses : saveScene.Chooses (saveClick none) saveMatch := saveClick_chooses (by simp)
  exact clickText_lands (m := ⟨0, "eDP-1", 3840, 2160, 0, 0, 2, true, none⟩) rfl rfl chooses rfl
    (by decide +kernel) (by decide +kernel) (by decide +kernel)

/-- The same button at (3000, 25) on an output with the scale 1/10000000. -/
def tinyScene : Scene where
  window := none
  words := [⟨"Save", ⟨2980, 20, 40, 10⟩, 95⟩]
  monitors := [⟨0, "eDP-1", 3840, 2160, 0, 0, 1 / 10000000, true, none⟩]

theorem tiny_scale_misses :
    ¬Lands .null (saveClick none) tinyScene (3000, 25) ((1 / 10000000 + 1) / 2) := by
  intro lands
  have chooses : tinyScene.Chooses (saveClick none) ⟨"Save", ⟨2980, 20, 40, 10⟩, 95⟩ :=
    { focused := fun active => nomatch active
      valid := by simp [Scene.region, saveClick]
      found := by
        show (findWordRuns tinyScene.words "save" false)[0]? = _
        decide
      unique := fun _ _ => by
        show (findWordRuns tinyScene.words "save" false).length ≤ 1
        decide }
  have met : (handleClickText .null (saveClick none)).Meets tinyScene.Shows
      (Within tinyScene.monitors (3000, 25) ((1 / 10000000 + 1) / 2)) fun _ => True :=
    (Prog.meets_iff_runs tinyScene.shows_some).mpr fun run response clicked shown =>
      ⟨lands run response clicked shown, trivial⟩
  obtain ⟨_, _, _, last⟩ := meets_lastStage chooses met
  rw [if_neg (by decide)] at last
  have within := (Prog.meets_ask.mp last).1 _ _ true rfl
  have point : tinyScene.clickPoint (saveClick none).toFindTextOp ⟨"Save", ⟨2980, 20, 40, 10⟩, 95⟩ =
      (2147483647, 250000000) := by decide +kernel
  have device : Daemon.devicePoint tinyScene.monitors 2147483647 250000000 = (215, 25) := by
    decide +kernel
  rw [point] at within
  have served : Prog.Run (Daemon.inputMouseMove Daemon.openState 2147483647 250000000 true)
      [⟨.cache (.get .monitors), some tinyScene.monitors⟩,
        ⟨.input (.mouseMove (Daemon.devicePoint tinyScene.monitors 2147483647 250000000).1
          (Daemon.devicePoint tinyScene.monitors 2147483647 250000000).2 true), .ok ()⟩]
      (.ok (.movedTo 2147483647 250000000 true)) :=
    Prog.run_ask.mpr ⟨some tinyScene.monitors, _, rfl,
      Prog.run_ask.mpr ⟨Except.ok (), [], rfl, Prog.run_ret.mpr ⟨rfl, rfl⟩⟩⟩
  have near := within _ Daemon.openState _ _ served (by
    intro d asked
    rcases List.mem_cons.mp asked with rfl | later
    · exact fun _ equal => (Option.some.inj equal).symm
    · rw [List.mem_singleton.mp later]
      trivial) _ (List.mem_cons_of_mem _ List.mem_cons_self) _ _ _ rfl
  rw [device] at near
  exact absurd near.1 (by decide +kernel)

end Mcp

end HyprPilot
