import HyprPilot.Mcp.ClickPoint

/-!
# The command `click-text`

The command line captures the screen, recognises its words and clicks the chosen match on its own:
only the pointer commands go to the daemon. The centre of the match in the picture, with the region's
origin added to it, is the point it clicks.
-/

namespace HyprPilot
open Interact

namespace Cli

/-- The options after `clap` read them; `region` holds the values of `--region`. -/
structure ClickTextCmd where
  query : String
  region : Option (List Int)
  caseSensitive : Bool
  minConfidence : Int
  psm : Nat
  lang : String
  button : String
  matchIndex : Nat
  allowAmbiguous : Bool
  apply : Bool

inductive Cmd where
  | grimDetect
  | grimFull (monitor : Option String) (format : ImageFormat)
  | grimRegion (region : Region) (format : ImageFormat)
  | tesseractDetect
  | extractWords (lang : String) (psm : Psm) (minConfidence : Int) (image : List UInt8)
  | connect (socket : String)
  | call (request : Request)

@[reducible] def Ans : Cmd → Type
  | .grimDetect | .tesseractDetect => Except VisionError Unit
  | .grimFull .. | .grimRegion .. => Except VisionError (List UInt8)
  | .extractWords .. => Except VisionError (List Word)
  | .connect _ => Except ClientError Unit
  | .call _ => Except ClientError Reply

abbrev Session (α : Type) := Prog Cmd Ans α

/-- An `anyhow` error: a text of the command line, or an error of a library. -/
inductive Failure where
  | message (text : String)
  | vision (e : VisionError)
  | input (e : InputError)
  | client (e : ClientError)
  | context (text : String) (e : ClientError)

/-- What the command prints when it succeeds. -/
inductive Printed where
  | preview (button : MouseButton) (chosen : TextMatch) (x y : Int) (matchIndex total : Nat)
  | clicked (chosen : TextMatch) (x y : Int) (total : Nat)

def renderPreview (button : MouseButton) (chosen : TextMatch) (x y : Int) (matchIndex total : Nat) :
    String :=
  "[dry_run] would " ++ Tools.buttonDebug button ++ "-click `" ++ chosen.text ++
    "` at compositor " ++ renderPoint x y ++ " (bbox " ++
    renderBox chosen.bbox.x chosen.bbox.y chosen.bbox.w chosen.bbox.h ++ ", conf " ++
    toString chosen.confidence ++ ", match " ++ toString matchIndex ++ "/" ++ toString total ++
    ").\nPass --apply to click for real."

/-- The text of a preview; a click is printed as JSON. -/
def Printed.rendered : Printed → Option String
  | .preview button chosen x y matchIndex total =>
    some (renderPreview button chosen x y matchIndex total)
  | .clicked .. => none

/-! ### Arguments -/

def regionFromVec : Option (List Int) → Except Failure (Option Region)
  | none => .ok none
  | some [x, y, w, h] =>
    if w ≤ 0 ∨ h ≤ 0 then
      .error (.message ("--region width/height must be > 0; got " ++ toString w ++ "x" ++ toString h))
    else .ok (some ⟨x, y, w.toNat, h.toNat⟩)
  | some _ => .error (.message "--region needs exactly 4 values: X Y W H")

def parsePsm (mode : Nat) : Except Failure Psm :=
  if mode = 3 then .ok .auto
  else if mode = 6 then .ok .singleBlock
  else if mode = 7 then .ok .singleLine
  else if mode = 11 then .ok .sparseText
  else
    .error (.message ("unsupported --psm value `" ++ toString mode ++
      "`: expected one of 3 (auto), 6 (single-block), 7 (single-line), 11 (sparse)"))

def parseArgs (c : ClickTextCmd) : Except Failure (Option Region × Psm × MouseButton) := do
  let region ← regionFromVec c.region
  let psm ← parsePsm c.psm
  let button ← (MouseButton.parse c.button).mapError .input
  return (region, psm, button)

/-! ### The click -/

/-- A call of a library whose error ends the command. -/
def attempt {ε α : Type} (wrap : ε → Failure) (p : Session (Except ε α)) :
    Session (Except Failure α) := do
  return (← p).mapError wrap

def capture (region : Option Region) : Session (Except Failure (List UInt8)) :=
  (attempt .vision (.call Cmd.grimDetect)).andThen fun () =>
    match region with
    | some r =>
      match r.validate with
      | .error e => return .error (.vision e)
      | .ok () => attempt .vision (.call (Cmd.grimRegion r .png))
    | none => attempt .vision (.call (Cmd.grimFull none .png))

def recognise (c : ClickTextCmd) (psm : Psm) (image : List UInt8) :
    Session (Except Failure (List Word)) :=
  (attempt .vision (.call Cmd.tesseractDetect)).andThen fun () =>
    attempt .vision (.call (Cmd.extractWords c.lang psm c.minConfidence image))

def openDaemon (socket : String) : Session (Except Failure Unit) :=
  attempt (.context ("connect to daemon at " ++ socket)) (.call (Cmd.connect socket))

def callDaemon (request : Request) : Session (Except Failure Reply) :=
  attempt .client (.call (Cmd.call request))

def renderAmbiguity (query : String) (found : List TextMatch) : String :=
  let rows := (found.take 8).zipIdx.map fun (m, i) =>
    "  [" ++ toString i ++ "] `" ++ m.text ++ "` at (" ++ toString m.bbox.x ++ "," ++
      toString m.bbox.y ++ ") " ++ toString m.bbox.w ++ "x" ++ toString m.bbox.h ++ " conf=" ++
      toString m.confidence
  "ambiguous: `" ++ query ++ "` matched " ++ toString found.length ++
    " regions. Pass --match-index N or --allow-ambiguous:\n" ++ Text.joinWith "\n" rows

def chooseMatch (c : ClickTextCmd) (found : List TextMatch) : Except Failure TextMatch :=
  if found.isEmpty then .error (.message ("no on-screen text matched `" ++ c.query ++ "`"))
  else if c.allowAmbiguous = false ∧ 1 < found.length ∧ c.matchIndex = 0 then
    .error (.message (renderAmbiguity c.query found))
  else
    match found[c.matchIndex]? with
    | some chosen => .ok chosen
    | none =>
      .error (.message ("--match-index " ++ toString c.matchIndex ++ " out of bounds: only " ++
        toString found.length ++ " match(es)"))

def clickChosen (c : ClickTextCmd) (socket : String) (button : MouseButton) (total : Nat)
    (chosen : TextMatch) : Session (Except Failure Printed) :=
  let (x, y) := chosen.bbox.center
  if c.apply then
    (openDaemon socket).andThen fun () =>
      (callDaemon (.inputMouseMove x y true)).andThen fun _ =>
        (callDaemon (.inputMouseClick button)).andThen fun _ =>
          return .ok (.clicked chosen x y total)
  else return .ok (.preview button chosen x y c.matchIndex total)

def runClickTextCmd (c : ClickTextCmd) (socket : String) : Session (Except Failure Printed) :=
  match parseArgs c with
  | .error e => return .error e
  | .ok (region, psm, button) =>
    (capture region).andThen fun image =>
      (recognise c psm image).andThen fun words =>
        let found := (findWordRuns words c.query c.caseSensitive).map (Mcp.translated region)
        match chooseMatch c found with
        | .error e => return .error e
        | .ok chosen => clickChosen c socket button found.length chosen

/-! ### Aim -/

/-- Every command may fail; recognition that succeeds reads the words of the scene. -/
def Shows (scene : Mcp.Scene) : (c : Cmd) → Ans c → Prop
  | .extractWords .., answer => ∀ words, answer = .ok words → words = scene.words
  | _, _ => True

theorem shows_some (scene : Mcp.Scene) (c : Cmd) : ∃ answer, Shows scene c answer := by
  cases c with
  | extractWords => exact ⟨.ok scene.words, fun _ equal => (Except.ok.inj equal).symm⟩
  | grimDetect => exact ⟨.ok (), trivial⟩
  | tesseractDetect => exact ⟨.ok (), trivial⟩
  | grimFull => exact ⟨.ok [], trivial⟩
  | grimRegion => exact ⟨.ok [], trivial⟩
  | connect => exact ⟨.ok (), trivial⟩
  | call => exact ⟨.error .closed, trivial⟩

def MovesTo (point : Int × Int) (c : Cmd) : Prop :=
  ∀ x y absolute, c = .call (.inputMouseMove x y absolute) → (x, y) = point

def PreviewsAt (point : Int × Int) (result : Except Failure Printed) : Prop :=
  ∀ button chosen x y matchIndex total,
    result = .ok (.preview button chosen x y matchIndex total) → (x, y) = point

/-- In every run over the scene, each pointer motion goes to the point and a preview prints it. -/
def Aims (c : ClickTextCmd) (socket : String) (scene : Mcp.Scene) (point : Int × Int) : Prop :=
  ∀ run result, Prog.Run (runClickTextCmd c socket) run result →
    (∀ e ∈ run, Shows scene e.1 e.2) → (∀ e ∈ run, MovesTo point e.1) ∧ PreviewsAt point result

abbrev Aimed {α : Type} (scene : Mcp.Scene) (point : Int × Int) (post : α → Prop) (p : Session α) :
    Prop :=
  p.Meets (Shows scene) (MovesTo point) post

theorem aims_iff {c : ClickTextCmd} {socket : String} {scene : Mcp.Scene} {point : Int × Int} :
    Aims c socket scene point ↔ Aimed scene point (PreviewsAt point) (runClickTextCmd c socket) :=
  (Prog.meets_iff_runs (shows_some scene)).symm

section Steps

variable {scene : Mcp.Scene} {point : Int × Int}

theorem meets_attempt {ε α β : Type} {wrap : ε → Failure} {p : Session (Except ε α)}
    {f : α → Session (Except Failure β)} {post : Except Failure β → Prop}
    (failed : ∀ e, post (.error e))
    (ran : Aimed scene point (fun answer => ∀ a, answer = .ok a → Aimed scene point post (f a)) p) :
    Aimed scene point post ((attempt wrap p).andThen f) := by
  refine Prog.meets_andThen (Prog.meets_bind.mpr (Prog.wp_mono (fun answer _ goes => ?_) ran))
  cases answer with
  | error e => exact failed _
  | ok a => exact goes a rfl

theorem meets_capture {region : Option Region} {post : Except Failure (List UInt8) → Prop}
    (any : ∀ result, post result) : Aimed scene point post (capture region) := by
  refine meets_attempt (fun _ => any _) (Prog.meets_ask.mpr ⟨fun _ _ _ equal => (nomatch equal), ?_⟩)
  intro _ _ _ _
  cases region with
  | none => exact Prog.meets_ask.mpr ⟨fun _ _ _ equal => (nomatch equal), fun _ _ => any _⟩
  | some r =>
    dsimp only
    cases r.validate with
    | error e => exact any _
    | ok _ => exact Prog.meets_ask.mpr ⟨fun _ _ _ equal => (nomatch equal), fun _ _ => any _⟩

theorem meets_recognise {c : ClickTextCmd} {psm : Psm} {image : List UInt8}
    {post : Except Failure (List Word) → Prop} (failed : ∀ e, post (.error e))
    (read : post (.ok scene.words)) : Aimed scene point post (recognise c psm image) := by
  refine meets_attempt failed (Prog.meets_ask.mpr ⟨fun _ _ _ equal => (nomatch equal), ?_⟩)
  intro _ _ _ _
  refine Prog.meets_ask.mpr ⟨fun _ _ _ equal => (nomatch equal), fun answer shown => ?_⟩
  cases answer with
  | error e => exact failed _
  | ok words =>
    obtain rfl := shown words rfl
    exact read

theorem previewsAt_error (e : Failure) : PreviewsAt point (.error e) :=
  fun _ _ _ _ _ _ equal => nomatch equal

theorem meets_clickChosen {c : ClickTextCmd} {socket : String} {button : MouseButton} {total : Nat}
    {chosen : TextMatch} :
    Aimed scene chosen.bbox.center (PreviewsAt chosen.bbox.center)
      (clickChosen c socket button total chosen) := by
  show Aimed _ _ _ (if c.apply then _ else _)
  split
  · refine meets_attempt previewsAt_error
      (Prog.meets_ask.mpr ⟨fun _ _ _ equal => (nomatch equal), fun _ _ _ _ => ?_⟩)
    refine meets_attempt previewsAt_error (Prog.meets_ask.mpr ⟨?_, fun _ _ _ _ => ?_⟩)
    · intro x y absolute equal
      cases equal
      rfl
    · refine meets_attempt previewsAt_error
        (Prog.meets_ask.mpr ⟨fun _ _ _ equal => (nomatch equal), fun _ _ _ _ => ?_⟩)
      exact fun _ _ _ _ _ _ equal => nomatch equal
  · intro _ _ _ _ _ _ equal
    cases equal
    rfl

end Steps

section Chosen

variable {c : ClickTextCmd} {socket : String} {scene : Mcp.Scene} {region : Option Region}
  {psm : Psm} {button : MouseButton} {chosen : TextMatch}

theorem aims_center (parsed : parseArgs c = .ok (region, psm, button))
    (chooses : chooseMatch c ((findWordRuns scene.words c.query c.caseSensitive).map
      (Mcp.translated region)) = .ok chosen) :
    Aims c socket scene chosen.bbox.center := by
  refine aims_iff.mpr ?_
  rw [runClickTextCmd, parsed]
  refine Prog.meets_andThen (meets_capture fun image => ?_)
  cases image with
  | error e => exact previewsAt_error e
  | ok image =>
    refine Prog.meets_andThen (meets_recognise previewsAt_error ?_)
    simp only [chooses]
    exact meets_clickChosen

theorem reaches_capture (valid : ∀ r, region = some r → r.validate = .ok ()) :
    (capture region).Exec (fun c (_ : Unit) answer (_ : Unit) => Shows scene c answer) ()
      (.ok []) () := by
  refine Prog.exec_ask.mpr ⟨Except.ok (), (), trivial, ?_⟩
  cases region with
  | none => exact .ask (u := ()) (Except.ok []) trivial (.ret _ _)
  | some r =>
    dsimp only
    rw [valid r rfl]
    exact .ask (u := ()) (Except.ok []) trivial (.ret _ _)

theorem reaches_recognise {image : List UInt8} :
    (recognise c psm image).Exec (fun c (_ : Unit) answer (_ : Unit) => Shows scene c answer) ()
      (.ok scene.words) () := by
  refine Prog.exec_ask.mpr ⟨Except.ok (), (), trivial, ?_⟩
  refine .ask (u := ()) (Except.ok scene.words) ?_ (.ret _ _)
  exact fun _ equal => (Except.ok.inj equal).symm

theorem center_of_aims {point : Int × Int} (parsed : parseArgs c = .ok (region, psm, button))
    (valid : ∀ r, region = some r → r.validate = .ok ())
    (chooses : chooseMatch c ((findWordRuns scene.words c.query c.caseSensitive).map
      (Mcp.translated region)) = .ok chosen)
    (aims : Aims c socket scene point) : chosen.bbox.center = point := by
  have running := aims_iff.mp aims
  rw [runClickTextCmd, parsed] at running
  have captured := (Prog.meets_bind.mp running).of_exec (reaches_capture valid)
  have recognised := (Prog.meets_bind.mp captured).of_exec reaches_recognise
  simp only [chooses] at recognised
  have clicking : Aimed scene point (PreviewsAt point) (if c.apply then _ else _) := recognised
  by_cases wet : c.apply
  · rw [if_pos wet] at clicking
    have connected := (Prog.meets_ask.mp clicking).2 (Except.ok ()) trivial
    exact (Prog.meets_ask.mp connected).1 _ _ _ rfl
  · rw [if_neg wet] at clicking
    exact Prog.meets_ret.mp clicking _ _ _ _ _ _ rfl

end Chosen

end Cli

end HyprPilot
