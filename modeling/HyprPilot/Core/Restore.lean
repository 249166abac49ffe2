import HyprPilot.Core.Snapshot

/-!
# Restore

`applyDiff` executes the mutating actions of a diff on the live connection, one after the other,
and reports an outcome for every action. `SnapshotRestorePreview` is what a dry run returns instead.
-/

namespace HyprPilot
open Interact Connection

/-! ### Apply -/

structure ApplyOutcome where
  action : RestoreAction
  ok : Bool
  skipped : Bool
  error : Option String
  deriving DecidableEq

def ApplyOutcome.ofResult (action : RestoreAction) : CoreResult Unit → ApplyOutcome
  | .ok () => { action, ok := true, skipped := false, error := none }
  | .error e => { action, ok := false, skipped := false, error := some e.text }

def applyAction (action : RestoreAction) : Call ApplyOutcome :=
  match action with
  | .moveToWorkspace address _ toWorkspace => do
    return .ofResult action (← dispatch (.moveToWorkspaceSilent (.id toWorkspace) (.address address)))
  | .toggleFloating address _ => do
    return .ofResult action (← dispatch (.toggleFloatingWindow (.address address)))
  | .repositionFloating address targetAt targetSize _ _ => do
    match ← dispatch (.moveWindowPixel (.address address) targetAt.1 targetAt.2) with
    | .error e => return { action, ok := false, skipped := false, error := some ("move: " ++ e.text) }
    | .ok () =>
      return .ofResult action
        (← dispatch (.resizeWindowPixel (.address address) targetSize.1 targetSize.2))
  | .setFullscreen address _ toMode => do
    return .ofResult action (← dispatch (.setFullscreenState (.address address) toMode (-1)))
  | .setPin address _ => do
    return .ofResult action (← dispatch (.pinWindow (.address address)))
  | .restoreActiveFocus address _ => do
    return .ofResult action (← dispatch (.focusWindow (.address address)))
  | .windowMissing .. | .windowNotInSnapshot .. =>
    return { action, ok := true, skipped := true, error := none }

def applyActions : List RestoreAction → Call (List ApplyOutcome)
  | [] => return []
  | action :: rest => do
    let outcome ← applyAction action
    let outcomes ← applyActions rest
    return outcome :: outcomes

def applyDiff (diff : SnapshotDiff) : Call (List ApplyOutcome) := applyActions diff.actions

/-! ### Preview -/

structure PreviewSummary where
  totalActions : Nat := 0
  mutatingActions : Nat := 0
  moveToWorkspace : Nat := 0
  toggleFloating : Nat := 0
  repositionFloating : Nat := 0
  setFullscreen : Nat := 0
  setPin : Nat := 0
  restoreActiveFocus : Nat := 0
  windowsMissing : Nat := 0
  windowsExtra : Nat := 0
  deriving DecidableEq

def PreviewSummary.count (s : PreviewSummary) (action : RestoreAction) : PreviewSummary :=
  let s := { s with
    totalActions := s.totalActions + 1
    mutatingActions := s.mutatingActions + if isMutating action then 1 else 0 }
  match action with
  | .moveToWorkspace .. => { s with moveToWorkspace := s.moveToWorkspace + 1 }
  | .toggleFloating .. => { s with toggleFloating := s.toggleFloating + 1 }
  | .repositionFloating .. => { s with repositionFloating := s.repositionFloating + 1 }
  | .setFullscreen .. => { s with setFullscreen := s.setFullscreen + 1 }
  | .setPin .. => { s with setPin := s.setPin + 1 }
  | .restoreActiveFocus .. => { s with restoreActiveFocus := s.restoreActiveFocus + 1 }
  | .windowMissing .. => { s with windowsMissing := s.windowsMissing + 1 }
  | .windowNotInSnapshot .. => { s with windowsExtra := s.windowsExtra + 1 }

/-- English list join: "a", "a and b", "a, b, and c". -/
def joinWithAnd : List String → String
  | [] => ""
  | [a] => a
  | [a, b] => a ++ " and " ++ b
  | parts => Text.joinWith ", " parts.dropLast ++ ", and " ++ parts.getLastD ""

def countWindows (n : Nat) : String := toString n ++ " window" ++ if n = 1 then "" else "s"

def renderHumanSummary (s : PreviewSummary) : String :=
  let parts :=
    (if 0 < s.moveToWorkspace then ["move " ++ countWindows s.moveToWorkspace] else []) ++
    (if 0 < s.toggleFloating then ["toggle floating on " ++ countWindows s.toggleFloating] else []) ++
    (if 0 < s.repositionFloating then ["reposition " ++ countWindows s.repositionFloating] else []) ++
    (if 0 < s.setFullscreen then ["change fullscreen on " ++ countWindows s.setFullscreen] else []) ++
    (if 0 < s.setPin then ["toggle pin on " ++ countWindows s.setPin] else []) ++
    (if 0 < s.restoreActiveFocus then ["refocus the snapshot's active window"] else [])
  (if parts.isEmpty then "No changes — current state already matches the snapshot."
    else "Would " ++ joinWithAnd parts ++ ".") ++
  (if 0 < s.windowsMissing then
    " " ++ countWindows s.windowsMissing ++ " in the snapshot " ++
      (if s.windowsMissing = 1 then "is" else "are") ++
      " not currently running and will be skipped."
    else "") ++
  (if 0 < s.windowsExtra then
    " " ++ countWindows s.windowsExtra ++ " open now " ++
      (if s.windowsExtra = 1 then "is" else "are") ++
      " not in the snapshot and will be left alone."
    else "")

structure SnapshotRestorePreview where
  snapshotName : String
  snapshotCreatedAtUnix : Int
  diff : SnapshotDiff
  summary : PreviewSummary
  willApply : List RestoreAction
  willSkip : List RestoreAction
  humanSummary : String
  deriving DecidableEq

def SnapshotRestorePreview.fromSnapshotAndDiff (snap : Snapshot) (diff : SnapshotDiff) :
    SnapshotRestorePreview :=
  let summary := diff.actions.foldl PreviewSummary.count {}
  { snapshotName := snap.name
    snapshotCreatedAtUnix := snap.createdAtUnix
    diff := diff
    summary := summary
    willApply := diff.actions.filter isMutating
    willSkip := diff.actions.filter fun a => !isMutating a
    humanSummary := renderHumanSummary summary }

end HyprPilot
