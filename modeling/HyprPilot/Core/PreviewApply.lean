import HyprPilot.Core.Restore

/-!
# A preview and its restore

The preview of a diff says which actions a restore applies and which it skips. The restore reports
every action in order, sends the commands of the applied ones only, and goes on after a failure.
-/

namespace HyprPilot
open Interact Connection

/-- The commands of an action, in the order in which they are sent. -/
def RestoreAction.commands : RestoreAction → List Dispatcher
  | .moveToWorkspace address _ toWorkspace =>
    [.moveToWorkspaceSilent (.id toWorkspace) (.address address)]
  | .toggleFloating address _ => [.toggleFloatingWindow (.address address)]
  | .repositionFloating address targetAt targetSize _ _ =>
    [.moveWindowPixel (.address address) targetAt.1 targetAt.2,
      .resizeWindowPixel (.address address) targetSize.1 targetSize.2]
  | .setFullscreen address _ toMode => [.setFullscreenState (.address address) toMode (-1)]
  | .setPin address _ => [.pinWindow (.address address)]
  | .restoreActiveFocus address _ => [.focusWindow (.address address)]
  | .windowMissing .. | .windowNotInSnapshot .. => []

/-- The commands are sent in order, each once, up to the first that fails; `true` if none does. -/
inductive Attempted : List Dispatcher → List (Sigma Ans) → Bool → Prop where
  | done : Attempted [] [] true
  | accepted {d : Dispatcher} {rest : List Dispatcher} {tr : List (Sigma Ans)} {ok : Bool} :
    Attempted rest tr ok → Attempted (d :: rest) (⟨.dispatch d, .ok ()⟩ :: tr) ok
  | rejected {d : Dispatcher} {rest : List Dispatcher} (e : CoreError) :
    Attempted (d :: rest) [⟨.dispatch d, .error e⟩] false

/-- Two parts of a list that together are the list, each in its order. -/
structure Complementary {α : Type} (as bs whole : List α) : Prop where
  left : as.Sublist whole
  right : bs.Sublist whole
  together : (as ++ bs).Perm whole
  apart : ∀ a ∈ as, a ∉ bs

def PreviewSummary.kinds (s : PreviewSummary) : Nat :=
  s.moveToWorkspace + s.toggleFloating + s.repositionFloating + s.setFullscreen + s.setPin +
    s.restoreActiveFocus + s.windowsMissing + s.windowsExtra

/-- The preview of a diff, and a run that applies the diff. -/
structure Agrees (preview : SnapshotRestorePreview) (diff : SnapshotDiff) (tr : List (Sigma Ans))
    (outcomes : List ApplyOutcome) : Prop where
  parts : Complementary preview.willApply preview.willSkip diff.actions
  mutating : preview.summary.mutatingActions = preview.willApply.length
  counted : preview.willApply.length = diff.mutationCount
  total : preview.summary.totalActions = diff.actions.length
  kinds : preview.summary.kinds = preview.summary.totalActions
  reported : outcomes.map (·.action) = diff.actions
  applied : (outcomes.filter (!·.skipped)).map (·.action) = preview.willApply
  skipped : (outcomes.filter (·.skipped)).map (·.action) = preview.willSkip
  attempts : ∃ segments, tr = segments.flatten ∧
    List.Forall₂ (fun outcome segment => Attempted outcome.action.commands segment outcome.ok)
      outcomes segments
  only : ∀ e ∈ tr, ∃ action ∈ preview.willApply, ∃ d ∈ action.commands, e.1 = .dispatch d
  sent : ∀ action ∈ preview.willApply, action.commands ≠ []

/-! ### The preview -/

theorem complementary_filter {α : Type} (p : α → Bool) (whole : List α) :
    Complementary (whole.filter p) (whole.filter fun a => !p a) whole where
  left := List.filter_sublist
  right := List.filter_sublist
  together := List.filter_append_perm p whole
  apart := by
    intro a holds fails
    have yes := (List.mem_filter.mp holds).2
    have no := (List.mem_filter.mp fails).2
    rw [yes] at no
    cases no

theorem count_total (s : PreviewSummary) (action : RestoreAction) :
    (s.count action).totalActions = s.totalActions + 1 := by
  cases action <;> rfl

theorem count_kinds (s : PreviewSummary) (action : RestoreAction) :
    (s.count action).kinds = s.kinds + 1 := by
  cases action <;> simp only [PreviewSummary.count, PreviewSummary.kinds] <;> omega

theorem count_mutating (s : PreviewSummary) (action : RestoreAction) :
    (s.count action).mutatingActions = s.mutatingActions + if isMutating action then 1 else 0 := by
  cases action <;> rfl

theorem foldl_count (actions : List RestoreAction) (s : PreviewSummary) :
    (actions.foldl PreviewSummary.count s).totalActions = s.totalActions + actions.length ∧
      (actions.foldl PreviewSummary.count s).kinds = s.kinds + actions.length ∧
      (actions.foldl PreviewSummary.count s).mutatingActions =
        s.mutatingActions + (actions.filter isMutating).length := by
  induction actions generalizing s with
  | nil => exact ⟨rfl, rfl, rfl⟩
  | cons action rest ih =>
    obtain ⟨total, kinds, mutating⟩ := ih (s.count action)
    rw [List.foldl_cons, total, kinds, mutating, count_total, count_kinds, count_mutating,
      List.length_cons, List.filter_cons]
    refine ⟨by omega, by omega, ?_⟩
    split
    · rw [List.length_cons]
      omega
    · omega

/-! ### The restore -/

theorem commands_eq_nil {action : RestoreAction} : action.commands = [] ↔ isMutating action = false := by
  cases action <;> simp [RestoreAction.commands, isMutating]

theorem Attempted.commands_only {ds : List Dispatcher} {tr : List (Sigma Ans)} {ok : Bool}
    (attempted : Attempted ds tr ok) : ∀ e ∈ tr, ∃ d ∈ ds, e.1 = .dispatch d := by
  induction attempted with
  | done => exact fun e member => absurd member List.not_mem_nil
  | accepted _ ih =>
    intro e member
    rcases List.mem_cons.mp member with rfl | later
    · exact ⟨_, List.mem_cons_self, rfl⟩
    · obtain ⟨d, inside, same⟩ := ih e later
      exact ⟨d, List.mem_cons_of_mem _ inside, same⟩
  | rejected e =>
    intro e' member
    rw [List.mem_singleton.mp member]
    exact ⟨_, List.mem_cons_self, rfl⟩

/-- One command, and the outcome that its answer gives. -/
theorem attempted_single {d : Dispatcher} {action : RestoreAction} {tr : List (Sigma Ans)}
    {outcome : ApplyOutcome}
    (run : Prog.Run (do return ApplyOutcome.ofResult action (← dispatch d)) tr outcome) :
    Attempted [d] tr outcome.ok ∧ outcome.action = action ∧ outcome.skipped = false := by
  obtain ⟨answer, rest, rfl, ending⟩ := Prog.run_ask.mp run
  obtain ⟨rfl, rfl⟩ := Prog.run_ret.mp ending
  cases answer with
  | ok _ => exact ⟨.accepted .done, rfl, rfl⟩
  | error e => exact ⟨.rejected e, rfl, rfl⟩

theorem applyAction_run {action : RestoreAction} {tr : List (Sigma Ans)} {outcome : ApplyOutcome}
    (run : Prog.Run (applyAction action) tr outcome) :
    Attempted action.commands tr outcome.ok ∧ outcome.action = action ∧
      outcome.skipped = !isMutating action := by
  cases action with
  | repositionFloating address targetAt targetSize currentAt currentSize =>
    obtain ⟨moved, rest, rfl, later⟩ := Prog.run_ask.mp run
    cases moved with
    | error e =>
      obtain ⟨rfl, rfl⟩ := Prog.run_ret.mp later
      exact ⟨.rejected e, rfl, rfl⟩
    | ok _ =>
      obtain ⟨attempted, same, skipped⟩ := attempted_single later
      exact ⟨.accepted attempted, same, skipped⟩
  | windowMissing | windowNotInSnapshot =>
    obtain ⟨rfl, rfl⟩ := Prog.run_ret.mp run
    exact ⟨.done, rfl, rfl⟩
  | moveToWorkspace | toggleFloating | setFullscreen | setPin | restoreActiveFocus =>
    exact attempted_single run

theorem applyActions_run {actions : List RestoreAction} {tr : List (Sigma Ans)}
    {outcomes : List ApplyOutcome} (run : Prog.Run (applyActions actions) tr outcomes) :
    outcomes.map (·.action) = actions ∧ (∀ outcome ∈ outcomes, outcome.skipped = !isMutating outcome.action) ∧
      ∃ segments, tr = segments.flatten ∧
        List.Forall₂ (fun outcome segment => Attempted outcome.action.commands segment outcome.ok)
          outcomes segments := by
  induction actions generalizing tr outcomes with
  | nil =>
    obtain ⟨rfl, rfl⟩ := Prog.run_ret.mp run
    exact ⟨rfl, by simp, [], rfl, .nil⟩
  | cons action rest ih =>
    obtain ⟨first, last, outcome, rfl, begun, later⟩ := Prog.run_bind.mp run
    obtain ⟨next, ending, others, rfl, going, done⟩ := Prog.run_bind.mp later
    obtain ⟨rfl, rfl⟩ := Prog.run_ret.mp done
    obtain ⟨attempted, rfl, skipped⟩ := applyAction_run begun
    obtain ⟨reported, skips, segments, rfl, attempts⟩ := ih going
    refine ⟨by rw [List.map_cons, reported], List.forall_mem_cons.mpr ⟨skipped, skips⟩,
      first :: segments, by simp, .cons attempted attempts⟩

theorem applyActions_commands {actions : List RestoreAction} {tr : List (Sigma Ans)}
    {outcomes : List ApplyOutcome} (run : Prog.Run (applyActions actions) tr outcomes) :
    ∀ e ∈ tr, ∃ action ∈ actions.filter isMutating, ∃ d ∈ action.commands, e.1 = .dispatch d := by
  induction actions generalizing tr outcomes with
  | nil =>
    obtain ⟨rfl, rfl⟩ := Prog.run_ret.mp run
    exact fun e member => absurd member List.not_mem_nil
  | cons action rest ih =>
    obtain ⟨first, last, outcome, rfl, begun, later⟩ := Prog.run_bind.mp run
    obtain ⟨next, ending, others, rfl, going, done⟩ := Prog.run_bind.mp later
    obtain ⟨rfl, rfl⟩ := Prog.run_ret.mp done
    intro e member
    rw [List.append_nil] at member
    rcases List.mem_append.mp member with here | after
    · obtain ⟨d, inside, same⟩ := (applyAction_run begun).1.commands_only e here
      have mutates : isMutating action = true := by
        by_contra reports
        rw [commands_eq_nil.mpr (by simpa using reports)] at inside
        cases inside
      exact ⟨action, List.mem_filter.mpr ⟨List.mem_cons_self, mutates⟩, d, inside, same⟩
    · obtain ⟨other, kept, found⟩ := ih going e after
      exact ⟨other, List.mem_filter.mpr ⟨List.mem_cons_of_mem _ (List.mem_filter.mp kept).1,
        (List.mem_filter.mp kept).2⟩, found⟩

theorem filter_reported {outcomes : List ApplyOutcome} {p : ApplyOutcome → Bool}
    {q : RestoreAction → Bool} (same : ∀ outcome ∈ outcomes, p outcome = q outcome.action) :
    (outcomes.filter p).map (·.action) = (outcomes.map (·.action)).filter q := by
  rw [List.filter_map, List.filter_congr same]
  rfl

/-- A restore does what the preview of its diff says, whatever commands fail. -/
theorem preview_agrees {snap : Snapshot} {diff : SnapshotDiff} {tr : List (Sigma Ans)}
    {outcomes : List ApplyOutcome} (run : Prog.Run (applyDiff diff) tr outcomes) :
    Agrees (.fromSnapshotAndDiff snap diff) diff tr outcomes := by
  obtain ⟨reported, skips, segments, flat, attempts⟩ := applyActions_run run
  obtain ⟨total, kinds, mutating⟩ := foldl_count diff.actions {}
  have sent : ∀ action ∈ diff.actions.filter isMutating, action.commands ≠ [] := by
    intro action member silent
    have mutates := (List.mem_filter.mp member).2
    rw [commands_eq_nil.mp silent] at mutates
    cases mutates
  constructor
  case parts => exact complementary_filter isMutating diff.actions
  case mutating => exact mutating.trans (Nat.zero_add _)
  case counted => rfl
  case total => exact total.trans (Nat.zero_add _)
  case kinds => exact (kinds.trans (by simp [PreviewSummary.kinds])).trans total.symm
  case reported => exact reported
  case applied =>
    rw [filter_reported (q := isMutating), reported]
    · rfl
    · intro outcome member
      rw [skips outcome member, Bool.not_not]
  case skipped =>
    rw [filter_reported (q := fun a => !isMutating a) skips, reported]
    rfl
  case attempts => exact ⟨segments, flat, attempts⟩
  case only => exact applyActions_commands run
  case sent => exact sent

/-- A window that cannot be moved is not resized, and the next action goes on. -/
theorem preview_agrees_rejected :
    ∃ tr outcomes, Agrees
      (.fromSnapshotAndDiff ⟨"desk", 0, "0.55.2", [], [], [], none, 1⟩
        ⟨[.repositionFloating "0xa" (1, 2) (3, 4) (0, 0) (3, 4), .setPin "0xa" true]⟩)
      ⟨[.repositionFloating "0xa" (1, 2) (3, 4) (0, 0) (3, 4), .setPin "0xa" true]⟩ tr outcomes ∧
      tr.length = 2 := by
  have run : Prog.Run
      (applyDiff ⟨[.repositionFloating "0xa" (1, 2) (3, 4) (0, 0) (3, 4), .setPin "0xa" true]⟩) _ _ :=
    Prog.run_ask.mpr ⟨Except.error (.rejected "dispatch" "no"), _, rfl,
      Prog.run_ask.mpr ⟨Except.ok (), _, rfl, .ret _⟩⟩
  exact ⟨_, _, preview_agrees run, rfl⟩

end HyprPilot
