import HyprPilot.Core.Matching
import HyprPilot.Core.Restore

/-!
# One restore reaches its target

The compositor changes the window that a dispatcher names and no other. Under it `applyDiff` runs
the actions of a diff one after the other, so each live window undergoes the actions that carry its
address, which are those of the target window it is matched to.
-/

namespace HyprPilot
open Greedy Interact

/-! ### The compositor -/

namespace Compositor

def modify (sel : WindowSelector) (f : WindowSnapshot → WindowSnapshot) (s : Snapshot) : Snapshot :=
  { s with windows := s.windows.map fun w => if .address w.address = sel then f w else w }

@[simp] theorem modify_windows (a : String) (f : WindowSnapshot → WindowSnapshot) (s : Snapshot) :
    (modify (.address a) f s).windows =
      s.windows.map fun w => if w.address = a then f w else w := by
  simp [modify]

/-- A window that becomes tiled loses its pin. -/
def toggleFloating (w : WindowSnapshot) : WindowSnapshot :=
  { w with floating := !w.floating, pinned := w.pinned && !w.floating }

/-- The dispatchers that a restore sends; any other may do anything. -/
def Effect : Dispatcher → Snapshot → Snapshot → Prop
  | .moveToWorkspaceSilent (.id n) sel, s, t => t = modify sel (fun w => { w with workspaceId := n }) s
  | .toggleFloatingWindow sel, s, t => t = modify sel toggleFloating s
  | .moveWindowPixel sel x y, s, t => t = modify sel (fun w => { w with at_ := (x, y) }) s
  | .resizeWindowPixel sel width height, s, t =>
    t = modify sel (fun w => { w with size := (width, height) }) s
  | .setFullscreenState sel internal _, s, t =>
    t = modify sel (fun w => { w with fullscreen := internal }) s
  | .pinWindow sel, s, t => t = modify sel (fun w => { w with pinned := !w.pinned }) s
  | .focusWindow (.address a), s, t => t = { s with activeWindowAddress := some a }
  | _, _, _ => True

def Answers : (c : Connection.Cmd) → Snapshot → Connection.Ans c → Snapshot → Prop
  | .dispatch d, s, x, t => x = .ok () ∧ Effect d s t
  | .query _, s, _, t => t = s
  | .nowUnix, s, _, t => t = s

end Compositor

/-! ### What an action does -/

def RestoreAction.perform : RestoreAction → WindowSnapshot → WindowSnapshot
  | .moveToWorkspace _ _ toWorkspace, w => { w with workspaceId := toWorkspace }
  | .toggleFloating _ _, w => Compositor.toggleFloating w
  | .repositionFloating _ targetAt targetSize _ _, w => { w with at_ := targetAt, size := targetSize }
  | .setFullscreen _ _ toMode, w => { w with fullscreen := toMode }
  | .setPin _ _, w => { w with pinned := !w.pinned }
  | .windowMissing .., w | .windowNotInSnapshot .., w | .restoreActiveFocus .., w => w

/-- The effect of an action on one window of the live state. -/
def RestoreAction.performOn (w : WindowSnapshot) (action : RestoreAction) : WindowSnapshot :=
  if w.address = action.address then action.perform w else w

def settle (actions : List RestoreAction) (w : WindowSnapshot) : WindowSnapshot :=
  actions.foldl RestoreAction.performOn w

def RestoreAction.focus (active : Option String) : RestoreAction → Option String
  | .restoreActiveFocus address _ => some address
  | _ => active

/-- What the matching reads of a live window. -/
def SameIdentity (v w : WindowSnapshot) : Prop :=
  v.address = w.address ∧ v.pid = w.pid ∧ v.initialClass = w.initialClass ∧
    v.initialTitle = w.initialTitle

theorem performOn_identity (action : RestoreAction) (w : WindowSnapshot) :
    SameIdentity (action.performOn w) w := by
  unfold RestoreAction.performOn
  split
  · cases action <;> exact ⟨rfl, rfl, rfl, rfl⟩
  · exact ⟨rfl, rfl, rfl, rfl⟩

theorem settle_identity (actions : List RestoreAction) (w : WindowSnapshot) :
    SameIdentity (settle actions w) w := by
  induction actions generalizing w with
  | nil => exact ⟨rfl, rfl, rfl, rfl⟩
  | cons action rest ih =>
    have later := ih (action.performOn w)
    have first := performOn_identity action w
    exact ⟨later.1.trans first.1, later.2.1.trans first.2.1, later.2.2.1.trans first.2.2.1,
      later.2.2.2.trans first.2.2.2⟩

@[simp] theorem settle_nil (w : WindowSnapshot) : settle [] w = w := rfl

@[simp] theorem settle_append (first second : List RestoreAction) (w : WindowSnapshot) :
    settle (first ++ second) w = settle second (settle first w) := List.foldl_append

/-- Actions on other windows, and actions that report or focus, leave a window alone. -/
theorem settle_other {actions : List RestoreAction} {w : WindowSnapshot}
    (other : ∀ action ∈ actions, action.address = w.address → action.perform w = w) :
    settle actions w = w := by
  induction actions with
  | nil => rfl
  | cons action rest ih =>
    have still : action.performOn w = w := by
      unfold RestoreAction.performOn
      split
      · exact other action List.mem_cons_self (Eq.symm ‹_›)
      · rfl
    have later := ih fun a member => other a (List.mem_cons_of_mem _ member)
    rw [settle, List.foldl_cons, still]
    exact later

/-! ### The run of `applyDiff` -/

open RestoreAction in
theorem applyAction_exec {action : RestoreAction} {s t : Snapshot} {outcome : ApplyOutcome}
    (run : Prog.Exec Compositor.Answers (applyAction action) s outcome t) :
    t.windows = s.windows.map (performOn · action) ∧
      t.activeWindowAddress = action.focus s.activeWindowAddress := by
  cases action with
  | windowMissing address className title =>
    obtain ⟨-, rfl⟩ := Prog.exec_ret.mp run
    simp [performOn, perform, RestoreAction.focus]
  | windowNotInSnapshot address className =>
    obtain ⟨-, rfl⟩ := Prog.exec_ret.mp run
    simp [performOn, perform, RestoreAction.focus]
  | repositionFloating address targetAt targetSize currentAt currentSize =>
    simp only [applyAction, Prog.call_bind, Prog.exec_ask] at run
    obtain ⟨x, u, ⟨rfl, rfl⟩, run⟩ := run
    obtain ⟨y, v, ⟨rfl, rfl⟩, run⟩ := Prog.exec_ask.mp run
    obtain ⟨-, rfl⟩ := Prog.exec_ret.mp run
    refine ⟨?_, rfl⟩
    simp only [Compositor.modify_windows, List.map_map]
    apply List.map_congr_left
    intro w _
    by_cases named : w.address = address <;> simp [named, performOn, perform, RestoreAction.address]
  | restoreActiveFocus address fromAddress =>
    simp only [applyAction, Prog.call_bind, Prog.exec_ask] at run
    obtain ⟨x, u, ⟨rfl, rfl⟩, run⟩ := run
    obtain ⟨-, rfl⟩ := Prog.exec_ret.mp run
    simp [performOn, perform, RestoreAction.focus]
  -- One dispatch that changes the named window.
  | _ =>
    simp only [applyAction, Prog.call_bind, Prog.exec_ask] at run
    obtain ⟨x, u, ⟨rfl, rfl⟩, run⟩ := run
    obtain ⟨-, rfl⟩ := Prog.exec_ret.mp run
    exact ⟨Compositor.modify_windows _ _ _, rfl⟩

theorem applyActions_exec {actions : List RestoreAction} {s t : Snapshot}
    {outcomes : List ApplyOutcome}
    (run : Prog.Exec Compositor.Answers (applyActions actions) s outcomes t) :
    t.windows = s.windows.map (settle actions) ∧
      t.activeWindowAddress = actions.foldl RestoreAction.focus s.activeWindowAddress := by
  induction actions generalizing s outcomes with
  | nil =>
    obtain ⟨-, rfl⟩ := Prog.exec_ret.mp run
    exact ⟨(List.map_id _).symm, rfl⟩
  | cons action rest ih =>
    unfold applyActions at run
    obtain ⟨outcome, u, first, run⟩ := Prog.exec_bind.mp run
    obtain ⟨outcomes', v, later, run⟩ := Prog.exec_bind.mp run
    obtain ⟨-, rfl⟩ := Prog.exec_ret.mp run
    obtain ⟨windows, focused⟩ := applyAction_exec first
    obtain ⟨windows', focused'⟩ := ih later
    rw [windows', focused', windows, focused, List.map_map]
    exact ⟨rfl, rfl⟩

/-! ### Each window -/

def restored (snap w : WindowSnapshot) : WindowSnapshot :=
  { w with
    workspaceId := snap.workspaceId
    at_ := if snap.floating then snap.at_ else w.at_
    size := if snap.floating then snap.size else w.size
    floating := snap.floating
    fullscreen := snap.fullscreen
    pinned := snap.floating && snap.pinned }

theorem settle_if {c : Prop} [Decidable c] {action : RestoreAction} {v : WindowSnapshot}
    (named : v.address = action.address) :
    settle (if c then [action] else []) v = if c then action.perform v else v := by
  split
  · simp [settle, RestoreAction.performOn, named]
  · rfl

theorem settle_matched {snap w : WindowSnapshot} (pinnedFloats : w.pinned = true → w.floating = true) :
    settle (matchedActions snap w) w = restored snap w := by
  have kept := fun actions => (settle_identity actions w).1
  unfold matchedActions
  rw [settle_append, settle_if (by exact kept _), settle_append, settle_if (by exact kept _),
    settle_append, settle_if (by exact kept _), settle_append, settle_if (by exact kept _),
    settle_if rfl]
  -- Each stage sets its fields whether or not it has an action.
  have moved : (if w.workspaceId ≠ snap.workspaceId then
      (RestoreAction.moveToWorkspace w.address w.workspaceId snap.workspaceId).perform w else w) =
      { w with workspaceId := snap.workspaceId } := by
    split
    · rfl
    · rename_i same
      rw [← not_not.mp same]
  rw [moved]
  have floated : ∀ v : WindowSnapshot, v.floating = w.floating → v.pinned = w.pinned →
      (if w.floating ≠ snap.floating then
        (RestoreAction.toggleFloating w.address snap.floating).perform v else v) =
      { v with floating := snap.floating, pinned := w.pinned && snap.floating } := by
    rintro ⟨⟩ rfl rfl
    cases floats : snap.floating <;> cases here : w.floating <;> cases pin : w.pinned <;>
      simp_all [RestoreAction.perform, Compositor.toggleFloating]
  have placed : ∀ v : WindowSnapshot, v.at_ = w.at_ → v.size = w.size →
      (if snap.floating ∧ (w.at_ ≠ snap.at_ ∨ w.size ≠ snap.size) then
        (RestoreAction.repositionFloating w.address snap.at_ snap.size w.at_ w.size).perform v else v) =
      { v with at_ := if snap.floating then snap.at_ else w.at_
               size := if snap.floating then snap.size else w.size } := by
    rintro ⟨⟩ rfl rfl
    split
    · rename_i differs
      simp [RestoreAction.perform, differs.1]
    · rename_i same
      cases floats : snap.floating <;> simp_all
  have filled : ∀ v : WindowSnapshot, v.fullscreen = w.fullscreen →
      (if w.fullscreen ≠ snap.fullscreen then
        (RestoreAction.setFullscreen w.address w.fullscreen snap.fullscreen).perform v else v) =
      { v with fullscreen := snap.fullscreen } := by
    rintro ⟨⟩ rfl
    split
    · rfl
    · rename_i same
      rw [not_not.mp same]
  have pinned : ∀ v : WindowSnapshot, v.pinned = (w.pinned && snap.floating) →
      (if snap.floating ∧ w.pinned ≠ snap.pinned then
        (RestoreAction.setPin w.address snap.pinned).perform v else v) =
      { v with pinned := snap.floating && snap.pinned } := by
    rintro ⟨⟩ rfl
    cases floats : snap.floating <;> cases pins : snap.pinned <;> cases pin : w.pinned <;>
      simp [RestoreAction.perform]
  rw [floated, placed, filled, pinned]
  all_goals rfl

theorem matchedActions_restored (snap w : WindowSnapshot) :
    matchedActions snap (restored snap w) = [] := by
  cases floats : snap.floating <;> simp [matchedActions, restored, floats]

theorem settle_missing (snap w : WindowSnapshot) : settle (pairActions (snap, none)) w = w := by
  apply settle_other
  intro action member _
  rw [List.mem_singleton.mp member]
  rfl

theorem settle_unmatched {pairs : List WindowSnapshot.Pair} {w : WindowSnapshot}
    (absent : w.address ∉ matchedAddresses pairs) : settle (pairs.flatMap pairActions) w = w := by
  apply settle_other
  intro action member named
  obtain ⟨⟨snap, found⟩, paired, acting⟩ := List.mem_flatMap.mp member
  cases found with
  | none =>
    rw [List.mem_singleton.mp acting]
    rfl
  | some v =>
    have same : v.address = w.address := (matchedActions_address action acting).symm.trans named
    exact absurd (same ▸ mem_keysOf paired) absent

theorem settle_pairs {pairs : List WindowSnapshot.Pair} (unique : (matchedAddresses pairs).Nodup)
    {snap w : WindowSnapshot} (paired : (snap, some w) ∈ pairs) :
    settle (pairs.flatMap pairActions) w = settle (matchedActions snap w) w := by
  induction pairs with
  | nil => cases paired
  | cons p rest ih =>
    obtain ⟨target, found⟩ := p
    rw [List.flatMap_cons, settle_append]
    cases found with
    | none =>
      rw [settle_missing]
      rcases List.mem_cons.mp paired with same | later
      · cases same
      · exact ih unique later
    | some v =>
      obtain ⟨new, unique'⟩ := List.nodup_cons.mp unique
      rcases List.mem_cons.mp paired with same | later
      · cases same
        apply settle_unmatched
        rwa [(settle_identity _ _).1]
      · have untouched : settle (pairActions (target, some v)) w = w := by
          apply settle_other
          intro action acting named
          have same : v.address = w.address := (matchedActions_address action acting).symm.trans named
          have taken : v.address ∈ matchedAddresses rest := same ▸ mem_keysOf later
          exact absurd taken new
        rw [untouched, ih unique' later]

theorem extra_focus_perform {target live : Snapshot} {action : RestoreAction}
    (member : action ∈ extraActions target live ++ focusActions target live) (w : WindowSnapshot) :
    action.perform w = w := by
  rcases List.mem_append.mp member with extra | focus
  · obtain ⟨v, -, rfl⟩ := List.mem_map.mp extra
    rfl
  · unfold focusActions at focus
    split at focus
    · split at focus
      · rw [List.mem_singleton.mp focus]
        rfl
      · cases focus
    · cases focus

theorem settle_diff (target live : Snapshot) (w : WindowSnapshot) :
    settle (target.diffAgainst live).actions w =
      settle ((target.pairing live).flatMap pairActions) w := by
  rw [diffAgainst_actions, List.append_assoc, settle_append]
  exact settle_other fun action member _ => extra_focus_perform member _

/-! ### The focus -/

theorem foldl_focus_other {actions : List RestoreAction} (active : Option String)
    (other : ∀ action ∈ actions, action.focus active = active) :
    actions.foldl RestoreAction.focus active = active := by
  induction actions with
  | nil => rfl
  | cons action rest ih =>
    rw [List.foldl_cons, other action List.mem_cons_self]
    exact ih fun a member => other a (List.mem_cons_of_mem _ member)

theorem pairActions_focus {p : WindowSnapshot.Pair} {action : RestoreAction}
    (acting : action ∈ pairActions p) (active : Option String) : action.focus active = active := by
  obtain ⟨snap, found⟩ := p
  cases found with
  | none =>
    rw [List.mem_singleton.mp acting]
    rfl
  | some w =>
    simp only [pairActions, matchedActions, List.mem_append] at acting
    rcases acting with (((acting | acting) | acting) | acting) | acting
    all_goals
      split at acting
      · rw [List.mem_singleton.mp acting]
        rfl
      · cases acting

theorem focus_diff (target live : Snapshot) (active : Option String) :
    (target.diffAgainst live).actions.foldl RestoreAction.focus active =
      (focusActions target live).foldl RestoreAction.focus active := by
  have unmoved : ((target.pairing live).flatMap pairActions ++ extraActions target live).foldl
      RestoreAction.focus active = active := by
    apply foldl_focus_other
    intro action member
    rcases List.mem_append.mp member with paired | extra
    · obtain ⟨p, -, acting⟩ := List.mem_flatMap.mp paired
      exact pairActions_focus acting active
    · obtain ⟨v, -, rfl⟩ := List.mem_map.mp extra
      rfl
  rw [diffAgainst_actions, List.foldl_append, unmoved]

/-! ### The second matching -/

theorem sole_map {α β : Type} (g : α → β) (as : List α) : sole (as.map g) = (sole as).map g := by
  match as with
  | [] | [_] | _ :: _ :: _ => rfl

section Renewed

variable {f : WindowSnapshot → WindowSnapshot} (same : ∀ w, SameIdentity (f w) w)
include same

theorem unmatched_map (live : List WindowSnapshot) (taken : List String) :
    unmatched (live.map f) taken = (unmatched live taken).map f := by
  unfold unmatched
  rw [List.filter_map]
  congr 1
  apply List.filter_congr
  intro w _
  simp [(same w).1]

theorem matchByPid_map (live : List WindowSnapshot) (taken : List String) (snap : WindowSnapshot) :
    matchByPid snap (live.map f) taken = (matchByPid snap live taken).map f := by
  unfold matchByPid
  rw [unmatched_map same, List.filter_map, sole_map]
  have sees : (fun w => decide (w.pid = snap.pid)) ∘ f = fun w => decide (w.pid = snap.pid) := by
    funext w
    simp [(same w).2.1]
  rw [sees]
  split <;> rfl

theorem matchByClass_map (live : List WindowSnapshot) (taken : List String) (snap : WindowSnapshot) :
    matchByClass snap (live.map f) taken = (matchByClass snap live taken).map f := by
  unfold matchByClass
  rw [unmatched_map same, List.filter_map, sole_map]
  have sees : (fun w : WindowSnapshot => decide (w.initialClass = snap.initialClass ∧
      w.initialTitle = snap.initialTitle)) ∘ f =
      fun w => decide (w.initialClass = snap.initialClass ∧ w.initialTitle = snap.initialTitle) := by
    funext w
    simp [(same w).2.2.1, (same w).2.2.2]
  rw [sees]
  split <;> rfl

theorem matchByAddress_map (live : List WindowSnapshot) (taken : List String)
    (snap : WindowSnapshot) :
    matchByAddress snap (live.map f) taken = (matchByAddress snap live taken).map f := by
  unfold matchByAddress
  have sees : (fun w => decide (w.address = snap.address)) ∘ f =
      fun w => decide (w.address = snap.address) := by
    funext w
    simp [(same w).1]
  rw [unmatched_map same, List.find?_map, sees]

theorem pickLive_map (live : List WindowSnapshot) (taken : List String) (snap : WindowSnapshot) :
    pickLive (live.map f) taken snap = (pickLive live taken snap).map f := by
  unfold pickLive matchLiveWindow
  rw [matchByAddress_map same, matchByPid_map same, matchByClass_map same]
  cases matchByAddress snap live taken with
  | some w => rfl
  | none => cases matchByPid snap live taken <;> rfl

theorem pairing_map {target live live' : Snapshot} (windows : live'.windows = live.windows.map f) :
    target.pairing live' = (target.pairing live).map fun p => (p.1, p.2.map f) := by
  unfold Snapshot.pairing pairsFrom
  rw [windows]
  exact assign_map (pickLive_map same live.windows) (fun w => (same w).1) [] target.windows

end Renewed

/-! ### Convergence -/

section Converges

variable {target live : Snapshot}

theorem settle_paired {snap w : WindowSnapshot} (paired : (snap, some w) ∈ target.pairing live)
    (pinnedFloats : w.pinned = true → w.floating = true) :
    settle (target.diffAgainst live).actions w = restored snap w := by
  have unique : (matchedAddresses (target.pairing live)).Nodup :=
    keysOf_nodup (pickLive_fresh live.windows) [] target.windows
  rw [settle_diff, settle_pairs unique paired, settle_matched pinnedFloats]

theorem settle_unpaired (distinct : (live.windows.map (·.address)).Nodup) {w : WindowSnapshot}
    (here : w ∈ live.windows) (alone : ∀ snap, (snap, some w) ∉ target.pairing live) :
    settle (target.diffAgainst live).actions w = w := by
  rw [settle_diff]
  apply settle_unmatched
  intro taken
  obtain ⟨⟨snap, found⟩, paired, key⟩ := List.mem_filterMap.mp taken
  cases found with
  | none => cases key
  | some v =>
    have same : v.address = w.address := Option.some.inj key
    have equal : v = w := List.inj_on_of_nodup_map distinct (pair_mem_live paired) here same
    exact alone snap (equal ▸ paired)

theorem focus_restored {a : String} (wanted : target.activeWindowAddress = some a)
    (isLive : ∃ w ∈ live.windows, w.address = a) :
    (target.diffAgainst live).actions.foldl RestoreAction.focus live.activeWindowAddress = some a := by
  have anyLive : live.windows.any (fun w => w.address = a) = true := by simpa using isLive
  rw [focus_diff]
  simp only [focusActions, wanted, anyLive, and_true]
  by_cases already : live.activeWindowAddress = some a
  · rw [if_neg (by simpa using already)]
    exact already
  · rw [if_pos already]
    rfl

/-- With the target's window focused, or not live, there is no focus to restore. -/
theorem focusActions_nil {live' : Snapshot}
    (addresses : live'.windows.map (·.address) = live.windows.map (·.address))
    (focused : ∀ a, target.activeWindowAddress = some a → (∃ w ∈ live.windows, w.address = a) →
      live'.activeWindowAddress = some a) :
    focusActions target live' = [] := by
  unfold focusActions
  cases wanted : target.activeWindowAddress with
  | none => rfl
  | some a =>
    apply if_neg
    rintro ⟨unfocused, anyLive⟩
    have isLive : ∃ w' ∈ live'.windows, w'.address = a := by simpa using anyLive
    have member : a ∈ live.windows.map (·.address) := by
      rw [← addresses]
      simpa using isLive
    exact unfocused (focused a wanted (by simpa using member))

end Converges

/-- A restore brings every matched window to its target and leaves the others alone, focuses the
target's window if it is live, and leaves nothing to do for a second restore. -/
theorem restore_converges {target live live' : Snapshot} {outcomes : List ApplyOutcome}
    (distinct : (live.windows.map (·.address)).Nodup)
    (pinnedFloats : ∀ w ∈ live.windows, w.pinned = true → w.floating = true)
    (run : Prog.Exec Compositor.Answers (applyDiff (target.diffAgainst live)) live outcomes live') :
    live'.windows.map (·.address) = live.windows.map (·.address) ∧
    (∀ snap w, (snap, some w) ∈ target.pairing live → ∃ w' ∈ live'.windows, w'.address = w.address ∧
      w'.workspaceId = snap.workspaceId ∧ w'.floating = snap.floating ∧
      w'.fullscreen = snap.fullscreen ∧
      (snap.floating = true → w'.at_ = snap.at_ ∧ w'.size = snap.size ∧ w'.pinned = snap.pinned)) ∧
    (∀ w ∈ live.windows, (∀ snap, (snap, some w) ∉ target.pairing live) → w ∈ live'.windows) ∧
    (∀ a, target.activeWindowAddress = some a → (∃ w ∈ live.windows, w.address = a) →
      live'.activeWindowAddress = some a) ∧
    ∀ action ∈ (target.diffAgainst live').actions, isMutating action = false := by
  obtain ⟨windows, active⟩ := applyActions_exec run
  have addresses : live'.windows.map (·.address) = live.windows.map (·.address) := by
    rw [windows, List.map_map]
    exact List.map_congr_left fun w _ => (settle_identity _ w).1
  have settled : ∀ snap w, (snap, some w) ∈ target.pairing live →
      settle (target.diffAgainst live).actions w = restored snap w :=
    fun snap w paired => settle_paired paired (pinnedFloats w (pair_mem_live paired))
  have focused : ∀ a, target.activeWindowAddress = some a → (∃ w ∈ live.windows, w.address = a) →
      live'.activeWindowAddress = some a :=
    fun a wanted isLive => active.trans (focus_restored wanted isLive)
  refine ⟨addresses, ?_, ?_, focused, ?_⟩
  · intro snap w paired
    have arrived : restored snap w ∈ live'.windows := by
      rw [windows, ← settled snap w paired]
      exact List.mem_map_of_mem (pair_mem_live paired)
    refine ⟨restored snap w, arrived, rfl, rfl, rfl, rfl, ?_⟩
    intro floats
    simp [restored, floats]
  · intro w here alone
    rw [windows, ← settle_unpaired distinct here alone]
    exact List.mem_map_of_mem here
  · intro action member
    rw [diffAgainst_actions, focusActions_nil addresses focused, List.append_nil,
      pairing_map (settle_identity _) windows] at member
    rcases List.mem_append.mp member with paired | extra
    · obtain ⟨p', inPairs, acting⟩ := List.mem_flatMap.mp paired
      obtain ⟨⟨snap, found⟩, matched, rfl⟩ := List.mem_map.mp inPairs
      cases found with
      | none =>
        rw [List.mem_singleton.mp acting]
        rfl
      | some w =>
        have nothing : pairActions (snap, some (settle (target.diffAgainst live).actions w)) = [] := by
          rw [settled snap w matched]
          exact matchedActions_restored snap w
        rw [Option.map_some, nothing] at acting
        cases acting
    · obtain ⟨v, -, rfl⟩ := List.mem_map.mp extra
      rfl

def tiledWindow : WindowSnapshot :=
  { address := "0xa", pid := 1, initialClass := "kitty", initialTitle := "kitty"
    className := "kitty", title := "~", workspaceId := 1, monitorName := "eDP-1"
    at_ := (0, 0), size := (100, 100), floating := false, fullscreen := 0, pinned := false }

def pinnedWindow : WindowSnapshot :=
  { tiledWindow with workspaceId := 2, at_ := (30, 40), floating := true, pinned := true }

def desktopOf (w : WindowSnapshot) (active : Option String) : Snapshot :=
  { name := "desk", createdAtUnix := 0, hyprlandVersion := "0.55.2", monitors := []
    workspaces := [], windows := [w], activeWindowAddress := active, activeWorkspaceId := 1 }

theorem restore_converges_pinned :
    ∃ outcomes live', Prog.Exec Compositor.Answers
      (applyDiff ((desktopOf pinnedWindow (some "0xa")).diffAgainst (desktopOf tiledWindow none)))
      (desktopOf tiledWindow none) outcomes live' ∧
      live'.windows = [pinnedWindow] ∧ live'.activeWindowAddress = some "0xa" ∧
      ∀ action ∈ ((desktopOf pinnedWindow (some "0xa")).diffAgainst live').actions,
        isMutating action = false := by
  have run : Prog.Exec Compositor.Answers
      (applyDiff ((desktopOf pinnedWindow (some "0xa")).diffAgainst (desktopOf tiledWindow none)))
      (desktopOf tiledWindow none) _ _ :=
    .ask (.ok ()) ⟨rfl, rfl⟩ (.ask (.ok ()) ⟨rfl, rfl⟩ (.ask (.ok ()) ⟨rfl, rfl⟩
      (.ask (.ok ()) ⟨rfl, rfl⟩ (.ask (.ok ()) ⟨rfl, rfl⟩ (.ask (.ok ()) ⟨rfl, rfl⟩ (.ret _ _))))))
  exact ⟨_, _, run, by decide, by decide,
    (restore_converges (by decide) (by decide) run).2.2.2.2⟩

end HyprPilot
