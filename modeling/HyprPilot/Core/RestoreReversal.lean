import HyprPilot.Core.ExactMatch
import HyprPilot.Core.RestoreConvergence

/-!
# A restore and its way back

The capture before a restore has the addresses of all windows that are live after it, so its diff
matches each window by address, whatever the restore had matched it to. One more restore then brings
every window to its captured state.
-/

namespace HyprPilot
open Greedy Interact

theorem nothingStolen_of_live {live targets : List WindowSnapshot} (taken : List String)
    (allLive : ∀ snap ∈ targets, ∃ w ∈ live, w.address = snap.address) :
    nothingStolen live taken targets = true := by
  induction targets generalizing taken with
  | nil => rfl
  | cons snap rest ih =>
    have here : live.any (fun w => w.address = snap.address) = true := by
      simpa using allLive snap List.mem_cons_self
    rw [nothingStolen, if_pos here]
    exact ih _ fun s member => allLive s (List.mem_cons_of_mem _ member)

/-- A snapshot whose windows are the live ones is paired address by address. -/
theorem pair_of_address {target live : Snapshot}
    (distinct : (target.windows.map (·.address)).Nodup)
    (same : live.windows.map (·.address) = target.windows.map (·.address)) {snap w : WindowSnapshot}
    (wanted : snap ∈ target.windows) (here : w ∈ live.windows) (address : w.address = snap.address) :
    (snap, some w) ∈ target.pairing live := by
  have allLive : ∀ s ∈ target.windows, ∃ v ∈ live.windows, v.address = s.address := by
    intro s member
    have member : s.address ∈ live.windows.map (·.address) := by
      rw [same]
      exact List.mem_map_of_mem member
    exact List.mem_map.mp member
  have pairs : ExactPairs live.windows (target.pairing live) :=
    (exactPairs_iff (same ▸ distinct) distinct (by simp)).mpr (nothingStolen_of_live [] allLive)
  obtain ⟨found, paired⟩ := exists_pair (pickLive live.windows) (·.address) [] wanted
  have got : found = some w := pairs _ paired w here address
  exact got ▸ paired

/-- Every window that a restore leaves pinned floats. -/
theorem settle_pinnedFloats {target live : Snapshot} (distinct : (live.windows.map (·.address)).Nodup)
    (pinnedFloats : ∀ w ∈ live.windows, w.pinned = true → w.floating = true) {w : WindowSnapshot}
    (here : w ∈ live.windows) (pinned : (settle (target.diffAgainst live).actions w).pinned = true) :
    (settle (target.diffAgainst live).actions w).floating = true := by
  by_cases matched : ∃ snap, (snap, some w) ∈ target.pairing live
  · obtain ⟨snap, paired⟩ := matched
    rw [settle_paired paired (pinnedFloats w here)] at pinned ⊢
    exact (Bool.and_eq_true_iff.mp pinned).1
  · rw [settle_unpaired distinct here (fun snap paired => matched ⟨snap, paired⟩)] at pinned ⊢
    exact pinnedFloats w here pinned

/-- Restoring the state before a restore of any snapshot brings every window back, and the focus. -/
theorem restore_undone {target live after back : Snapshot} {outcomes outcomes' : List ApplyOutcome}
    (distinct : (live.windows.map (·.address)).Nodup)
    (pinnedFloats : ∀ w ∈ live.windows, w.pinned = true → w.floating = true)
    (restoring : Prog.Exec Compositor.Answers (applyDiff (target.diffAgainst live)) live outcomes after)
    (undoing : Prog.Exec Compositor.Answers (applyDiff (live.diffAgainst after)) after outcomes' back) :
    back.windows.map (·.address) = live.windows.map (·.address) ∧
    (∀ w ∈ live.windows, ∃ v ∈ back.windows, v.address = w.address ∧
      v.workspaceId = w.workspaceId ∧ v.floating = w.floating ∧ v.fullscreen = w.fullscreen ∧
      v.pinned = w.pinned ∧ (w.floating = true → v.at_ = w.at_ ∧ v.size = w.size)) ∧
    ∀ a, live.activeWindowAddress = some a → (∃ w ∈ live.windows, w.address = a) →
      back.activeWindowAddress = some a := by
  have settled : after.windows = live.windows.map (settle (target.diffAgainst live).actions) :=
    (applyActions_exec restoring).1
  have addresses : after.windows.map (·.address) = live.windows.map (·.address) := by
    rw [settled, List.map_map]
    exact List.map_congr_left fun w _ => (settle_identity _ w).1
  have afterPinned : ∀ v ∈ after.windows, v.pinned = true → v.floating = true := by
    intro v member
    rw [settled] at member
    obtain ⟨w, here, rfl⟩ := List.mem_map.mp member
    exact settle_pinnedFloats distinct pinnedFloats here
  obtain ⟨windows, active⟩ := applyActions_exec undoing
  have kept : back.windows.map (·.address) = after.windows.map (·.address) := by
    rw [windows, List.map_map]
    exact List.map_congr_left fun w _ => (settle_identity _ w).1
  refine ⟨kept.trans addresses, fun w here => ?_, fun a wanted present => ?_⟩
  · have moved : settle (target.diffAgainst live).actions w ∈ after.windows := by
      rw [settled]
      exact List.mem_map_of_mem here
    have paired := pair_of_address distinct addresses here moved (settle_identity _ w).1
    have returned := settle_paired paired (afterPinned _ moved)
    refine ⟨restored w (settle (target.diffAgainst live).actions w), ?_,
      (settle_identity _ w).1, rfl, rfl, rfl, ?_, ?_⟩
    · rw [windows, ← returned]
      exact List.mem_map_of_mem moved
    · have floats := pinnedFloats w here
      show (w.floating && w.pinned) = w.pinned
      cases pins : w.pinned with
      | false => rw [Bool.and_false]
      | true => rw [floats pins, Bool.and_true]
    · intro floats
      simp [restored, floats]
  · have present : a ∈ live.windows.map (·.address) := List.mem_map.mpr present
    rw [← addresses] at present
    exact active.trans (focus_restored wanted (List.mem_map.mp present))

def retiledWindow : WindowSnapshot :=
  { pinnedWindow with workspaceId := 1, floating := false, pinned := false }

/-- A pinned floating window that a restore tiles gets its place and its pin back. -/
theorem restore_undone_pinned :
    ∃ outcomes outcomes' back,
      Prog.Exec Compositor.Answers
        (applyDiff ((desktopOf tiledWindow none).diffAgainst (desktopOf pinnedWindow (some "0xa"))))
        (desktopOf pinnedWindow (some "0xa")) outcomes (desktopOf retiledWindow (some "0xa")) ∧
      Prog.Exec Compositor.Answers
        (applyDiff ((desktopOf pinnedWindow (some "0xa")).diffAgainst
          (desktopOf retiledWindow (some "0xa"))))
        (desktopOf retiledWindow (some "0xa")) outcomes' back ∧
      ∃ v ∈ back.windows, v.floating = true ∧ v.pinned = true ∧ v.at_ = (30, 40) := by
  have restoring : Prog.Exec Compositor.Answers
      (applyDiff ((desktopOf tiledWindow none).diffAgainst (desktopOf pinnedWindow (some "0xa"))))
      (desktopOf pinnedWindow (some "0xa")) _ (desktopOf retiledWindow (some "0xa")) :=
    .ask (.ok ()) ⟨rfl, rfl⟩ (.ask (.ok ()) ⟨rfl, rfl⟩ (.ret _ _))
  have undoing : Prog.Exec Compositor.Answers
      (applyDiff ((desktopOf pinnedWindow (some "0xa")).diffAgainst
        (desktopOf retiledWindow (some "0xa"))))
      (desktopOf retiledWindow (some "0xa")) _ _ :=
    .ask (.ok ()) ⟨rfl, rfl⟩ (.ask (.ok ()) ⟨rfl, rfl⟩ (.ask (.ok ()) ⟨rfl, rfl⟩ (.ret _ _)))
  have undone := restore_undone (by decide) (by decide) restoring undoing
  obtain ⟨v, here, -, -, floating, -, pinned, placed⟩ := undone.2.1 pinnedWindow (by decide)
  exact ⟨_, _, _, restoring, undoing, v, here, floating, pinned, (placed rfl).1⟩

end HyprPilot
