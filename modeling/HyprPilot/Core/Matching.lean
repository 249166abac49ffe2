import HyprPilot.Base.Greedy
import HyprPilot.Core.Snapshot

/-!
# The diff as a greedy assignment

`diffAgainst` assigns live windows to target windows greedily, with window addresses as keys. The
pairs of that assignment determine all its actions.
-/

namespace HyprPilot
open Greedy

abbrev WindowSnapshot.Pair := WindowSnapshot × Option WindowSnapshot

def pickLive (live : List WindowSnapshot) (taken : List String) (snap : WindowSnapshot) :
    Option WindowSnapshot :=
  matchLiveWindow snap live taken

/-- Each target window with the live window that the diff matches it to. -/
def pairsFrom (live : List WindowSnapshot) (taken : List String) (targets : List WindowSnapshot) :
    List WindowSnapshot.Pair :=
  assign (pickLive live) (·.address) taken targets

def Snapshot.pairing (target live : Snapshot) : List WindowSnapshot.Pair :=
  pairsFrom live.windows [] target.windows

def pairActions : WindowSnapshot.Pair → List RestoreAction
  | (snap, some liveW) => matchedActions snap liveW
  | (snap, none) => [.windowMissing snap.address snap.className snap.title]

abbrev matchedAddresses (pairs : List WindowSnapshot.Pair) : List String :=
  keysOf (·.address) pairs

/-! ### What a match is -/

theorem mem_unmatched {w : WindowSnapshot} {live : List WindowSnapshot} {taken : List String} :
    w ∈ unmatched live taken ↔ w ∈ live ∧ w.address ∉ taken := by
  simp [unmatched]

theorem sole_eq_some {α : Type} {as : List α} {a : α} : sole as = some a ↔ as = [a] := by
  unfold sole
  split
  · simp
  · rename_i other
    simp only [reduceCtorEq, false_iff]
    exact fun same => other a same

theorem mem_of_sole {α : Type} {as : List α} {a : α} (h : sole as = some a) : a ∈ as := by
  rw [sole_eq_some.mp h]
  exact List.mem_singleton_self a

theorem matchLiveWindow_cases {snap w : WindowSnapshot} {live : List WindowSnapshot}
    {taken : List String} (h : matchLiveWindow snap live taken = some w) :
    matchByAddress snap live taken = some w ∨
    (matchByAddress snap live taken = none ∧ matchByPid snap live taken = some w) ∨
    (matchByAddress snap live taken = none ∧ matchByPid snap live taken = none ∧
      matchByClass snap live taken = some w) := by
  unfold matchLiveWindow at h
  split at h
  · rename_i found
    exact Or.inl (found.trans h)
  · rename_i missing
    split at h
    · rename_i found
      exact Or.inr (Or.inl ⟨missing, found.trans h⟩)
    · rename_i absent
      exact Or.inr (Or.inr ⟨missing, absent, h⟩)

theorem matchLiveWindow_unmatched {snap w : WindowSnapshot} {live : List WindowSnapshot}
    {taken : List String} (h : matchLiveWindow snap live taken = some w) :
    w ∈ unmatched live taken := by
  rcases matchLiveWindow_cases h with found | ⟨-, found⟩ | ⟨-, -, found⟩
  · exact List.mem_of_find?_eq_some found
  · unfold matchByPid at found
    split at found
    · exact (List.mem_filter.mp (mem_of_sole found)).1
    · cases found
  · unfold matchByClass at found
    split at found
    · exact (List.mem_filter.mp (mem_of_sole found)).1
    · cases found

theorem pickLive_fresh (live : List WindowSnapshot) : Fresh (pickLive live) (·.address) :=
  fun _ _ _ h => (mem_unmatched.mp (matchLiveWindow_unmatched h)).2

theorem pair_mem_live {live targets : List WindowSnapshot} {taken : List String}
    {snap w : WindowSnapshot} (paired : (snap, some w) ∈ pairsFrom live taken targets) :
    w ∈ live := by
  obtain ⟨before, picked⟩ := picked_of_pair paired
  exact (mem_unmatched.mp (matchLiveWindow_unmatched picked)).1

/-! ### The actions of the diff -/

theorem diffWindows_eq (live : List WindowSnapshot) (taken : List String)
    (targets : List WindowSnapshot) :
    diffWindows live taken targets =
      ((pairsFrom live taken targets).flatMap pairActions,
        (matchedAddresses (pairsFrom live taken targets)).reverse ++ taken) := by
  induction targets generalizing taken with
  | nil => rfl
  | cons snap rest ih =>
    cases h : matchLiveWindow snap live taken with
    | some w =>
      have head : pickLive live taken snap = some w := h
      rw [diffWindows, h, pairsFrom, assign_some head]
      simp only [ih, pairsFrom, List.flatMap_cons, pairActions, matchedAddresses, keysOf,
        List.filterMap_cons, Option.map_some, List.reverse_cons, List.append_assoc,
        List.singleton_append]
    | none =>
      have head : pickLive live taken snap = none := h
      rw [diffWindows, h, pairsFrom, assign_none head]
      simp only [ih, pairsFrom, List.flatMap_cons, pairActions, matchedAddresses, keysOf,
        List.filterMap_cons, Option.map_none, List.singleton_append]

def extraActions (target live : Snapshot) : List RestoreAction :=
  (live.windows.filter fun w => w.address ∉ matchedAddresses (target.pairing live)).map fun w =>
    .windowNotInSnapshot w.address w.className

/-- The actions of a diff: those of each target window in order, the extra windows, the focus. -/
theorem diffAgainst_actions (target live : Snapshot) :
    (target.diffAgainst live).actions =
      (target.pairing live).flatMap pairActions ++ extraActions target live ++
        focusActions target live := by
  unfold Snapshot.diffAgainst extraActions Snapshot.pairing
  simp [diffWindows_eq]

theorem matchedActions_address {snap liveW : WindowSnapshot} :
    ∀ action ∈ matchedActions snap liveW, action.address = liveW.address := by
  intro action member
  simp only [matchedActions, List.mem_append] at member
  rcases member with (((member | member) | member) | member) | member
  all_goals
    split at member
    · rw [List.mem_singleton.mp member]
      rfl
    · cases member

theorem matchedActions_not_missing {snap liveW : WindowSnapshot} {address className title : String} :
    .windowMissing address className title ∉ matchedActions snap liveW := by
  simp only [matchedActions, List.mem_append]
  rintro ((((member | member) | member) | member) | member)
  all_goals
    split at member
    · cases List.mem_singleton.mp member
    · cases member

theorem focusActions_not_missing {target live : Snapshot} {address className title : String} :
    .windowMissing address className title ∉ focusActions target live := by
  intro member
  unfold focusActions at member
  split at member
  · split at member
    · cases List.mem_singleton.mp member
    · cases member
  · cases member

theorem pairActions_address {p : WindowSnapshot.Pair} :
    ∀ action ∈ pairActions p, action.address = (p.2.getD p.1).address := by
  obtain ⟨snap, found⟩ := p
  cases found with
  | some w => exact matchedActions_address
  | none =>
    intro action member
    rw [List.mem_singleton.mp member]
    rfl

end HyprPilot
