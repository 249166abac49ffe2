import HyprPilot.Core.DiffAccount

/-!
# The order of the live windows

Hyprland lists its windows in any order. The matching looks for one window by its address or for the
only one with a pid or a class, so the order decides nothing but the order of the extra windows.
-/

namespace HyprPilot
open Greedy

/-! ### Choices that do not see the order -/

section Choices

variable {α : Type} {as bs : List α}

theorem sole_perm (perm : as.Perm bs) : sole as = sole bs := by
  apply Option.ext
  intro a
  rw [sole_eq_some, sole_eq_some]
  constructor
  · rintro rfl
    exact List.perm_singleton.mp perm.symm
  · rintro rfl
    exact List.perm_singleton.mp perm

theorem find?_eq_some_of_unique {p : α → Bool}
    (unique : ∀ a ∈ as, ∀ b ∈ as, p a = true → p b = true → a = b) {a : α} :
    as.find? p = some a ↔ a ∈ as ∧ p a = true := by
  constructor
  · exact fun found => ⟨List.mem_of_find?_eq_some found, List.find?_some found⟩
  · rintro ⟨member, holds⟩
    cases found : as.find? p with
    | none => exact absurd holds (List.find?_eq_none.mp found a member)
    | some b =>
      rw [unique b (List.mem_of_find?_eq_some found) a member (List.find?_some found) holds]

theorem find?_perm {p : α → Bool} (perm : as.Perm bs)
    (unique : ∀ a ∈ as, ∀ b ∈ as, p a = true → p b = true → a = b) : as.find? p = bs.find? p := by
  have unique' : ∀ a ∈ bs, ∀ b ∈ bs, p a = true → p b = true → a = b := by
    intro a left b right
    exact unique a (perm.mem_iff.mpr left) b (perm.mem_iff.mpr right)
  apply Option.ext
  intro a
  rw [find?_eq_some_of_unique unique, find?_eq_some_of_unique unique', perm.mem_iff]

end Choices

section Order

variable {windows windows' : List WindowSnapshot}

theorem unmatched_perm (perm : windows.Perm windows') (taken : List String) :
    (unmatched windows taken).Perm (unmatched windows' taken) := perm.filter _

theorem matchByAddress_perm (perm : windows.Perm windows') (distinct : (windows.map (·.address)).Nodup)
    (snap : WindowSnapshot) (taken : List String) :
    matchByAddress snap windows taken = matchByAddress snap windows' taken := by
  apply find?_perm (unmatched_perm perm taken)
  intro v left w right here there
  have same : v.address = w.address := by
    rw [of_decide_eq_true here, of_decide_eq_true there]
  exact eq_of_address distinct (mem_unmatched.mp left).1 (mem_unmatched.mp right).1 same

theorem pickLive_perm (perm : windows.Perm windows') (distinct : (windows.map (·.address)).Nodup) :
    pickLive windows = pickLive windows' := by
  funext taken snap
  have byPid : matchByPid snap windows taken = matchByPid snap windows' taken := by
    unfold matchByPid
    rw [sole_perm ((unmatched_perm perm taken).filter _)]
  have byClass : matchByClass snap windows taken = matchByClass snap windows' taken := by
    unfold matchByClass
    rw [sole_perm ((unmatched_perm perm taken).filter _)]
  unfold pickLive matchLiveWindow
  rw [matchByAddress_perm perm distinct, byPid, byClass]

theorem pairsFrom_perm (perm : windows.Perm windows') (distinct : (windows.map (·.address)).Nodup)
    (taken : List String) (targets : List WindowSnapshot) :
    pairsFrom windows taken targets = pairsFrom windows' taken targets := by
  unfold pairsFrom
  rw [pickLive_perm perm distinct]

end Order

/-! ### The diff -/

def RestoreAction.isExtra : RestoreAction → Bool
  | .windowNotInSnapshot .. => true
  | _ => false

section Diff

variable {target live live' : Snapshot}

theorem pairing_perm (perm : live.windows.Perm live'.windows)
    (distinct : (live.windows.map (·.address)).Nodup) : target.pairing live = target.pairing live' :=
  pairsFrom_perm perm distinct [] target.windows

theorem extraActions_perm (perm : live.windows.Perm live'.windows)
    (distinct : (live.windows.map (·.address)).Nodup) :
    (extraActions target live).Perm (extraActions target live') := by
  unfold extraActions
  rw [pairing_perm perm distinct]
  exact (perm.filter _).map _

theorem focusActions_perm (perm : live.windows.Perm live'.windows)
    (active : live'.activeWindowAddress = live.activeWindowAddress) :
    focusActions target live = focusActions target live' := by
  unfold focusActions
  simp only [active, perm.any_eq]

/-- The extra windows are a part of their own between the actions of the pairs and the focus. -/
theorem diff_filter (target live : Snapshot) :
    (target.diffAgainst live).actions.filter (!·.isExtra) =
        (target.pairing live).flatMap pairActions ++ focusActions target live ∧
      (target.diffAgainst live).actions.filter (·.isExtra) = extraActions target live := by
  have pairs : ∀ action ∈ (target.pairing live).flatMap pairActions, action.isExtra = false := by
    intro action member
    obtain ⟨p, -, inside⟩ := List.mem_flatMap.mp member
    have other := (pairActions_kind inside).2
    cases action with
    | windowNotInSnapshot address className => exact absurd rfl (other address className)
    | _ => rfl
  have extra : ∀ action ∈ extraActions target live, action.isExtra = true := by
    intro action member
    obtain ⟨w, -, rfl⟩ := List.mem_map.mp member
    rfl
  have focus : ∀ action ∈ focusActions target live, action.isExtra = false := by
    intro action member
    have focused := focusActions_isFocus action member
    cases action with
    | windowNotInSnapshot => cases focused
    | _ => rfl
  rw [diffAgainst_actions]
  simp only [List.filter_append]
  constructor
  · rw [List.filter_eq_self.mpr (fun action member => by simp [pairs action member]),
      List.filter_eq_nil_iff.mpr (fun action member => by simp [extra action member]),
      List.filter_eq_self.mpr (fun action member => by simp [focus action member]), List.append_nil]
  · rw [List.filter_eq_nil_iff.mpr (fun action member => by simp [pairs action member]),
      List.filter_eq_self.mpr (fun action member => by simp [extra action member]),
      List.filter_eq_nil_iff.mpr (fun action member => by simp [focus action member]),
      List.nil_append, List.append_nil]

/-- The order of the live windows decides only the order in which the extra ones are reported. -/
theorem diff_order_independent (distinct : (live.windows.map (·.address)).Nodup)
    (perm : live.windows.Perm live'.windows) (rest : live' = { live with windows := live'.windows }) :
    (target.diffAgainst live).actions.filter (!·.isExtra) =
        (target.diffAgainst live').actions.filter (!·.isExtra) ∧
      ((target.diffAgainst live).actions.filter (·.isExtra)).Perm
        ((target.diffAgainst live').actions.filter (·.isExtra)) := by
  have active : live'.activeWindowAddress = live.activeWindowAddress := by rw [rest]
  constructor
  · rw [(diff_filter target live).1, (diff_filter target live').1, pairing_perm perm distinct,
      focusActions_perm perm active]
  · rw [(diff_filter target live).2, (diff_filter target live').2]
    exact extraActions_perm perm distinct

theorem diff_order_siblings :
    ((siblings ["0xa"]).diffAgainst (siblings ["0xb", "0xc"])).actions.filter (!·.isExtra) =
        ((siblings ["0xa"]).diffAgainst (siblings ["0xc", "0xb"])).actions.filter (!·.isExtra) ∧
      (((siblings ["0xa"]).diffAgainst (siblings ["0xb", "0xc"])).actions.filter (·.isExtra)).Perm
        (((siblings ["0xa"]).diffAgainst (siblings ["0xc", "0xb"])).actions.filter (·.isExtra)) :=
  diff_order_independent (by decide) (by decide) rfl

end Diff

end HyprPilot
