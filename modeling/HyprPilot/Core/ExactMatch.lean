import HyprPilot.Core.Matching

/-!
# Exact addresses and the fallbacks

The loop of `diffAgainst` serves one target window at a time, so a window that falls back to its pid
or class may take the live window that a later target window would match by address.
`exactWins_iff` says when this happens.
-/

namespace HyprPilot
open Greedy

/-- Whether the diff computes an action from a target window. -/
def RestoreAction.isPerWindow : RestoreAction → Bool
  | .windowNotInSnapshot .. | .restoreActiveFocus .. => false
  | _ => true

/-- The actions of a list that the diff computes per window for an address. -/
def RestoreAction.ownOf (address : String) (actions : List RestoreAction) : List RestoreAction :=
  actions.filter fun action => action.isPerWindow && action.address == address

/-- Every target window whose address is live is paired with the window of that address: it is not
reported missing, its actions carry its address, and the actions of no other target window do. What the
diff does per window with this address is what the two windows of the address need. -/
def ExactWins (target live : Snapshot) : Prop :=
  ∀ snap ∈ target.windows, ∀ w ∈ live.windows, w.address = snap.address →
    (snap, some w) ∈ target.pairing live ∧
    (∀ className title,
      RestoreAction.windowMissing snap.address className title ∉ (target.diffAgainst live).actions) ∧
    (∀ p ∈ target.pairing live, p.1 = snap → ∀ action ∈ pairActions p, action.address = snap.address) ∧
    (∀ p ∈ target.pairing live, p.1 ≠ snap → ∀ action ∈ pairActions p, action.address ≠ snap.address) ∧
    RestoreAction.ownOf snap.address (target.diffAgainst live).actions = matchedActions snap w

def fallbackMatch (snap : WindowSnapshot) (live : List WindowSnapshot) (taken : List String) :
    Option WindowSnapshot :=
  match matchByPid snap live taken with
  | some w => some w
  | none => matchByClass snap live taken

/-- No target window falls back to the live window whose address a later target window carries.
`taken` lists the addresses of the live windows that the target windows before have taken. -/
def nothingStolen (live : List WindowSnapshot) : List String → List WindowSnapshot → Bool
  | _, [] => true
  | taken, snap :: later =>
    if live.any (fun w => w.address = snap.address) then
      nothingStolen live (snap.address :: taken) later
    else
      match fallbackMatch snap live taken with
      | some w =>
        decide (w.address ∉ later.map (·.address)) && nothingStolen live (w.address :: taken) later
      | none => nothingStolen live taken later

/-- Each pair of a target window whose address is live is with the window of that address. -/
def ExactPairs (live : List WindowSnapshot) (pairs : List WindowSnapshot.Pair) : Prop :=
  ∀ p ∈ pairs, ∀ w ∈ live, w.address = p.1.address → p.2 = some w

theorem exactPairs_cons {live : List WindowSnapshot} {p : WindowSnapshot.Pair}
    {pairs : List WindowSnapshot.Pair} :
    ExactPairs live (p :: pairs) ↔
      (∀ w ∈ live, w.address = p.1.address → p.2 = some w) ∧ ExactPairs live pairs := by
  simp [ExactPairs]

theorem eq_of_address {windows : List WindowSnapshot} (distinct : (windows.map (·.address)).Nodup)
    {v w : WindowSnapshot} (hv : v ∈ windows) (hw : w ∈ windows) (same : v.address = w.address) :
    v = w :=
  List.inj_on_of_nodup_map distinct hv hw same

theorem matchLiveWindow_exact {snap w : WindowSnapshot} {live : List WindowSnapshot}
    {taken : List String} (distinct : (live.map (·.address)).Nodup) (here : w ∈ live)
    (same : w.address = snap.address) (free : snap.address ∉ taken) :
    matchLiveWindow snap live taken = some w := by
  have found : matchByAddress snap live taken = some w := by
    unfold matchByAddress
    have candidate : w ∈ unmatched live taken := mem_unmatched.mpr ⟨here, by rwa [same]⟩
    cases search : (unmatched live taken).find? (fun v => v.address = snap.address) with
    | none =>
      have missed := List.find?_eq_none.mp search w candidate
      exact absurd same (by simpa using missed)
    | some v =>
      have address : v.address = snap.address := by simpa using List.find?_some search
      have inLive := (mem_unmatched.mp (List.mem_of_find?_eq_some search)).1
      rw [eq_of_address distinct inLive here (address.trans same.symm)]
  rw [matchLiveWindow, found]

theorem matchLiveWindow_fallback {snap : WindowSnapshot} {live : List WindowSnapshot}
    {taken : List String} (absent : ∀ w ∈ live, w.address ≠ snap.address) :
    matchLiveWindow snap live taken = fallbackMatch snap live taken := by
  have missed : matchByAddress snap live taken = none := by
    apply List.find?_eq_none.mpr
    intro w candidate
    simpa using absent w (mem_unmatched.mp candidate).1
  rw [matchLiveWindow, missed]
  rfl

/-- Once the live window of an address is taken, a target window of that address no longer gets it. -/
theorem ExactPairs.not_taken {live targets : List WindowSnapshot} {taken : List String}
    {w : WindowSnapshot} (exact_ : ExactPairs live (pairsFrom live (w.address :: taken) targets))
    (here : w ∈ live) : w.address ∉ targets.map (·.address) := by
  intro member
  obtain ⟨s, target, same⟩ := List.mem_map.mp member
  obtain ⟨found, paired⟩ := exists_pair (pickLive live) (·.address) (w.address :: taken) target
  have got : found = some w := exact_ _ paired w here same.symm
  subst got
  exact key_not_taken (pickLive_fresh live) paired List.mem_cons_self

/-- While no address of a target window is taken, the pairs are exact just when nothing is stolen. -/
theorem exactPairs_iff {live targets : List WindowSnapshot} {taken : List String}
    (distinctLive : (live.map (·.address)).Nodup) (distinct : (targets.map (·.address)).Nodup)
    (free : ∀ snap ∈ targets, snap.address ∉ taken) :
    ExactPairs live (pairsFrom live taken targets) ↔ nothingStolen live taken targets = true := by
  induction targets generalizing taken with
  | nil => simp [ExactPairs, pairsFrom, nothingStolen]
  | cons snap rest ih =>
    obtain ⟨new, distinct⟩ := List.nodup_cons.mp distinct
    have later : ∀ s ∈ rest, s.address ≠ snap.address := by
      intro s member same
      exact new (List.mem_map.mpr ⟨s, member, same⟩)
    by_cases isLive : ∃ w ∈ live, w.address = snap.address
    · obtain ⟨w, here, same⟩ := isLive
      have picked : pickLive live taken snap = some w :=
        matchLiveWindow_exact distinctLive here same (free snap List.mem_cons_self)
      have anyLive : live.any (fun w => w.address = snap.address) = true := by
        simpa using ⟨w, here, same⟩
      have head : ∀ v ∈ live, v.address = snap.address → some w = some v := by
        intro v member address
        rw [eq_of_address distinctLive here member (same.trans address.symm)]
      rw [pairsFrom, assign_some picked, exactPairs_cons, nothingStolen, if_pos anyLive, same]
      have free' : ∀ s ∈ rest, s.address ∉ snap.address :: taken := by
        intro s member
        simpa using ⟨later s member, free s (List.mem_cons_of_mem _ member)⟩
      rw [← pairsFrom, ih distinct free']
      exact and_iff_right head
    · have absent : ∀ w ∈ live, w.address ≠ snap.address := fun w here same => isLive ⟨w, here, same⟩
      have noneLive : ¬ live.any (fun w => w.address = snap.address) = true := by
        simpa using absent
      have vacuous : ∀ found : Option WindowSnapshot,
          ∀ w ∈ live, w.address = snap.address → found = some w :=
        fun _ w here same => absurd same (absent w here)
      have fellBack : pickLive live taken snap = fallbackMatch snap live taken :=
        matchLiveWindow_fallback absent
      rw [nothingStolen, if_neg noneLive]
      cases h : fallbackMatch snap live taken with
      | none =>
        rw [pairsFrom, assign_none (fellBack.trans h), exactPairs_cons, ← pairsFrom,
          ih distinct (fun s member => free s (List.mem_cons_of_mem _ member))]
        exact and_iff_right (vacuous none)
      | some w =>
        rw [pairsFrom, assign_some (fellBack.trans h), exactPairs_cons, ← pairsFrom]
        have taking := matchLiveWindow_unmatched (fellBack.trans h)
        have here := (mem_unmatched.mp taking).1
        simp only [Bool.and_eq_true, decide_eq_true_eq]
        have free' : w.address ∉ rest.map (·.address) →
            ∀ s ∈ rest, s.address ∉ w.address :: taken := by
          intro kept s member
          have different : s.address ≠ w.address := fun same => kept (List.mem_map.mpr ⟨s, member, same⟩)
          simpa using ⟨different, free s (List.mem_cons_of_mem _ member)⟩
        constructor
        · rintro ⟨-, pairs⟩
          have kept := pairs.not_taken here
          exact ⟨kept, (ih distinct (free' kept)).mp pairs⟩
        · rintro ⟨kept, rest⟩
          exact ⟨vacuous _, (ih distinct (free' kept)).mpr rest⟩

section Wins

variable {target live : Snapshot} {snap w : WindowSnapshot} {p : WindowSnapshot.Pair}

theorem pairing_nodup (distinct : (target.windows.map (·.address)).Nodup) :
    ((target.pairing live).map (·.1)).Nodup := by
  rw [Snapshot.pairing, pairsFrom, assign_fst]
  exact List.Nodup.of_map _ distinct

theorem pair_of_snap (distinct : (target.windows.map (·.address)).Nodup)
    (paired : (snap, some w) ∈ target.pairing live) (inPairs : p ∈ target.pairing live)
    (isSnap : p.1 = snap) : p = (snap, some w) :=
  List.inj_on_of_nodup_map (pairing_nodup distinct) inPairs paired isSnap

/-- The keys of two pairs differ, and an unmatched target window reports its own address. -/
theorem pairActions_other (distinct : (target.windows.map (·.address)).Nodup)
    (distinctLive : (live.windows.map (·.address)).Nodup) (here : w ∈ live.windows)
    (same : w.address = snap.address) (paired : (snap, some w) ∈ target.pairing live)
    (inPairs : p ∈ target.pairing live) (different : p.1 ≠ snap) {action : RestoreAction}
    (acting : action ∈ pairActions p) : action.address ≠ snap.address := by
  rw [pairActions_address action acting]
  obtain ⟨s, found⟩ := p
  cases found with
  | none =>
    intro equal
    exact different (eq_of_address distinct (mem_of_pair inPairs) (mem_of_pair paired) equal)
  | some v =>
    intro equal
    have inLive := pair_mem_live inPairs
    have sameWindow : v = w := eq_of_address distinctLive inLive here (equal.trans same.symm)
    subst sameWindow
    have unique := keysOf_nodup (pickLive_fresh live.windows) [] target.windows
    have equalPairs := pair_eq_of_key unique inPairs paired
    exact different (congrArg Prod.fst equalPairs)

theorem pairActions_perWindow : ∀ action ∈ pairActions p, action.isPerWindow = true := by
  intro action member
  obtain ⟨snap, found⟩ := p
  cases found with
  | none =>
    rw [List.mem_singleton.mp member]
    rfl
  | some liveW =>
    simp only [pairActions, matchedActions, List.mem_append] at member
    rcases member with (((member | member) | member) | member) | member
    all_goals
      split at member
      · rw [List.mem_singleton.mp member]
        rfl
      · cases member

theorem focusActions_perWindow : ∀ action ∈ focusActions target live, action.isPerWindow = false := by
  intro action member
  unfold focusActions at member
  split at member
  · split at member
    · rw [List.mem_singleton.mp member]
      rfl
    · cases member
  · cases member

theorem ownOf_nil {address : String} {actions : List RestoreAction}
    (other : ∀ action ∈ actions, action.isPerWindow = true → action.address ≠ address) :
    RestoreAction.ownOf address actions = [] := by
  refine List.filter_eq_nil_iff.mpr fun action member => ?_
  simpa using other action member

theorem ownOf_pairs {address : String} {pairs : List WindowSnapshot.Pair}
    (other : ∀ p ∈ pairs, ∀ action ∈ pairActions p, action.address ≠ address) :
    RestoreAction.ownOf address (pairs.flatMap pairActions) = [] := by
  apply ownOf_nil
  intro action member _
  obtain ⟨p, inside, acting⟩ := List.mem_flatMap.mp member
  exact other p inside action acting

theorem ownOf_append (address : String) (first last : List RestoreAction) :
    RestoreAction.ownOf address (first ++ last) =
      RestoreAction.ownOf address first ++ RestoreAction.ownOf address last := List.filter_append ..

/-- In the whole diff the actions for a window of this address are those of its own pair. -/
theorem ownOf_diff (distinct : (target.windows.map (·.address)).Nodup)
    (paired : (snap, some w) ∈ target.pairing live) (same : w.address = snap.address)
    (others : ∀ p ∈ target.pairing live, p.1 ≠ snap →
      ∀ action ∈ pairActions p, action.address ≠ snap.address) :
    RestoreAction.ownOf snap.address (target.diffAgainst live).actions = matchedActions snap w := by
  have extra : RestoreAction.ownOf snap.address (extraActions target live) = [] := by
    refine ownOf_nil fun action member perWindow => ?_
    obtain ⟨v, -, rfl⟩ := List.mem_map.mp member
    cases perWindow
  have focus : RestoreAction.ownOf snap.address (focusActions target live) = [] := by
    refine ownOf_nil fun action member perWindow => ?_
    rw [focusActions_perWindow action member] at perWindow
    cases perWindow
  have own : RestoreAction.ownOf snap.address (pairActions (snap, some w)) = matchedActions snap w := by
    refine List.filter_eq_self.mpr fun action member => ?_
    have carried : action.address = w.address := matchedActions_address action member
    simp [pairActions_perWindow action member, carried, same]
  obtain ⟨before, after, split⟩ := List.append_of_mem paired
  have firsts : ((target.pairing live).map (·.1)).Nodup := pairing_nodup distinct
  rw [split, List.map_append, List.map_cons, List.nodup_append, List.nodup_cons] at firsts
  obtain ⟨-, ⟨notAfter, -⟩, disjoint⟩ := firsts
  have left : RestoreAction.ownOf snap.address (before.flatMap pairActions) = [] := by
    refine ownOf_pairs fun p inside => others p (by simp [split, inside]) ?_
    exact disjoint p.1 (List.mem_map.mpr ⟨p, inside, rfl⟩) snap List.mem_cons_self
  have right : RestoreAction.ownOf snap.address (after.flatMap pairActions) = [] := by
    refine ownOf_pairs fun p inside => others p (by simp [split, inside]) fun isSnap => ?_
    exact notAfter (List.mem_map.mpr ⟨p, inside, isSnap⟩)
  rw [diffAgainst_actions, ownOf_append, ownOf_append, extra, focus, split, List.flatMap_append,
    List.flatMap_cons, ownOf_append, ownOf_append, left, right, own]
  simp

theorem exactWins_iff_pairs (distinct : (target.windows.map (·.address)).Nodup)
    (distinctLive : (live.windows.map (·.address)).Nodup) :
    ExactWins target live ↔ ExactPairs live.windows (target.pairing live) := by
  constructor
  · intro wins p paired w here same
    have expected := (wins p.1 (mem_of_pair paired) w here same).1
    exact congrArg Prod.snd (pair_of_snap distinct expected paired rfl)
  · intro pairs snap member w here same
    obtain ⟨found, paired⟩ := exists_pair (pickLive live.windows) (·.address)
      [] member
    have got : found = some w := pairs _ paired w here same
    subst got
    have others : ∀ p ∈ target.pairing live, p.1 ≠ snap →
        ∀ action ∈ pairActions p, action.address ≠ snap.address :=
      fun p inPairs different action acting =>
        pairActions_other distinct distinctLive here same paired inPairs different acting
    have own : ∀ p ∈ target.pairing live, p.1 = snap →
        ∀ action ∈ pairActions p, action.address = snap.address := by
      intro p inPairs isSnap action acting
      obtain rfl := pair_of_snap distinct paired inPairs isSnap
      rw [pairActions_address action acting]
      exact same
    refine ⟨paired, ?_, own, others, ownOf_diff distinct paired same others⟩
    intro className title reported
    rw [diffAgainst_actions, List.mem_append, List.mem_append] at reported
    rcases reported with (reported | reported) | reported
    · obtain ⟨p, inPairs, acting⟩ := List.mem_flatMap.mp reported
      by_cases isSnap : p.1 = snap
      · obtain rfl := pair_of_snap distinct paired inPairs isSnap
        exact matchedActions_not_missing acting
      · exact others p inPairs isSnap _ acting rfl
    · obtain ⟨v, -, equal⟩ := List.mem_map.mp reported
      cases equal
    · exact focusActions_not_missing reported

end Wins

/-- With distinct addresses, the diff pairs every target window whose address is live with the
window of that address just when no earlier fallback steals it. -/
theorem exactWins_iff {target live : Snapshot}
    (distinct : (target.windows.map (·.address)).Nodup)
    (distinctLive : (live.windows.map (·.address)).Nodup) :
    ExactWins target live ↔ nothingStolen live.windows [] target.windows = true := by
  rw [exactWins_iff_pairs distinct distinctLive, Snapshot.pairing]
  exact exactPairs_iff distinctLive distinct (by simp)

/-! ### Two orders of one target -/

def sibling (address : String) : WindowSnapshot :=
  { address := address, pid := 100, initialClass := "Foo", initialTitle := "Bar"
    className := "Foo", title := "Bar", workspaceId := 1, monitorName := "eDP-1"
    at_ := (0, 0), size := (100, 100), floating := false, fullscreen := 0, pinned := false }

def siblings (addresses : List String) : Snapshot :=
  { name := "t", createdAtUnix := 0, hyprlandVersion := "0.55.2"
    monitors := [⟨"eDP-1", 1⟩], workspaces := [⟨1, "1", "eDP-1", 1⟩]
    windows := addresses.map sibling, activeWindowAddress := none, activeWorkspaceId := 1 }

theorem exactWins_kept_first :
    ExactWins (siblings ["0xa", "0xb"]) (siblings ["0xa"]) ∧
      ¬ ExactWins (siblings ["0xb", "0xa"]) (siblings ["0xa"]) :=
  ⟨(exactWins_iff (by decide) (by decide)).mpr (by decide),
    fun wins => absurd ((exactWins_iff (by decide) (by decide)).mp wins) (by decide)⟩

/-- The closed window listed first takes the live one by pid, which its own entry then misses. -/
theorem exactWins_fails :
    ¬ ∀ target live : Snapshot, (target.windows.map (·.address)).Nodup →
      (live.windows.map (·.address)).Nodup → ExactWins target live := by
  intro always
  have wins := always (siblings ["0xb", "0xa"]) (siblings ["0xa"]) (by decide) (by decide)
  have paired := (wins (sibling "0xa") (by decide) (sibling "0xa") (by decide) rfl).1
  exact absurd paired (by decide)

end HyprPilot
