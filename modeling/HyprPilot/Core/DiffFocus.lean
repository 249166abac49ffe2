import HyprPilot.Core.DiffAccount

/-!
# The focused window of a diff

The matching finds a target window under a new address, but the focus of the target is looked up by
its recorded address. The two agree only where the match kept the address or there is nothing to do.
-/

namespace HyprPilot
open Greedy

/-- The live window that the target's focused window is matched with. -/
def FocusedMatch (target live : Snapshot) (liveW : WindowSnapshot) : Prop :=
  ∃ snap, target.activeWindowAddress = some snap.address ∧ (snap, some liveW) ∈ target.pairing live

structure RefocusesMatch (target live : Snapshot) : Prop where
  refocused : ∀ liveW, FocusedMatch target live liveW →
    live.activeWindowAddress ≠ some liveW.address →
    ∃ fromAddress, (target.diffAgainst live).actions.getLast? =
      some (.restoreActiveFocus liveW.address fromAddress)
  only : ∀ address fromAddress,
    .restoreActiveFocus address fromAddress ∈ (target.diffAgainst live).actions →
    ∃ liveW, FocusedMatch target live liveW ∧ live.activeWindowAddress ≠ some liveW.address

/-- The recorded address is the address of the match, or it is gone and the match, if there is one,
has the focus, or it has the focus and its window is not matched. -/
def FocusKept (target live : Snapshot) : Prop :=
  ∀ a, target.activeWindowAddress = some a →
    (∃ liveW, FocusedMatch target live liveW ∧ liveW.address = a) ∨
    (a ∉ live.windows.map (·.address) ∧
      ∀ liveW, FocusedMatch target live liveW → live.activeWindowAddress = some liveW.address) ∨
    (live.activeWindowAddress = some a ∧ ∀ liveW, ¬FocusedMatch target live liveW)

section Focus

variable {target live : Snapshot}

theorem mem_focusActions {action : RestoreAction} :
    action ∈ focusActions target live ↔ ∃ a, target.activeWindowAddress = some a ∧
      live.activeWindowAddress ≠ some a ∧ a ∈ live.windows.map (·.address) ∧
      action = .restoreActiveFocus a live.activeWindowAddress := by
  unfold focusActions
  cases wanted : target.activeWindowAddress with
  | none => simp
  | some a =>
    simp only [List.any_eq_true, decide_eq_true_eq, List.mem_ite_nil_right, List.mem_singleton,
      Option.some_inj, exists_eq_left', List.mem_map, and_assoc]

theorem focus_mem {address : String} {fromAddress : Option String}
    (member : .restoreActiveFocus address fromAddress ∈ (target.diffAgainst live).actions) :
    target.activeWindowAddress = some address ∧ live.activeWindowAddress ≠ some address ∧
      address ∈ live.windows.map (·.address) := by
  have focus : .restoreActiveFocus address fromAddress ∈ focusActions target live := by
    rw [diffAgainst_actions] at member
    rcases List.mem_append.mp member with before | focus
    · cases isFocus_mem before
    · exact focus
  obtain ⟨a, wanted, unfocused, isLive, same⟩ := mem_focusActions.mp focus
  cases same
  exact ⟨wanted, unfocused, isLive⟩

theorem focus_last {a : String} (wanted : target.activeWindowAddress = some a)
    (unfocused : live.activeWindowAddress ≠ some a) (isLive : a ∈ live.windows.map (·.address)) :
    (target.diffAgainst live).actions.getLast? =
      some (.restoreActiveFocus a live.activeWindowAddress) := by
  have member := mem_focusActions.mpr ⟨a, wanted, unfocused, isLive, rfl⟩
  have only : focusActions target live = [.restoreActiveFocus a live.activeWindowAddress] := by
    obtain ⟨action, same⟩ : ∃ action, focusActions target live = [action] :=
      List.length_eq_one_iff.mp
        (le_antisymm (focusActions_short target live) (List.length_pos_of_mem member))
    rw [same] at member ⊢
    rw [List.mem_singleton.mp member]
  rw [diffAgainst_actions, only, List.getLast?_append, List.getLast?_singleton]
  rfl

theorem focusedMatch_unique (distinct : (target.windows.map (·.address)).Nodup)
    {v w : WindowSnapshot} (first : FocusedMatch target live v)
    (second : FocusedMatch target live w) : v = w := by
  obtain ⟨snap, wanted, paired⟩ := first
  obtain ⟨snap', wanted', paired'⟩ := second
  have addresses : ((target.pairing live).map fun p => p.1.address).Nodup := by
    have targets : (target.pairing live).map Prod.fst = target.windows := assign_fst _ _ _ _
    rw [← targets, List.map_map] at distinct
    exact distinct
  rw [wanted] at wanted'
  have equal := List.inj_on_of_nodup_map addresses paired paired' (Option.some.inj wanted')
  exact Option.some.inj (Prod.ext_iff.mp equal).2

/-- A focused window that was matched under another address has the focus already. -/
theorem already_focused {a : String} {liveW : WindowSnapshot}
    (refocuses : RefocusesMatch target live) (wanted : target.activeWindowAddress = some a)
    (focused : FocusedMatch target live liveW) (moved : liveW.address ≠ a) :
    live.activeWindowAddress = some liveW.address := by
  by_contra unfocused
  obtain ⟨_, last⟩ := refocuses.refocused liveW focused unfocused
  have asked := (focus_mem (List.mem_of_getLast? last)).1
  rw [wanted] at asked
  exact moved (Option.some.inj asked).symm

theorem kept_of_refocuses (distinct : (target.windows.map (·.address)).Nodup)
    (refocuses : RefocusesMatch target live) : FocusKept target live := by
  intro a wanted
  -- A focus that is given goes to the recorded address, so somebody has to be matched there.
  have given (unfocused : live.activeWindowAddress ≠ some a)
      (isLive : a ∈ live.windows.map (·.address)) :
      ∃ liveW, FocusedMatch target live liveW ∧ live.activeWindowAddress ≠ some liveW.address :=
    refocuses.only _ _ (List.mem_of_getLast? (focus_last wanted unfocused isLive))
  by_cases matched : ∃ liveW, FocusedMatch target live liveW
  · obtain ⟨liveW, focused⟩ := matched
    by_cases kept : liveW.address = a
    · exact Or.inl ⟨liveW, focused, kept⟩
    · have already := already_focused refocuses wanted focused kept
      refine Or.inr (Or.inl ⟨?_, ?_⟩)
      · intro isLive
        have unfocused : live.activeWindowAddress ≠ some a := by
          rw [already]
          exact fun same => kept (Option.some.inj same)
        obtain ⟨other, found, away⟩ := given unfocused isLive
        rw [focusedMatch_unique distinct found focused] at away
        exact away already
      · intro other found
        rw [focusedMatch_unique distinct found focused]
        exact already
  · have nobody : ∀ liveW, ¬FocusedMatch target live liveW := not_exists.mp matched
    by_cases isLive : a ∈ live.windows.map (·.address)
    · refine Or.inr (Or.inr ⟨?_, nobody⟩)
      by_contra unfocused
      obtain ⟨other, found, -⟩ := given unfocused isLive
      exact nobody other found
    · exact Or.inr (Or.inl ⟨isLive, fun liveW found => absurd found (nobody liveW)⟩)

theorem refocuses_of_kept (distinct : (target.windows.map (·.address)).Nodup)
    (kept : FocusKept target live) : RefocusesMatch target live where
  refocused := by
    intro liveW focused unfocused
    obtain ⟨snap, wanted, paired⟩ := focused
    rcases kept _ wanted with ⟨other, found, same⟩ | ⟨-, already⟩ | ⟨-, nobody⟩
    · obtain rfl := focusedMatch_unique distinct found ⟨snap, wanted, paired⟩
      have isLive := List.mem_map_of_mem (f := fun w : WindowSnapshot => w.address)
        (pair_mem_live paired)
      rw [← same] at wanted
      exact ⟨_, focus_last wanted unfocused isLive⟩
    · exact absurd (already liveW ⟨snap, wanted, paired⟩) unfocused
    · exact absurd ⟨snap, wanted, paired⟩ (nobody liveW)
  only := by
    intro address fromAddress member
    obtain ⟨wanted, unfocused, isLive⟩ := focus_mem member
    rcases kept _ wanted with ⟨liveW, found, same⟩ | ⟨gone, -⟩ | ⟨already, -⟩
    · refine ⟨liveW, found, ?_⟩
      rw [same]
      exact unfocused
    · exact absurd isLive gone
    · exact absurd already unfocused

/-- The focus follows the match exactly where the match kept the recorded address or no focus is
due and none is given. -/
theorem refocuses_match_iff (distinct : (target.windows.map (·.address)).Nodup) :
    RefocusesMatch target live ↔ FocusKept target live :=
  ⟨kept_of_refocuses distinct, refocuses_of_kept distinct⟩

end Focus

/-! ### A window under a new address -/

def focusedOn (addresses : List String) (active : Option String) : Snapshot :=
  { siblings addresses with activeWindowAddress := active }

theorem refocuses_kept_address :
    RefocusesMatch (focusedOn ["0xa", "0xb"] (some "0xa")) (focusedOn ["0xa", "0xb"] (some "0xb")) := by
  refine (refocuses_match_iff (by decide)).mpr ?_
  rintro a ⟨⟩
  exact Or.inl ⟨sibling "0xa", ⟨sibling "0xa", rfl, by decide⟩, rfl⟩

/-- The focused window is matched by its pid under the address 0xb, and nothing is focused. -/
theorem refocus_lost :
    ¬∀ target live : Snapshot, (target.windows.map (·.address)).Nodup →
      (live.windows.map (·.address)).Nodup → RefocusesMatch target live := by
  intro always
  have refocuses := always (focusedOn ["0xa"] (some "0xa")) (focusedOn ["0xb"] none) (by decide)
    (by decide)
  obtain ⟨_, last⟩ := refocuses.refocused (sibling "0xb") ⟨sibling "0xa", rfl, by decide⟩ (by decide)
  have nothing : ((focusedOn ["0xa"] (some "0xa")).diffAgainst (focusedOn ["0xb"] none)).actions = [] := by
    decide
  rw [nothing] at last
  cases last

end HyprPilot
