import HyprPilot.Core.ExactMatch

/-!
# What a diff accounts for

The diff pairs each target window with at most one live window and no live window twice. Its actions
are those of the pairs in order, then the live windows that no pair holds, then the focus.
-/

namespace HyprPilot
open Greedy

/-- An action that a pair needs: its field differs, and geometry and pin count for a floating target
only. -/
def Needed (snap liveW : WindowSnapshot) : RestoreAction → Prop
  | .moveToWorkspace address fromWorkspace toWorkspace =>
    address = liveW.address ∧ fromWorkspace = liveW.workspaceId ∧ toWorkspace = snap.workspaceId ∧
      liveW.workspaceId ≠ snap.workspaceId
  | .toggleFloating address wanted =>
    address = liveW.address ∧ wanted = snap.floating ∧ liveW.floating ≠ snap.floating
  | .repositionFloating address targetAt targetSize currentAt currentSize =>
    address = liveW.address ∧ targetAt = snap.at_ ∧ targetSize = snap.size ∧
      currentAt = liveW.at_ ∧ currentSize = liveW.size ∧ snap.floating = true ∧
      (liveW.at_ ≠ snap.at_ ∨ liveW.size ≠ snap.size)
  | .setFullscreen address fromMode toMode =>
    address = liveW.address ∧ fromMode = liveW.fullscreen ∧ toMode = snap.fullscreen ∧
      liveW.fullscreen ≠ snap.fullscreen
  | .setPin address wanted =>
    address = liveW.address ∧ wanted = snap.pinned ∧ snap.floating = true ∧
      liveW.pinned ≠ snap.pinned
  | .windowMissing .. | .windowNotInSnapshot .. | .restoreActiveFocus .. => False

/-- The place of an action among those of one window. -/
def RestoreAction.rank : RestoreAction → Nat
  | .moveToWorkspace .. => 0
  | .toggleFloating .. => 1
  | .repositionFloating .. => 2
  | .setFullscreen .. => 3
  | .setPin .. => 4
  | .windowMissing .. | .windowNotInSnapshot .. | .restoreActiveFocus .. => 5

def RestoreAction.isFocus : RestoreAction → Bool
  | .restoreActiveFocus .. => true
  | _ => false

def RestoreAction.changesWindow (action : RestoreAction) : Bool := isMutating action && !action.isFocus

/-- The actions for one target window, in restore order and each at most once. -/
def Serves : WindowSnapshot.Pair → List RestoreAction → Prop
  | (snap, some liveW), actions =>
    (∀ action, action ∈ actions ↔ Needed snap liveW action) ∧
      actions.Pairwise fun earlier later => earlier.rank < later.rank
  | (snap, none), actions => actions = [.windowMissing snap.address snap.className snap.title]

def matchedWindows (pairs : List WindowSnapshot.Pair) : List WindowSnapshot := pairs.filterMap Prod.snd

structure Accounts (target live : Snapshot) (actions : List RestoreAction)
    (pairs : List WindowSnapshot.Pair) : Prop where
  targets : pairs.map Prod.fst = target.windows
  matched : ∀ liveW ∈ matchedWindows pairs, liveW ∈ live.windows
  injective : (matchedWindows pairs).Nodup
  shape : ∃ blocks focus, List.Forall₂ Serves pairs blocks ∧
    actions = blocks.flatten ++
      (live.windows.filter fun w => w ∉ matchedWindows pairs).map
        (fun w => .windowNotInSnapshot w.address w.className) ++ focus ∧
    ∀ action ∈ focus, action.isFocus = true
  untouched : ∀ address className, .windowNotInSnapshot address className ∈ actions →
    ∀ action ∈ actions, action.changesWindow = true → action.address ≠ address
  focusLast : ∀ before action after, actions = before ++ action :: after →
    action.isFocus = true → after = []

/-! ### One pair -/

theorem optional_sublist {c : Prop} [Decidable c] (action : RestoreAction) :
    (if c then [action] else []).Sublist [action] := by
  split
  · exact List.Sublist.refl _
  · exact List.nil_sublist _

theorem matchedActions_ordered (snap liveW : WindowSnapshot) :
    (matchedActions snap liveW).Pairwise fun earlier later => earlier.rank < later.rank := by
  have all : ([.moveToWorkspace liveW.address liveW.workspaceId snap.workspaceId] ++
      [.toggleFloating liveW.address snap.floating] ++
      [.repositionFloating liveW.address snap.at_ snap.size liveW.at_ liveW.size] ++
      [.setFullscreen liveW.address liveW.fullscreen snap.fullscreen] ++
      [.setPin liveW.address snap.pinned] : List RestoreAction).Pairwise
        fun earlier later => earlier.rank < later.rank := by
    simp [RestoreAction.rank]
  refine List.Pairwise.sublist ?_ all
  unfold matchedActions
  repeat' apply List.Sublist.append
  all_goals exact optional_sublist _

theorem mem_matchedActions {snap liveW : WindowSnapshot} {action : RestoreAction} :
    action ∈ matchedActions snap liveW ↔ Needed snap liveW action := by
  cases action <;> simp [matchedActions, Needed, List.mem_ite_nil_right] <;> tauto

theorem serves_pairActions (p : WindowSnapshot.Pair) : Serves p (pairActions p) := by
  obtain ⟨snap, found⟩ := p
  cases found with
  | none => rfl
  | some liveW => exact ⟨fun _ => mem_matchedActions, matchedActions_ordered snap liveW⟩

theorem serves_pairs (pairs : List WindowSnapshot.Pair) :
    List.Forall₂ Serves pairs (pairs.map pairActions) := by
  induction pairs with
  | nil => exact .nil
  | cons p rest ih => exact .cons (serves_pairActions p) ih

theorem needed_changes {snap liveW : WindowSnapshot} {action : RestoreAction}
    (needed : Needed snap liveW action) :
    action.isFocus = false ∧ (∀ address className, action ≠ .windowNotInSnapshot address className) := by
  cases action <;> simp_all [Needed, RestoreAction.isFocus]

/-- The actions of a pair neither move the focus nor report an extra window. -/
theorem pairActions_kind {p : WindowSnapshot.Pair} {action : RestoreAction}
    (member : action ∈ pairActions p) :
    action.isFocus = false ∧ (∀ address className, action ≠ .windowNotInSnapshot address className) := by
  obtain ⟨snap, found⟩ := p
  cases found with
  | none =>
    obtain rfl := List.mem_singleton.mp member
    exact ⟨rfl, fun _ _ same => by cases same⟩
  | some liveW => exact needed_changes (mem_matchedActions.mp member)

/-- An action that changes a window is one of a matched pair. -/
theorem changesWindow_matched {p : WindowSnapshot.Pair} {action : RestoreAction}
    (member : action ∈ pairActions p) (changes : action.changesWindow = true) :
    ∃ liveW, p.2 = some liveW ∧ action.address = liveW.address := by
  obtain ⟨snap, found⟩ := p
  cases found with
  | none =>
    obtain rfl := List.mem_singleton.mp member
    cases changes
  | some liveW => exact ⟨liveW, rfl, matchedActions_address action member⟩

theorem focusActions_isFocus {target live : Snapshot} :
    ∀ action ∈ focusActions target live, action.isFocus = true := by
  intro action member
  unfold focusActions at member
  split at member
  · split at member
    · rw [List.mem_singleton.mp member]
      rfl
    · cases member
  · cases member

theorem focusActions_short (target live : Snapshot) : (focusActions target live).length ≤ 1 := by
  unfold focusActions
  split
  · split <;> simp
  · simp

/-! ### The whole diff -/

section Whole

variable {target live : Snapshot}

theorem matchedAddresses_eq (pairs : List WindowSnapshot.Pair) :
    matchedAddresses pairs = (matchedWindows pairs).map (·.address) := by
  rw [matchedAddresses, keysOf, matchedWindows, List.map_filterMap]

theorem matchedWindows_live : ∀ liveW ∈ matchedWindows (target.pairing live), liveW ∈ live.windows := by
  intro liveW member
  obtain ⟨⟨snap, found⟩, paired, same⟩ := List.mem_filterMap.mp member
  obtain rfl : found = some liveW := same
  exact pair_mem_live paired

theorem matchedWindows_nodup : (matchedWindows (target.pairing live)).Nodup := by
  have unique : (matchedAddresses (target.pairing live)).Nodup :=
    keysOf_nodup (pickLive_fresh live.windows) [] target.windows
  rw [matchedAddresses_eq] at unique
  exact unique.of_map _

theorem mem_matchedAddresses (distinct : (live.windows.map (·.address)).Nodup) {w : WindowSnapshot}
    (member : w ∈ live.windows) :
    w.address ∈ matchedAddresses (target.pairing live) ↔ w ∈ matchedWindows (target.pairing live) := by
  rw [matchedAddresses_eq, List.mem_map]
  constructor
  · rintro ⟨v, matched, same⟩
    rwa [← List.inj_on_of_nodup_map distinct (matchedWindows_live v matched) member same]
  · exact fun matched => ⟨w, matched, rfl⟩

theorem extraActions_eq (distinct : (live.windows.map (·.address)).Nodup) :
    extraActions target live =
      (live.windows.filter fun w => w ∉ matchedWindows (target.pairing live)).map
        fun w => .windowNotInSnapshot w.address w.className := by
  unfold extraActions
  congr 1
  apply List.filter_congr
  intro w member
  simp only [mem_matchedAddresses distinct member]

theorem mem_diff {action : RestoreAction} (member : action ∈ (target.diffAgainst live).actions) :
    (∃ p ∈ target.pairing live, action ∈ pairActions p) ∨ action ∈ extraActions target live ∨
      action ∈ focusActions target live := by
  rw [diffAgainst_actions, List.mem_append, List.mem_append, List.mem_flatMap, or_assoc] at member
  exact member

theorem extra_unmatched {address className : String}
    (member : .windowNotInSnapshot address className ∈ (target.diffAgainst live).actions) :
    address ∉ matchedAddresses (target.pairing live) := by
  rcases mem_diff member with ⟨p, -, inside⟩ | extra | focus
  · exact absurd rfl ((pairActions_kind inside).2 _ _)
  · obtain ⟨w, kept, same⟩ := List.mem_map.mp extra
    cases same
    simpa using (List.mem_filter.mp kept).2
  · cases focusActions_isFocus _ focus

theorem changesWindow_address {action : RestoreAction}
    (member : action ∈ (target.diffAgainst live).actions) (changes : action.changesWindow = true) :
    action.address ∈ matchedAddresses (target.pairing live) := by
  rcases mem_diff member with ⟨⟨snap, found⟩, paired, inside⟩ | extra | focus
  · obtain ⟨liveW, same, address⟩ := changesWindow_matched inside changes
    obtain rfl : found = some liveW := same
    rw [address]
    exact mem_keysOf paired
  · obtain ⟨w, -, same⟩ := List.mem_map.mp extra
    rw [← same] at changes
    cases changes
  · have focused := focusActions_isFocus _ focus
    simp [RestoreAction.changesWindow, focused] at changes

theorem isFocus_mem {action : RestoreAction}
    (member : action ∈ (target.pairing live).flatMap pairActions ++ extraActions target live) :
    action.isFocus = false := by
  rcases List.mem_append.mp member with inside | extra
  · obtain ⟨p, -, inside⟩ := List.mem_flatMap.mp inside
    exact (pairActions_kind inside).1
  · obtain ⟨w, -, rfl⟩ := List.mem_map.mp extra
    rfl

/-- Only the end of a list can hold the single member that the first part lacks. -/
theorem last_of_split {α : Type} {p : α → Bool} {first last before after : List α} {a : α}
    (clear : ∀ b ∈ first, p b = false) (short : last.length ≤ 1)
    (split : first ++ last = before ++ a :: after) (holds : p a = true) : after = [] := by
  rcases List.append_eq_append_iff.mp split with ⟨c, -, tail⟩ | ⟨c, head, tail⟩
  · have lengths := congrArg List.length tail
    simp only [List.length_append, List.length_cons] at lengths
    exact List.eq_nil_of_length_eq_zero (by omega)
  · cases c with
    | nil =>
      have lengths := congrArg List.length tail
      simp only [List.nil_append, List.length_cons] at lengths
      exact List.eq_nil_of_length_eq_zero (by omega)
    | cons b bs =>
      obtain ⟨rfl, -⟩ := List.cons.inj tail
      have absent := clear a (by simp [head])
      rw [absent] at holds
      cases holds

end Whole

/-- The diff accounts for every window exactly once and in restore order. -/
theorem diff_accounts {target live : Snapshot} (distinct : (live.windows.map (·.address)).Nodup) :
    Accounts target live (target.diffAgainst live).actions (target.pairing live) := by
  constructor
  case targets => exact assign_fst _ _ _ _
  case matched => exact matchedWindows_live
  case injective => exact matchedWindows_nodup
  case shape =>
    refine ⟨(target.pairing live).map pairActions, focusActions target live, serves_pairs _, ?_,
      focusActions_isFocus⟩
    rw [diffAgainst_actions, extraActions_eq distinct, List.flatMap]
  case untouched =>
    intro address className extra action member changes same
    have matched := changesWindow_address member changes
    rw [same] at matched
    exact extra_unmatched extra matched
  case focusLast =>
    intro before action after split focus
    rw [diffAgainst_actions] at split
    exact last_of_split (fun _ member => isFocus_mem member) (focusActions_short target live) split
      focus

theorem diff_accounts_siblings :
    Accounts (siblings ["0xa", "0xb"]) (siblings ["0xb", "0xc", "0xd"])
        ((siblings ["0xa", "0xb"]).diffAgainst (siblings ["0xb", "0xc", "0xd"])).actions
        [(sibling "0xa", none), (sibling "0xb", some (sibling "0xb"))] := by
  have pairs : (siblings ["0xa", "0xb"]).pairing (siblings ["0xb", "0xc", "0xd"]) =
      [(sibling "0xa", none), (sibling "0xb", some (sibling "0xb"))] := by decide
  rw [← pairs]
  exact diff_accounts (by decide)

end HyprPilot
