import HyprPilot.Core.RestoreConvergence

/-!
# The flips of a restore

Two actions of a restore do not set a flag but flip it. The flips of a diff are one for each flag
of a matched window that is off its target, so that after some of them the diff still has exactly
the others.
-/

namespace HyprPilot
open Greedy

inductive FlipKind where
  | floating
  | pinned
  deriving DecidableEq

structure Flip where
  kind : FlipKind
  address : String
  deriving DecidableEq

def RestoreAction.flip : RestoreAction → Option Flip
  | .toggleFloating address _ => some ⟨.floating, address⟩
  | .setPin address _ => some ⟨.pinned, address⟩
  | _ => none

def Snapshot.flips (target live : Snapshot) : List Flip :=
  (target.diffAgainst live).actions.filterMap RestoreAction.flip

def WindowSnapshot.flag (w : WindowSnapshot) : FlipKind → Bool
  | .floating => w.floating
  | .pinned => w.pinned

/-- A flag of a matched window is off its target; the pin of a tiled target has none. -/
def off (snap : WindowSnapshot) : FlipKind → Bool → Bool
  | .floating, flag => flag != snap.floating
  | .pinned, flag => snap.floating && flag != snap.pinned

theorem off_not {snap : WindowSnapshot} {kind : FlipKind} {flag : Bool}
    (wrong : off snap kind flag = true) : off snap kind (!flag) = false := by
  cases kind with
  | floating => cases flag <;> cases floats : snap.floating <;> simp_all [off]
  | pinned => cases flag <;> cases pins : snap.pinned <;> simp_all [off]

def due (snap w : WindowSnapshot) : List Flip :=
  ([.floating, .pinned].filter fun kind => off snap kind (w.flag kind)).map fun kind => ⟨kind, w.address⟩

theorem mem_due {snap w : WindowSnapshot} {f : Flip} :
    f ∈ due snap w ↔ f.address = w.address ∧ off snap f.kind (w.flag f.kind) = true := by
  obtain ⟨kind, address⟩ := f
  simp only [due, List.mem_map, List.mem_filter, Flip.mk.injEq]
  constructor
  · rintro ⟨_, ⟨-, wrong⟩, rfl, rfl⟩
    exact ⟨rfl, wrong⟩
  · rintro ⟨rfl, wrong⟩
    refine ⟨kind, ⟨?_, wrong⟩, rfl, rfl⟩
    cases kind <;> simp

theorem due_nodup (snap w : WindowSnapshot) : (due snap w).Nodup := by
  have kinds : [FlipKind.floating, .pinned].Nodup := by decide
  refine (kinds.filter _).map ?_
  intro a b same
  exact (Flip.mk.inj same).1

theorem filterMap_if {c : Prop} [Decidable c] (action : RestoreAction) :
    (if c then [action] else []).filterMap RestoreAction.flip = if c then action.flip.toList else [] := by
  split
  · cases action <;> rfl
  · rfl

theorem matchedActions_flips (snap w : WindowSnapshot) :
    (matchedActions snap w).filterMap RestoreAction.flip = due snap w := by
  unfold matchedActions due
  simp only [List.filterMap_append, filterMap_if, RestoreAction.flip, Option.toList_none, ite_self,
    Option.toList_some, List.nil_append, List.append_nil, List.filter, off, WindowSnapshot.flag]
  -- What is left depends on the four flags.
  generalize w.floating = floating, snap.floating = floats, w.pinned = pinned, snap.pinned = pins
  cases floating <;> cases floats <;> cases pinned <;> cases pins <;> rfl

theorem pairActions_flips (p : WindowSnapshot.Pair) :
    (pairActions p).filterMap RestoreAction.flip = (p.2.map (due p.1)).getD [] := by
  obtain ⟨snap, found⟩ := p
  cases found with
  | none => rfl
  | some w => exact matchedActions_flips snap w

section Flips

variable {target live live' : Snapshot}

theorem flips_eq (target live : Snapshot) :
    target.flips live = (target.pairing live).flatMap fun p => (p.2.map (due p.1)).getD [] := by
  have extra : (extraActions target live).filterMap RestoreAction.flip = [] := by
    simp [extraActions, RestoreAction.flip, List.filterMap_map, Function.comp_def]
  have focus : (focusActions target live).filterMap RestoreAction.flip = [] := by
    unfold focusActions
    split
    · split <;> rfl
    · rfl
  rw [Snapshot.flips, diffAgainst_actions, List.filterMap_append, List.filterMap_append, extra, focus,
    List.append_nil, List.append_nil, List.filterMap_flatMap]
  exact List.flatMap_congr fun p _ => pairActions_flips p

theorem mem_flips {f : Flip} :
    f ∈ target.flips live ↔ ∃ snap w, (snap, some w) ∈ target.pairing live ∧
      f.address = w.address ∧ off snap f.kind (w.flag f.kind) = true := by
  rw [flips_eq, List.mem_flatMap]
  constructor
  · rintro ⟨⟨snap, found⟩, paired, member⟩
    cases found with
    | none => cases member
    | some w => exact ⟨snap, w, paired, mem_due.mp member⟩
  · rintro ⟨snap, w, paired, wrong⟩
    exact ⟨(snap, some w), paired, mem_due.mpr wrong⟩

theorem pairing_unique (distinct : (live.windows.map (·.address)).Nodup) {snap snap' w w' : WindowSnapshot}
    (first : (snap, some w) ∈ target.pairing live) (second : (snap', some w') ∈ target.pairing live)
    (address : w.address = w'.address) : snap = snap' ∧ w = w' := by
  have same : w = w' :=
    List.inj_on_of_nodup_map distinct (pair_mem_live first) (pair_mem_live second) address
  subst same
  have unique := keysOf_nodup (pickLive_fresh live.windows) [] target.windows
  exact ⟨congrArg Prod.fst (pair_eq_of_key unique first second), rfl⟩

theorem flips_nodup (target live : Snapshot) : (target.flips live).Nodup := by
  have unique : (matchedAddresses (target.pairing live)).Nodup :=
    keysOf_nodup (pickLive_fresh live.windows) [] target.windows
  rw [flips_eq]
  generalize target.pairing live = pairs at unique
  induction pairs with
  | nil => exact List.nodup_nil
  | cons p rest ih =>
    obtain ⟨snap, found⟩ := p
    rw [List.flatMap_cons]
    cases found with
    | none => exact ih unique
    | some w =>
      obtain ⟨new, unique'⟩ := List.nodup_cons.mp unique
      refine List.nodup_append.mpr ⟨due_nodup snap w, ih unique', ?_⟩
      rintro f here _ later rfl
      obtain ⟨⟨snap', found⟩, paired, member⟩ := List.mem_flatMap.mp later
      cases found with
      | none => cases member
      | some v =>
        have same : v.address = w.address := (mem_due.mp member).1.symm.trans (mem_due.mp here).1
        have taken : v.address ∈ matchedAddresses rest := mem_keysOf paired
        rw [same] at taken
        exact new taken

/-- Once some of the flips of a diff have been made, a new diff has the others. -/
theorem flips_after (distinct : (live.windows.map (·.address)).Nodup) {f : WindowSnapshot → WindowSnapshot}
    (same : ∀ w, SameIdentity (f w) w) (windows : live'.windows = live.windows.map f) {made : List Flip}
    (owed : ∀ x ∈ made, x ∈ target.flips live)
    (flags : ∀ w ∈ live.windows, ∀ kind,
      (f w).flag kind = (w.flag kind ^^ decide (⟨kind, w.address⟩ ∈ made))) :
    target.flips live' = (target.flips live).filter (· ∉ made) := by
  rw [flips_eq, flips_eq, pairing_map same windows, List.flatMap_map, List.filter_flatMap]
  refine List.flatMap_congr fun p paired => ?_
  obtain ⟨snap, found⟩ := p
  cases found with
  | none => rfl
  | some w =>
    show due snap (f w) = (due snap w).filter (· ∉ made)
    have left : ∀ kind, off snap kind ((f w).flag kind) =
        (off snap kind (w.flag kind) && decide (⟨kind, w.address⟩ ∉ made)) := by
      intro kind
      rw [flags w (pair_mem_live paired) kind]
      by_cases done : (⟨kind, w.address⟩ : Flip) ∈ made
      · obtain ⟨snap', w', paired', address, wrong⟩ := mem_flips.mp (owed _ done)
        obtain ⟨rfl, rfl⟩ := pairing_unique distinct paired paired' address
        simp [done, off_not wrong]
      · simp [done]
    unfold due
    rw [List.filter_map, (same w).1, List.filter_filter]
    congr 1
    apply List.filter_congr
    intro kind _
    rw [left kind, Bool.and_comm]
    rfl

end Flips

end HyprPilot
