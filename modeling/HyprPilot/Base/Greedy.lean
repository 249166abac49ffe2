import Mathlib.Data.List.Nodup
import Mathlib.Tactic.Common

/-!
# Greedy assignment

Items are served in order. Each takes at most one resource, chosen by `pick` from what the items
before it left, and the key of a taken resource is not offered again. The result pairs every item
with the resource it took.
-/

namespace Greedy

variable {α β κ : Type} (pick : List κ → α → Option β) (key : β → κ)

def assign : List κ → List α → List (α × Option β)
  | _, [] => []
  | taken, a :: rest =>
    match pick taken a with
    | some b => (a, some b) :: assign (key b :: taken) rest
    | none => (a, none) :: assign taken rest

/-- The keys that the items took, in the order of the items. -/
def keysOf (pairs : List (α × Option β)) : List κ := pairs.filterMap fun p => p.2.map key

def Fresh : Prop := ∀ taken a b, pick taken a = some b → key b ∉ taken

variable {pick key}

@[simp] theorem assign_nil (taken : List κ) : assign pick key taken [] = [] := rfl

theorem assign_some {taken : List κ} {a : α} {rest : List α} {b : β} (h : pick taken a = some b) :
    assign pick key taken (a :: rest) = (a, some b) :: assign pick key (key b :: taken) rest := by
  rw [assign, h]

theorem assign_none {taken : List κ} {a : α} {rest : List α} (h : pick taken a = none) :
    assign pick key taken (a :: rest) = (a, none) :: assign pick key taken rest := by
  rw [assign, h]

variable (pick key) in
theorem assign_fst (taken : List κ) (as : List α) :
    (assign pick key taken as).map Prod.fst = as := by
  induction as generalizing taken with
  | nil => rfl
  | cons a rest ih =>
    cases h : pick taken a with
    | some b => rw [assign_some h, List.map_cons, ih]
    | none => rw [assign_none h, List.map_cons, ih]

variable (pick key) in
theorem exists_pair (taken : List κ) {as : List α} {a : α} (member : a ∈ as) :
    ∃ found, (a, found) ∈ assign pick key taken as := by
  rw [← assign_fst pick key taken as] at member
  obtain ⟨⟨_, found⟩, paired, rfl⟩ := List.mem_map.mp member
  exact ⟨found, paired⟩

theorem mem_of_pair {taken : List κ} {as : List α} {p : α × Option β}
    (paired : p ∈ assign pick key taken as) : p.1 ∈ as := by
  have member := List.mem_map_of_mem (f := Prod.fst) paired
  rwa [assign_fst] at member

/-- A resource is picked when at least those of `taken` are gone. -/
theorem picked_after {taken : List κ} {as : List α} {a : α} {b : β}
    (paired : (a, some b) ∈ assign pick key taken as) :
    ∃ before, (∀ k ∈ taken, k ∈ before) ∧ pick before a = some b := by
  induction as generalizing taken with
  | nil => cases paired
  | cons c rest ih =>
    cases h : pick taken c with
    | some d =>
      rw [assign_some h] at paired
      rcases List.mem_cons.mp paired with same | later
      · cases same
        exact ⟨taken, fun _ member => member, h⟩
      · obtain ⟨before, gone, picked⟩ := ih later
        exact ⟨before, fun k member => gone k (List.mem_cons_of_mem _ member), picked⟩
    | none =>
      rw [assign_none h] at paired
      rcases List.mem_cons.mp paired with same | later
      · cases same
      · exact ih later

theorem picked_of_pair {taken : List κ} {as : List α} {a : α} {b : β}
    (paired : (a, some b) ∈ assign pick key taken as) : ∃ before, pick before a = some b := by
  obtain ⟨before, -, picked⟩ := picked_after paired
  exact ⟨before, picked⟩

section Fresh

variable (fresh : Fresh pick key)
include fresh

theorem key_not_taken {taken : List κ} {as : List α} {a : α} {b : β}
    (paired : (a, some b) ∈ assign pick key taken as) : key b ∉ taken := by
  obtain ⟨before, gone, picked⟩ := picked_after paired
  exact fun old => fresh before a b picked (gone _ old)

theorem keysOf_nodup (taken : List κ) (as : List α) :
    (keysOf key (assign pick key taken as)).Nodup := by
  induction as generalizing taken with
  | nil => exact List.nodup_nil
  | cons a rest ih =>
    cases h : pick taken a with
    | none =>
      rw [assign_none h]
      simpa [keysOf] using ih taken
    | some b =>
      rw [assign_some h]
      have later := ih (key b :: taken)
      have absent : key b ∉ keysOf key (assign pick key (key b :: taken) rest) := by
        intro member
        obtain ⟨⟨c, found⟩, paired, same⟩ := List.mem_filterMap.mp member
        cases found with
        | none => cases same
        | some d =>
          have equal : key d = key b := Option.some.inj same
          have untaken := key_not_taken fresh paired
          rw [equal] at untaken
          exact untaken List.mem_cons_self
      simpa [keysOf] using ⟨by simpa [keysOf] using absent, later⟩

end Fresh

theorem mem_keysOf {pairs : List (α × Option β)} {a : α} {b : β} (paired : (a, some b) ∈ pairs) :
    key b ∈ keysOf key pairs :=
  List.mem_filterMap.mpr ⟨_, paired, rfl⟩

theorem pair_eq_of_key {pairs : List (α × Option β)} (unique : (keysOf key pairs).Nodup) {a c : α}
    {b : β} (first : (a, some b) ∈ pairs) (second : (c, some b) ∈ pairs) :
    (a, some b) = (c, some b) := by
  induction pairs with
  | nil => cases first
  | cons p rest ih =>
    have unique' : (keysOf key rest).Nodup := by
      cases h : p.2.map key with
      | none => simpa [keysOf, h] using unique
      | some k =>
        have split : (k :: keysOf key rest).Nodup := by simpa [keysOf, h] using unique
        exact (List.nodup_cons.mp split).2
    have clash : ∀ d, p = (d, some b) → ∀ e, (e, some b) ∉ rest := by
      intro d same e later
      subst same
      have split : (key b :: keysOf key rest).Nodup := by simpa [keysOf] using unique
      exact (List.nodup_cons.mp split).1 (mem_keysOf later)
    rcases List.mem_cons.mp first with head | tail
    · rcases List.mem_cons.mp second with head' | tail'
      · exact head.trans head'.symm
      · exact absurd tail' (clash a head.symm c)
    · rcases List.mem_cons.mp second with head' | tail'
      · exact absurd tail (clash c head'.symm a)
      · exact ih unique' tail tail'

/-- A change of the resources that keeps every choice and every key keeps the assignment. -/
theorem assign_map {pick' : List κ → α → Option β} {f : β → β}
    (picks : ∀ taken a, pick' taken a = (pick taken a).map f) (keys : ∀ b, key (f b) = key b)
    (taken : List κ) (as : List α) :
    assign pick' key taken as =
      (assign pick key taken as).map fun p => (p.1, p.2.map f) := by
  induction as generalizing taken with
  | nil => rfl
  | cons a rest ih =>
    have choice := picks taken a
    cases h : pick taken a with
    | some b =>
      rw [h] at choice
      rw [assign_some h, assign_some choice, keys, ih]
      rfl
    | none =>
      rw [h] at choice
      rw [assign_none h, assign_none choice, ih]
      rfl

end Greedy
