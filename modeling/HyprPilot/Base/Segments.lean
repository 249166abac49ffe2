import Mathlib.Algebra.Order.Group.Defs
import Mathlib.Algebra.Order.Sub.Basic
import Mathlib.Data.List.Chain
import Mathlib.Order.Bounds.Basic

/-!
# Segments of a line

The hull of a list of segments begins where the first of them begins and ends where the last ends.
A chain of segments, each overlapping the next, leaves no gap in its hull.
-/

namespace Segments

section Chain

variable {ι α : Type} [LinearOrder α] {lo hi : ι → α}

/-- Each of two half-open segments begins before the other one ends. -/
def Overlap (lo hi : ι → α) (a b : ι) : Prop := lo a < hi b ∧ lo b < hi a

/-- For segments that are not empty, to overlap is to share a point. -/
theorem overlap_iff_shared {a b : ι} (first : lo a < hi a) (second : lo b < hi b) :
    Overlap lo hi a b ↔ ∃ c, (lo a ≤ c ∧ c < hi a) ∧ lo b ≤ c ∧ c < hi b := by
  constructor
  · rintro ⟨before, after⟩
    exact ⟨max (lo a) (lo b), ⟨le_max_left _ _, max_lt first after⟩, le_max_right _ _,
      max_lt before second⟩
  · rintro ⟨c, ⟨aboveA, belowA⟩, aboveB, belowB⟩
    exact ⟨aboveA.trans_lt belowB, aboveB.trans_lt belowA⟩

/-- A point between the beginning of one segment of the chain and the end of another is in some
segment of the chain. -/
theorem exists_mem_of_chain {all : List ι} (chain : all.IsChain (Overlap lo hi)) {c : α}
    (above : ∃ a ∈ all, lo a ≤ c) (below : ∃ b ∈ all, c < hi b) : ∃ s ∈ all, lo s ≤ c ∧ c < hi s := by
  induction all with
  | nil =>
    obtain ⟨a, member, -⟩ := above
    cases member
  | cons first rest ih =>
    by_cases inFirst : lo first ≤ c ∧ c < hi first
    · exact ⟨first, List.mem_cons_self, inFirst⟩
    · cases rest with
      | nil =>
        obtain ⟨a, memberA, aboveA⟩ := above
        obtain ⟨b, memberB, belowB⟩ := below
        rw [List.mem_singleton] at memberA memberB
        rw [memberA] at aboveA
        rw [memberB] at belowB
        exact absurd ⟨aboveA, belowB⟩ inFirst
      | cons second rest =>
        obtain ⟨⟨before, after⟩, later⟩ := List.isChain_cons_cons.mp chain
        -- What the first segment would give, the second one gives too, for it overlaps the first.
        have aboveRest : ∃ a ∈ second :: rest, lo a ≤ c := by
          obtain ⟨a, member, low⟩ := above
          rcases List.mem_cons.mp member with rfl | inRest
          · have past : hi a ≤ c := not_lt.mp fun high => inFirst ⟨low, high⟩
            exact ⟨second, List.mem_cons_self, (after.trans_le past).le⟩
          · exact ⟨a, inRest, low⟩
        have belowRest : ∃ b ∈ second :: rest, c < hi b := by
          obtain ⟨b, member, high⟩ := below
          rcases List.mem_cons.mp member with rfl | inRest
          · have short : c < lo b := not_le.mp fun low => inFirst ⟨low, high⟩
            exact ⟨second, List.mem_cons_self, short.trans before⟩
          · exact ⟨b, inRest, high⟩
        obtain ⟨s, member, inside⟩ := ih later aboveRest belowRest
        exact ⟨s, List.mem_cons_of_mem _ member, inside⟩

end Chain

/-! ### Hulls -/

theorem image_singleton {ι α : Type} (f : ι → α) (s : ι) : {n | ∃ t ∈ [s], f t = n} = {f s} := by
  ext n
  simp [eq_comm]

theorem image_concat {ι α : Type} (f : ι → α) (all : List ι) (s : ι) :
    {n | ∃ t ∈ all ++ [s], f t = n} = {n | ∃ t ∈ all, f t = n} ∪ {f s} := by
  ext n
  constructor
  · rintro ⟨t, member, rfl⟩
    rcases List.mem_append.mp member with inAll | last
    · exact Or.inl ⟨t, inAll, rfl⟩
    · exact Or.inr (congrArg f (List.mem_singleton.mp last))
  · rintro (⟨t, member, rfl⟩ | rfl)
    · exact ⟨t, List.mem_append_left _ member, rfl⟩
    · exact ⟨s, List.mem_append_right _ (List.mem_singleton_self s), rfl⟩

section Hull

variable {ι α : Type} [LinearOrder α] {lo hi : ι → α}

/-- The least beginning and the greatest end of the segments. -/
structure Hull (lo hi : ι → α) (all : List ι) (low high : α) : Prop where
  low : IsLeast {n | ∃ s ∈ all, lo s = n} low
  high : IsGreatest {n | ∃ s ∈ all, hi s = n} high

theorem hull_singleton (s : ι) : Hull lo hi [s] (lo s) (hi s) where
  low := image_singleton lo s ▸ isLeast_singleton
  high := image_singleton hi s ▸ isGreatest_singleton

theorem Hull.concat {all : List ι} {low high : α} (hull : Hull lo hi all low high) (s : ι) :
    Hull lo hi (all ++ [s]) (min low (lo s)) (max high (hi s)) where
  low := image_concat lo all s ▸ hull.low.union isLeast_singleton
  high := image_concat hi all s ▸ hull.high.union isGreatest_singleton

variable {all : List ι} {low high : α}

theorem Hull.low_le (hull : Hull lo hi all low high) {s : ι} (member : s ∈ all) : low ≤ lo s :=
  hull.low.2 ⟨s, member, rfl⟩

theorem Hull.le_high (hull : Hull lo hi all low high) {s : ι} (member : s ∈ all) : hi s ≤ high :=
  hull.high.2 ⟨s, member, rfl⟩

/-- A hull of a chain is covered by the segments of the chain. -/
theorem Hull.covered (hull : Hull lo hi all low high) (chain : all.IsChain (Overlap lo hi)) {c : α}
    (above : low ≤ c) (below : c < high) : ∃ s ∈ all, lo s ≤ c ∧ c < hi s := by
  obtain ⟨a, memberA, begins⟩ := hull.low.1
  obtain ⟨b, memberB, ends⟩ := hull.high.1
  exact exists_mem_of_chain chain ⟨a, memberA, begins ▸ above⟩ ⟨b, memberB, ends ▸ below⟩

/-- How wide a hull is says how far apart an end and a beginning of the segments can be. -/
theorem Hull.sub_le_iff [AddCommGroup α] [IsOrderedAddMonoid α] (hull : Hull lo hi all low high)
    {bound : α} : high - low ≤ bound ↔ ∀ a ∈ all, ∀ b ∈ all, hi a - lo b ≤ bound := by
  constructor
  · intro narrow a memberA b memberB
    exact (sub_le_sub (hull.le_high memberA) (hull.low_le memberB)).trans narrow
  · intro narrow
    obtain ⟨b, memberB, begins⟩ := hull.low.1
    obtain ⟨a, memberA, ends⟩ := hull.high.1
    exact begins ▸ ends ▸ narrow a memberA b memberB

end Hull

end Segments
