import HyprPilot.Vision.RunBoxes

/-!
# The height at which a match is clicked

Only neighbours in a run are compared, so the rows of a long run may drift apart. Their chain has no
gaps, and the middle of the merged box is at the height of some word of the run.
-/

namespace HyprPilot
open Machine

variable {words : List Word} {caseSensitive : Bool} {query : String}

/-- For boxes with a height, to be on one row is to have a height in common. -/
theorem onRow_iff_shared {a b : BBox} (tallA : 0 < a.h) (tallB : 0 < b.h) :
    OnRow id a b ↔ ∃ c, (a.y ≤ c ∧ c < a.y + a.h) ∧ b.y ≤ c ∧ c < b.y + b.h :=
  Segments.overlap_iff_shared (lt_add_of_pos_right _ tallA) (lt_add_of_pos_right _ tallB)

/-- The middle of a box with a height is inside it, also where it had to be clamped. -/
theorem center_inside {b : BBox} (fits : Machine.InI32 b.y) (tall : 0 < b.h) :
    b.y ≤ b.center.2 ∧ b.center.2 < b.y + b.h := by
  have half : b.h.tdiv 2 = b.h / 2 := Int.tdiv_eq_ediv_of_nonneg tall.le
  obtain ⟨low, high⟩ := fits
  show b.y ≤ sat32 (b.y + b.h.tdiv 2) ∧ sat32 (b.y + b.h.tdiv 2) < b.y + b.h
  rw [half]
  unfold sat32
  omega

theorem BBox.IsHull.center_on_word {all : List BBox} {b : BBox} (hull : b.IsHull id all)
    (rows : all.IsChain (OnRow id)) (fits : ∀ a ∈ all, Machine.InI32 a.y) (tall : ∀ a ∈ all, 0 < a.h) :
    ∃ a ∈ all, a.y ≤ b.center.2 ∧ b.center.2 < a.y + a.h := by
  obtain ⟨top, inTop, begins⟩ := hull.down.low.1
  have ends := hull.down.le_high inTop
  have topTall := tall top inTop
  simp only [id_eq] at begins ends
  have inside := center_inside (begins ▸ fits top inTop : Machine.InI32 b.y) (by omega : 0 < b.h)
  exact hull.down.covered rows inside.1 inside.2

/-- Every match is that of a run of the query, and its click goes to the height of a word of the run. -/
theorem findWordRuns_center (boxes : ∀ w ∈ words, w.bbox.InI32) (tall : ∀ w ∈ words, 0 < w.bbox.h)
    (fits : NoOverflow words query caseSensitive) :
    ∀ m ∈ findWordRuns words query caseSensitive, ∃ i first rest,
      IsRun id words caseSensitive query i ∧
        wordsAt words i (Text.splitWhitespace query).length = first :: rest ∧ m = mergeRun first rest ∧
          ∃ w ∈ first :: rest, w.bbox.y ≤ m.bbox.center.2 ∧ m.bbox.center.2 < w.bbox.y + w.bbox.h := by
  intro m member
  obtain ⟨starts, -, members, matched⟩ :=
    findWordRunsIn_ok exact_keeps.saturating (exact_of_noOverflow fits)
  obtain ⟨i, listed, merged⟩ := exists_of_forall₂ matched.flip member
  have run := (members i).mp listed
  obtain ⟨n, first, length, found, inside⟩ := run.first
  have rows := run.wanted.rows
  rw [List.length_map, length] at rows
  rw [length]
  have shape := wordsAt_succ found n
  have hull := (matchAt_ok exact_keeps (length ▸ merged)).box
  have released := matchAt_below checked_below_release _ _ (matchAt_below exact_below_checked _ _ merged)
  rw [length, matchAt_release found inside] at released
  have inWords : ∀ w ∈ first :: wordsAt words (i + 1) n, w ∈ words := fun w inRun =>
    List.drop_subset i words (List.take_subset (n + 1) _ (shape ▸ inRun : w ∈ wordsAt words i (n + 1)))
  rw [shape] at hull rows
  refine ⟨i, first, _, run, shape, (Except.ok.inj released).symm, ?_⟩
  obtain ⟨box, inBoxes, holds⟩ := hull.center_on_word rows
    (List.forall_mem_map.mpr fun w inRun => (boxes w (inWords w inRun)).y)
    (List.forall_mem_map.mpr fun w inRun => tall w (inWords w inRun))
  obtain ⟨w, inRun, rfl⟩ := List.mem_map.mp inBoxes
  exact ⟨w, inRun, holds⟩

/-- Three words drifting down: the first and the third do not overlap. -/
def drifting : List Word :=
  [⟨"Save", ⟨10, 0, 50, 20⟩, 95⟩, ⟨"File", ⟨70, 15, 40, 20⟩, 80⟩, ⟨"As", ⟨120, 30, 30, 20⟩, 90⟩]

def driftingMatch : TextMatch := ⟨"Save File As", ⟨10, 0, 140, 50⟩, 80⟩

theorem drifting_center : ∃ i first rest,
    IsRun id drifting false "save file as" i ∧
      wordsAt drifting i (Text.splitWhitespace "save file as").length = first :: rest ∧
      driftingMatch = mergeRun first rest ∧
        ∃ w ∈ first :: rest,
          w.bbox.y ≤ driftingMatch.bbox.center.2 ∧ driftingMatch.bbox.center.2 < w.bbox.y + w.bbox.h := by
  have boxes : ∀ w ∈ drifting, w.bbox.InI32 := by
    simp only [drifting, List.forall_mem_cons, List.not_mem_nil, false_imp_iff, implies_true, and_true]
    exact ⟨⟨by decide, by decide, by decide, by decide⟩, ⟨by decide, by decide, by decide, by decide⟩,
      ⟨by decide, by decide, by decide, by decide⟩⟩
  exact findWordRuns_center boxes (by decide) (by decide) driftingMatch (by decide)

end HyprPilot
