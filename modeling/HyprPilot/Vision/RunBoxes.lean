import HyprPilot.Vision.WordRuns
import Mathlib.Data.Int.ConditionallyCompleteOrder
import Mathlib.Order.Interval.Set.Basic

/-!
# The boxes of the runs

The box that the search merges for a run is the hull of the boxes of its words: where no result
leaves `i32`, the smallest rectangle that holds them all. With it the search returns exactly the
runs of the query, in the order of their starts.
-/

namespace HyprPilot
open Machine

variable {ar : Arithmetic} {edge : Int → Int} {words : List Word} {caseSensitive : Bool}
  {query : String} {i n : Nat}

/-! ### Hulls -/

/-- The box begins and ends where the boxes do, on both axes. -/
structure BBox.IsHull (edge : Int → Int) (all : List BBox) (b : BBox) : Prop where
  across : Segments.Hull BBox.x (fun b => edge (b.x + b.w)) all b.x (edge (b.x + b.w))
  down : Segments.Hull BBox.y (fun b => edge (b.y + b.h)) all b.y (edge (b.y + b.h))

namespace BBox

theorem isHull_singleton (b : BBox) : IsHull edge [b] b :=
  ⟨Segments.hull_singleton b, Segments.hull_singleton b⟩

/-- An edge that is the larger of two given edges is given as it is. -/
theorem edge_of_span (keeps : ar.Keeps edge) {m n low w : Int}
    (ended : ar.plain (max (edge m) (edge n) - low) = .ok w) :
    edge (low + w) = max (edge m) (edge n) := by
  obtain ⟨-, rfl⟩ := keeps.plain ended
  rw [add_sub_cancel]
  rcases max_choice (edge m) (edge n) with left | right
  · rw [left, keeps.edge]
  · rw [right, keeps.edge]

theorem IsHull.concat (keeps : ar.Keeps edge) {all : List BBox} {a b u : BBox} (hull : IsHull edge all a)
    (ended : a.unionIn ar b = .ok u) : IsHull edge (all ++ [b]) u := by
  obtain ⟨rightA, readRightA, ended⟩ := Collect.bind_ok ended
  obtain ⟨rightB, readRightB, ended⟩ := Collect.bind_ok ended
  obtain ⟨bottomA, readBottomA, ended⟩ := Collect.bind_ok ended
  obtain ⟨bottomB, readBottomB, ended⟩ := Collect.bind_ok ended
  obtain ⟨w, readW, ended⟩ := Collect.bind_ok ended
  obtain ⟨h, readH, ended⟩ := Collect.bind_ok ended
  cases ended
  obtain rfl := keeps.saturating readRightA
  obtain rfl := keeps.saturating readRightB
  obtain rfl := keeps.saturating readBottomA
  obtain rfl := keeps.saturating readBottomB
  constructor
  · show Segments.Hull _ _ _ _ (edge (min a.x b.x + w))
    rw [edge_of_span keeps readW]
    exact hull.across.concat b
  · show Segments.Hull _ _ _ _ (edge (min a.y b.y + h))
    rw [edge_of_span keeps readH]
    exact hull.down.concat b

theorem IsHull.fold (keeps : ar.Keeps edge) {all : List BBox} {box u : BBox} (hull : IsHull edge all box)
    {rest : List Word} (ended : rest.foldlM (fun box w => box.unionIn ar w.bbox) box = .ok u) :
    IsHull edge (all ++ rest.map Word.bbox) u := by
  induction rest generalizing all box with
  | nil =>
    cases ended
    rwa [List.map_nil, List.append_nil]
  | cons w rest ih =>
    obtain ⟨joined, first, later⟩ := Collect.bind_ok ended
    have whole := ih (hull.concat keeps first) later
    rwa [List.append_assoc, List.singleton_append] at whole

end BBox

/-! ### Matches -/

/-- What the match of a run shows. -/
structure Merges (edge : Int → Int) (run : List Word) (m : TextMatch) : Prop where
  text : m.text = Text.joinWith " " (run.map (·.text))
  confidence : IsLeast {c | ∃ w ∈ run, w.confidence = c} m.confidence
  box : m.bbox.IsHull edge (run.map Word.bbox)

theorem isLeast_min? {run : List Word} {first : Word} (shape : run[0]? = some first) :
    IsLeast {c | ∃ w ∈ run, w.confidence = c} ((run.map (·.confidence)).min?.getD 0) := by
  cases run with
  | nil => cases shape
  | cons first rest =>
    obtain ⟨least, found⟩ : ∃ least, ((first :: rest).map (·.confidence)).min? = some least := ⟨_, rfl⟩
    rw [found]
    obtain ⟨member, below⟩ := List.min?_eq_some_iff.mp found
    refine ⟨List.mem_map.mp member, ?_⟩
    rintro c ⟨w, inRun, rfl⟩
    exact below _ (List.mem_map_of_mem inRun)

theorem matchAt_ok (keeps : ar.Keeps edge) {m : TextMatch} (ended : matchAt ar words i n = .ok m) :
    Merges edge (wordsAt words i n) m := by
  obtain ⟨run, cut, ended⟩ := Collect.bind_ok ended
  obtain ⟨first, readFirst, ended⟩ := Collect.bind_ok ended
  obtain ⟨box, merged, ended⟩ := Collect.bind_ok ended
  cases ended
  have shape : run = wordsAt words i n := by
    unfold slice at cut
    split at cut
    · exact (Except.ok.inj cut).symm
    · cases cut
  rw [index_eq_ok] at readFirst
  have split : run = first :: run.drop 1 := drop_of_getElem? readFirst
  rw [← shape]
  refine ⟨rfl, isLeast_min? readFirst, ?_⟩
  have hull := (BBox.isHull_singleton first.bbox).fold keeps merged
  rw [List.singleton_append, ← List.map_cons, ← split] at hull
  exact hull

/-! ### Rectangles -/

namespace BBox

/-- The rectangle of a box, its edges included. -/
def rect (b : BBox) : Set (Int × Int) := Set.Icc (b.x, b.y) (b.x + b.w, b.y + b.h)

def Sized (b : BBox) : Prop := 0 ≤ b.w ∧ 0 ≤ b.h

instance : DecidablePred Sized := fun _ => inferInstanceAs (Decidable (_ ∧ _))

theorem rect_subset_iff {a b : BBox} (sized : a.Sized) :
    a.rect ⊆ b.rect ↔ (b.x ≤ a.x ∧ b.y ≤ a.y) ∧ a.x + a.w ≤ b.x + b.w ∧ a.y + a.h ≤ b.y + b.h := by
  have corners : (a.x, a.y) ≤ (a.x + a.w, a.y + a.h) :=
    Prod.mk_le_mk.mpr ⟨by have := sized.1; omega, by have := sized.2; omega⟩
  rw [rect, rect, Set.Icc_subset_Icc_iff corners, Prod.mk_le_mk, Prod.mk_le_mk]

/-- With exact edges the hull is the smallest rectangle that holds the boxes. -/
structure IsSmallest (all : List BBox) (b : BBox) : Prop where
  sized : b.Sized
  holds : ∀ a ∈ all, a.rect ⊆ b.rect
  least : ∀ c : BBox, (∀ a ∈ all, a.rect ⊆ c.rect) → b.rect ⊆ c.rect

theorem IsHull.isSmallest {all : List BBox} {b : BBox} (hull : IsHull id all b)
    (sized : ∀ a ∈ all, a.Sized) : IsSmallest all b := by
  obtain ⟨left, inLeft, begins⟩ := hull.across.low.1
  obtain ⟨right, inRight, ends⟩ := hull.across.high.1
  obtain ⟨top, inTop, tops⟩ := hull.down.low.1
  obtain ⟨bottom, inBottom, bottoms⟩ := hull.down.high.1
  simp only [id_eq] at begins ends tops bottoms
  have own : b.Sized := by
    have wide := hull.across.le_high inLeft
    have tall := hull.down.le_high inTop
    have leftSized := (sized left inLeft).1
    have topSized := (sized top inTop).2
    simp only [id_eq] at wide tall
    exact ⟨by omega, by omega⟩
  refine ⟨own, fun a member => (rect_subset_iff (sized a member)).mpr ?_, fun c holds =>
    (rect_subset_iff own).mpr ?_⟩
  · exact ⟨⟨hull.across.low_le member, hull.down.low_le member⟩, hull.across.le_high member,
      hull.down.le_high member⟩
  · have inC (a : BBox) (member : a ∈ all) := (rect_subset_iff (sized a member)).mp (holds a member)
    rw [← ends, ← bottoms, ← begins, ← tops]
    exact ⟨⟨(inC left inLeft).1.1, (inC top inTop).1.2⟩, (inC right inRight).2.1,
      (inC bottom inBottom).2.2⟩

end BBox

/-! ### The search -/

/-- No sum and no difference of the search leaves `i32`, those that would be clamped included. -/
def NoOverflow (words : List Word) (query : String) (caseSensitive : Bool) : Prop :=
  findWordRunsIn .exact words caseSensitive query ≠ .error .overflow

instance : Decidable (NoOverflow words query caseSensitive) := inferInstanceAs (Decidable (_ ≠ _))

/-- The exact search ends, and as the search of every build does. -/
theorem exact_of_noOverflow (fits : NoOverflow words query caseSensitive) :
    findWordRunsIn .exact words caseSensitive query = .ok (findWordRuns words query caseSensitive) := by
  cases ended : findWordRunsIn .exact words caseSensitive query with
  | error e =>
    have overflow : e = .overflow :=
      findWordRunsIn_inBounds faults_fitted faults_fitted exact_keeps.saturating e ended
    rw [overflow] at ended
    exact absurd ended fits
  | ok found =>
    have released := findWordRunsIn_below checked_below_release query found
      (findWordRunsIn_below exact_below_checked query found ended)
    rw [findWordRunsIn_release] at released
    rw [Except.ok.inj released]

/-- The match names the words of the run and covers them as tightly as a box can. -/
structure Describes (run : List Word) (m : TextMatch) : Prop where
  text : m.text = Text.joinWith " " (run.map (·.text))
  confidence : IsLeast {c | ∃ w ∈ run, w.confidence = c} m.confidence
  box : m.bbox.IsSmallest (run.map Word.bbox)

/-- With and without overflow checks the search ends, and its matches are those of the runs of the
query, one for each in the order of their starts. -/
theorem findWordRuns_exact (sized : ∀ w ∈ words, w.bbox.Sized)
    (fits : NoOverflow words query caseSensitive) :
    findWordRunsIn .release words caseSensitive query = .ok (findWordRuns words query caseSensitive) ∧
      findWordRunsIn .checked words caseSensitive query = .ok (findWordRuns words query caseSensitive) ∧
      ∃ starts : List Nat, starts.Pairwise (· < ·) ∧
        (∀ i, i ∈ starts ↔ IsRun id words caseSensitive query i) ∧
        List.Forall₂ (fun i m => Describes (wordsAt words i (Text.splitWhitespace query).length) m)
          starts (findWordRuns words query caseSensitive) := by
  have ended := exact_of_noOverflow fits
  obtain ⟨starts, sorted, members, matched⟩ := findWordRunsIn_ok exact_keeps.saturating ended
  refine ⟨findWordRunsIn_release _ _ _, findWordRunsIn_below exact_below_checked query _ ended, starts,
    sorted, members, matched.imp fun i m merged => ?_⟩
  have merges := matchAt_ok exact_keeps merged
  refine ⟨merges.text, merges.confidence, merges.box.isSmallest fun a member => ?_⟩
  obtain ⟨w, inRun, rfl⟩ := List.mem_map.mp member
  exact sized w ((List.drop_sublist i words).subset (List.take_subset _ _ inRun))

def saveFile : List Word := [⟨"Save", ⟨10, 0, 50, 20⟩, 95⟩, ⟨"File", ⟨70, 3, 40, 18⟩, 80⟩]

theorem saveFile_found :
    findWordRunsIn .release saveFile false "save file" =
        .ok (findWordRuns saveFile "save file" false) ∧
      findWordRunsIn .checked saveFile false "save file" =
        .ok (findWordRuns saveFile "save file" false) ∧
      ∃ starts : List Nat, starts.Pairwise (· < ·) ∧
        (∀ i, i ∈ starts ↔ IsRun id saveFile false "save file" i) ∧
        List.Forall₂ (fun i m => Describes (wordsAt saveFile i (Text.splitWhitespace "save file").length) m)
          starts (findWordRuns saveFile "save file" false) :=
  findWordRuns_exact (by decide) (by decide)

example : findWordRuns saveFile "save file" false = [⟨"Save File", ⟨10, 0, 100, 21⟩, 80⟩] := by decide

end HyprPilot
